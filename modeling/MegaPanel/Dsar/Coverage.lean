import MegaPanel.Dsar.Model

set_option autoImplicit false

/-! # What a data subject's request covers

A lead has the digest of the phone number as the visitor spelled it, and a request looks for the
digest of the spelling that the subject gives. So a request covers a lead when the two spellings are
the same but for white space at the ends and letter case, or when the subject also gives the email
address of the lead (`covered_iff`). That both are spellings of one number (`SameNumber`) is not
enough. What a request finds and erases, the same search does not find again.
-/

namespace MegaPanel.Dsar

open MegaPanel.Lib MegaPanel.Lib.Text
open MegaPanel.LeadDelivery (LeadId)
open MegaPanel.LeadIntake (PublicLeadIn)
open MegaPanel.LeadRouting (Site)
open MegaPanel.Rendering (normalizePhoneE164)

variable (env : Env)

/-! ## Rows of the form -/

variable {lead : Lead} {site : Site} {body : PublicLeadIn} {tenantId : TenantId}
  {email : Option String} {phone : String} {subject : Subject}

/-- Two spellings with the same number in E.164. -/
def SameNumber (p q : String) : Prop :=
  normalizePhoneE164 p = normalizePhoneE164 q ∧ (normalizePhoneE164 p).isSome

instance (p q : String) : Decidable (SameNumber p q) := inferInstanceAs (Decidable (_ ∧ _))

/-- The row is that of a lead, but for its status. -/
def FormRow (lead : Lead) (site : Site) (body : PublicLeadIn) : Prop :=
  ∃ ip status, lead = { storedLead env site body ip with status := status }

/-- What a row of the form stores. -/
theorem FormRow.fields (h : FormRow env lead site body) :
    lead.tenantId = site.tenantId ∧ lead.phoneEnc = some (env.encrypt body.phone) ∧
      lead.phoneBlind = some (blindIndex env body.phone) ∧
      lead.emailEnc = (given body.email).map env.encrypt ∧
      lead.nameEnc = (given body.name).map env.encrypt ∧
      lead.messageEnc = (given body.message).map env.encrypt := by
  obtain ⟨ip, status, rfl⟩ := h
  exact ⟨rfl, rfl, rfl, rfl, rfl, rfl⟩

/-- The row has nothing of a person. -/
def Blank (lead : Lead) : Prop :=
  lead.phoneEnc = none ∧ lead.emailEnc = none ∧ lead.nameEnc = none ∧ lead.messageEnc = none ∧
    lead.phoneBlind = none

/-- Every row is that of a lead or has been erased. -/
def Sound (db : Db) : Prop :=
  ∀ id lead, db.leads.get id = some lead → (∃ site body, FormRow env lead site body) ∨ Blank lead

theorem given_eq_some {text : Option String} {t : String} :
    given text = some t ↔ text = some t ∧ t ≠ "" := by
  rw [given, Option.filter_eq_some_iff]
  simp

theorem phoneIndex_some (h : phone ≠ "") :
    phoneIndex env ⟨tenantId, email, some phone⟩ = some (blindIndex env phone) := by
  rw [phoneIndex, given_eq_some.mpr ⟨rfl, h⟩]
  rfl

theorem emailMatches_blank (h : Blank lead) : emailMatches env subject lead = false := by
  rw [emailMatches, h.2.1]
  cases given subject.email <;> rfl

theorem matchesSubject_blank (h : Blank lead) : matchesSubject env subject lead = false := by
  rw [matchesSubject, emailMatches_blank env h, Bool.false_or, h.2.2.2.2]
  cases phoneIndex env subject <;> rfl

/-! ## The search -/

variable {db : Db} {id : LeadId}

/-- **The search finds what the subject matches**: the condition of the query only leaves out rows
that would not match. -/
theorem mem_search :
    (id, lead) ∈ search env db subject ↔
      db.leads.get id = some lead ∧ lead.tenantId = subject.tenantId ∧
        matchesSubject env subject lead = true := by
  rw [search, List.mem_filter, List.mem_filter, Table.mem_rows]
  constructor
  · rintro ⟨⟨hget, hselected⟩, hmatches⟩
    rw [selected, Bool.and_eq_true] at hselected
    exact ⟨hget, of_decide_eq_true hselected.1, hmatches⟩
  · rintro ⟨hget, htenant, hmatches⟩
    refine ⟨⟨hget, ?_⟩, hmatches⟩
    rw [selected, decide_eq_true htenant, Bool.true_and]
    cases hindex : phoneIndex env subject with
    | none => rfl
    | some index =>
      cases hemail : given subject.email with
      | some email => rfl
      | none =>
        rw [matchesSubject, emailMatches, hemail, hindex] at hmatches
        simpa using hmatches

/-- The email address of the request is that of the lead. -/
def SameEmail (subject : Subject) (body : PublicLeadIn) : Prop :=
  ∃ email text, given subject.email = some email ∧ given body.email = some text ∧
    env.lower text = env.lower email

theorem emailMatches_iff (h : FormRow env lead site body) :
    emailMatches env subject lead = true ↔ SameEmail env subject body := by
  obtain ⟨-, -, -, henc, -⟩ := h.fields
  rw [emailMatches, henc]
  constructor
  · intro hmatches
    split at hmatches
    · next email token hemail htoken =>
      obtain ⟨hmap, -⟩ := given_eq_some.mp htoken
      obtain ⟨text, htext, rfl⟩ := Option.map_eq_some_iff.mp hmap
      rw [env.decrypt_encrypt, Option.any_some] at hmatches
      exact ⟨email, text, hemail, htext, of_decide_eq_true hmatches⟩
    · cases hmatches
  · rintro ⟨email, text, hemail, htext, hsame⟩
    have htoken : given ((given body.email).map env.encrypt) = some (env.encrypt text) := by
      rw [htext]
      exact given_eq_some.mpr ⟨rfl, env.encrypt_ne text⟩
    rw [hemail, htoken]
    dsimp only
    rw [env.decrypt_encrypt, Option.any_some, hsame, decide_eq_true rfl]

/-- The digests of two spellings, without a collision. -/
theorem blindIndex_inj {p q : String}
    (hfree : Sha256.CollisionFree {m | m ∈ Hmac.hashed (utf8 env.pepper)
      [utf8 (blindNormal env p), utf8 (blindNormal env q)]}) :
    blindIndex env p = blindIndex env q ↔ blindNormal env p = blindNormal env q := by
  rw [blindIndex, blindIndex, Hmac.hmacHex_inj hfree, utf8_injective.eq_iff]

/-- **When a lead is found**, by what its visitor has sent. -/
theorem matchesSubject_iff (hphone : phone ≠ "") (h : FormRow env lead site body)
    (hfree : Sha256.CollisionFree {m | m ∈ Hmac.hashed (utf8 env.pepper)
      [utf8 (blindNormal env body.phone), utf8 (blindNormal env phone)]}) :
    matchesSubject env ⟨tenantId, email, some phone⟩ lead = true ↔
      blindNormal env body.phone = blindNormal env phone ∨
        SameEmail env ⟨tenantId, email, some phone⟩ body := by
  obtain ⟨-, -, hblind, -⟩ := h.fields
  rw [matchesSubject, Bool.or_eq_true, emailMatches_iff env h, phoneIndex_some env hphone,
    Option.any_some, hblind,
    decide_eq_true_eq, Option.some_inj, blindIndex_inj env hfree]
  exact or_comm

/-! ## Exports -/

theorem decryptField_encrypt (text : Option String) :
    ∃ v, decryptField env ((given text).map env.encrypt) = .ok v := by
  unfold decryptField
  cases htext : given text with
  | none => exact ⟨none, rfl⟩
  | some t =>
    have htoken : given ((some t).map env.encrypt) = some (env.encrypt t) :=
      given_eq_some.mpr ⟨rfl, env.encrypt_ne t⟩
    rw [htoken]
    dsimp only
    rw [env.decrypt_encrypt]
    exact ⟨some t, rfl⟩

/-- A row of the form can be read. -/
theorem exportRow_form (h : FormRow env lead site body) :
    ∃ row, exportRow env (id, lead) = .ok row ∧ row.id = id := by
  obtain ⟨-, hphoneEnc, -, hemailEnc, hnameEnc, hmessageEnc⟩ := h.fields
  have hphone : decryptField env (some (env.encrypt body.phone)) = .ok (some body.phone) := by
    unfold decryptField
    rw [given_eq_some.mpr ⟨rfl, env.encrypt_ne body.phone⟩]
    dsimp only
    rw [env.decrypt_encrypt]
  obtain ⟨email, hemail⟩ := decryptField_encrypt env body.email
  obtain ⟨name, hname⟩ := decryptField_encrypt env body.name
  obtain ⟨message, hmessage⟩ := decryptField_encrypt env body.message
  refine ⟨⟨id, lead.siteId, lead.pageSlug, lead.status, some body.phone, email, name, message⟩,
    ?_, rfl⟩
  unfold exportRow
  dsimp only
  rw [hphoneEnc, hemailEnc, hnameEnc, hmessageEnc, hphone, hemail, hname, hmessage]

/-- What the search finds is a row of the form. -/
theorem Sound.search (h : Sound env db) {r : LeadId × Lead} (hr : r ∈ search env db subject) :
    ∃ site body, FormRow env r.2 site body := by
  obtain ⟨hget, -, hmatches⟩ := (mem_search env).mp hr
  rcases h r.1 r.2 hget with hform | hblank
  · exact hform
  · rw [matchesSubject_blank env hblank] at hmatches
    cases hmatches

theorem exists_of_forall₂ {α β : Type} {R : α → β → Prop} {xs : List α} {ys : List β}
    (h : List.Forall₂ R xs ys) {x : α} (hx : x ∈ xs) : ∃ y ∈ ys, R x y := by
  induction h with
  | nil => cases hx
  | cons hxy _ ih =>
    rcases List.mem_cons.mp hx with rfl | hx
    · exact ⟨_, List.mem_cons_self .., hxy⟩
    · obtain ⟨y, hy, hR⟩ := ih hx
      exact ⟨y, List.mem_cons_of_mem _ hy, hR⟩

/-- A lead is in the file of an export. -/
def Exported (db : Db) (subject : Subject) (id : LeadId) : Prop :=
  ∃ rows consents, exportSubject env db subject = .ok (rows, consents) ∧ ∃ row ∈ rows, row.id = id

/-- **An export has the leads that the search finds.** -/
theorem exported_iff (h : Sound env db) :
    Exported env db subject id ↔ ∃ lead, (id, lead) ∈ search env db subject := by
  have hread : ∀ r ∈ search env db subject, ∃ row, exportRow env r = .ok row ∧ row.id = r.1 := by
    intro r hr
    obtain ⟨site, body, hform⟩ := h.search env hr
    exact exportRow_form env hform
  obtain ⟨rows, hrows⟩ : ∃ rows, (search env db subject).mapM (exportRow env) = .ok rows :=
    mapM_isOk_iff.mpr (fun r hr => (hread r hr).imp (fun _ h => h.1))
  constructor
  · rintro ⟨rows, consents, hok, row, hmem, rfl⟩
    obtain ⟨rows', hrows, heq⟩ := map_eq_ok hok
    cases heq
    obtain ⟨r, hr, hrow⟩ := mapM_mem hrows hmem
    obtain ⟨row', hrow', hid⟩ := hread r hr
    cases hrow.symm.trans hrow'
    exact ⟨r.2, hid ▸ hr⟩
  · rintro ⟨lead, hmem⟩
    obtain ⟨row, hrow, hid⟩ := hread _ hmem
    obtain ⟨row', hmem', hrow'⟩ := exists_of_forall₂ (mapM_forall₂ hrows) hmem
    cases hrow.symm.trans hrow'
    refine ⟨rows, (activeConsents env db subject (search env db subject)).length, ?_, row, hmem',
      hid⟩
    rw [exportSubject, hrows]
    rfl

/-! ## Erasures -/

variable {leads : List (LeadId × Lead)} {now : Time} {table : Table LeadId Lead}

/-- The rows after an erasure: erased, or as before and not among the leads. -/
theorem get_foldl_erase
    (h : (leads.foldl (fun table r => table.set r.1 (r.2.erase now)) table).get id = some lead) :
    (∃ r ∈ leads, r.1 = id ∧ lead = r.2.erase now) ∨
      (table.get id = some lead ∧ ∀ r ∈ leads, r.1 ≠ id) := by
  induction leads generalizing table with
  | nil => exact .inr ⟨h, by simp⟩
  | cons first rest ih =>
    rcases ih h with ⟨r, hr, hid, hlead⟩ | ⟨hget, hrest⟩
    · exact .inl ⟨r, List.mem_cons_of_mem _ hr, hid, hlead⟩
    rcases Table.get_set_eq_some.mp hget with ⟨hid, hlead⟩ | ⟨hid, hget⟩
    · exact .inl ⟨first, List.mem_cons_self .., hid.symm, hlead⟩
    · exact .inr ⟨hget, List.forall_mem_cons.mpr ⟨fun heq => hid heq.symm, hrest⟩⟩

theorem get_foldl_isSome (h : (table.get id).isSome) :
    ((leads.foldl (fun table r => table.set r.1 (r.2.erase now)) table).get id).isSome := by
  induction leads generalizing table with
  | nil => exact h
  | cons first rest ih =>
    refine ih ?_
    rw [Table.get_set]
    split
    · rfl
    · exact h

theorem erase_blank (lead : Lead) (now : Time) : Blank (lead.erase now) :=
  ⟨rfl, rfl, rfl, rfl, rfl⟩

/-- A lead has lost what it had of a person. -/
def Erased (db : Db) (id : LeadId) : Prop := ∃ lead, db.leads.get id = some lead ∧ Blank lead

/-- **A deletion erases the leads that the search finds.** -/
theorem erased_iff (hget : db.leads.get id = some lead) (hform : FormRow env lead site body) :
    Erased (deleteSubject env db subject now) id ↔ (id, lead) ∈ search env db subject := by
  constructor
  · rintro ⟨lead', hget', hblank⟩
    rcases get_foldl_erase hget' with ⟨r, hr, rfl, -⟩ | ⟨hsame, -⟩
    · obtain ⟨hrow, -, -⟩ := (mem_search env).mp hr
      cases hget.symm.trans hrow
      exact hr
    · cases hget.symm.trans hsame
      exact absurd (hform.fields.2.1.symm.trans hblank.1) (by simp)
  · intro hmem
    have hsome : ((deleteSubject env db subject now).leads.get id).isSome :=
      get_foldl_isSome (by rw [hget]; rfl)
    obtain ⟨lead', hget'⟩ := Option.isSome_iff_exists.mp hsome
    refine ⟨lead', hget', ?_⟩
    rcases get_foldl_erase hget' with ⟨r, -, -, rfl⟩ | ⟨-, hother⟩
    · exact erase_blank r.2 now
    · exact absurd rfl (hother (id, lead) hmem)

/-- **What is erased is not found again**: after a deletion the same search is empty. -/
theorem search_deleted (db : Db) (subject : Subject) (now : Time) :
    search env (deleteSubject env db subject now) subject = [] := by
  rw [List.eq_nil_iff_forall_not_mem]
  rintro ⟨id, lead⟩ hmem
  obtain ⟨hget, htenant, hmatches⟩ := (mem_search env).mp hmem
  rcases get_foldl_erase hget with ⟨r, -, -, rfl⟩ | ⟨hsame, hother⟩
  · rw [matchesSubject_blank env (erase_blank r.2 now)] at hmatches
    cases hmatches
  · exact hother (id, lead) ((mem_search env).mpr ⟨hsame, htenant, hmatches⟩) rfl

/-! ## Runs of requests -/

theorem sound_start : Sound env start := fun _ _ h => by cases h

/-- **One request** leaves rows of the form, and blank ones. -/
theorem Sound.step {db' : Db} (h : Sound env db) {action : Action}
    (hstep : step env db action = some db') : Sound env db' := by
  cases action with
  | submit id consentId site body ip =>
    change (if _ then some _ else none) = some db' at hstep
    split at hstep
    · cases hstep
      exact Table.forall_set h (.inl ⟨site, body, ip, _, rfl⟩)
    · cases hstep
  | setStatus id status =>
    change (if status = .erased then none else _) = some db' at hstep
    split_ifs at hstep
    obtain ⟨old, hold, rfl⟩ := Option.map_eq_some_iff.mp hstep
    intro id' lead hget
    rcases Table.get_set_eq_some.mp hget with ⟨-, rfl⟩ | ⟨-, hget⟩
    · rcases h id old hold with ⟨site, body, ip, s, rfl⟩ | hblank
      · exact .inl ⟨site, body, ip, status, rfl⟩
      · exact .inr hblank
    · exact h id' lead hget
  | «export» subject =>
    obtain ⟨_, -, rfl⟩ := Option.map_eq_some_iff.mp hstep
    exact h
  | delete subject now =>
    cases hstep
    intro id lead hget
    rcases get_foldl_erase hget with ⟨r, -, -, rfl⟩ | ⟨hsame, -⟩
    · exact .inr (erase_blank r.2 now)
    · exact h id lead hsame

theorem exec_sound {actions : List Action} (h : exec (step env) start actions = some db) :
    Sound env db :=
  exec_invariant (G := fun _ _ _ => True) (fun _ _ _ hs _ hstep => hs.step env hstep)
    (sound_start env) (along_of_forall (fun _ _ => trivial) _) h

/-- **When a request covers a lead.** After any run of requests, for a lead that the form has stored
and a request with another spelling of its number: an export has the lead, and a deletion erases it,
exactly when the spellings agree up to white space at the ends and letter case, or the request has
the email address of the lead too. In any case the search finds nothing after the deletion. -/
theorem covered_iff {actions : List Action} {db : Db}
    (h : exec (step env) start actions = some db) {id : LeadId} {lead : Lead} {site : Site}
    {body : PublicLeadIn} (hget : db.leads.get id = some lead) (hform : FormRow env lead site body)
    {phone : String} (hsame : SameNumber phone body.phone)
    (hfree : Sha256.CollisionFree {m | m ∈ Hmac.hashed (utf8 env.pepper)
      [utf8 (blindNormal env body.phone), utf8 (blindNormal env phone)]})
    (email : Option String) (now : Time) :
    (Exported env db ⟨site.tenantId, email, some phone⟩ id ↔
      blindNormal env body.phone = blindNormal env phone ∨
        SameEmail env ⟨site.tenantId, email, some phone⟩ body) ∧
    (Erased (deleteSubject env db ⟨site.tenantId, email, some phone⟩ now) id ↔
      blindNormal env body.phone = blindNormal env phone ∨
        SameEmail env ⟨site.tenantId, email, some phone⟩ body) ∧
    search env (deleteSubject env db ⟨site.tenantId, email, some phone⟩ now)
      ⟨site.tenantId, email, some phone⟩ = [] := by
  have hphone : phone ≠ "" := by
    rintro rfl
    exact absurd hsame.2 (by decide)
  have hfound : (id, lead) ∈ search env db ⟨site.tenantId, email, some phone⟩ ↔
      blindNormal env body.phone = blindNormal env phone ∨
        SameEmail env ⟨site.tenantId, email, some phone⟩ body := by
    rw [mem_search, ← matchesSubject_iff env hphone hform hfree]
    exact ⟨fun hmem => hmem.2.2, fun hmatches => ⟨hget, hform.fields.1, hmatches⟩⟩
  refine ⟨?_, (erased_iff env hget hform).trans hfound, search_deleted env db _ now⟩
  rw [exported_iff env (exec_sound env h), ← hfound]
  constructor
  · rintro ⟨lead', hmem⟩
    cases hget.symm.trans ((mem_search env).mp hmem).1
    exact hmem
  · exact fun hmem => ⟨lead, hmem⟩

/-! ## Spellings of one number -/

/-- The state after the form has stored a first lead. -/
def firstLead (site : Site) (body : PublicLeadIn) (ip : String) : Db where
  leads := Table.empty.set 1 (storedLead env site body ip)
  consents := Table.empty.set 1
    ⟨site.tenantId, blindIndex env (storedLead env site body ip).idempotencyKey, none⟩

theorem exec_submit (site : Site) (body : PublicLeadIn) (ip : String) :
    exec (step env) start [.submit 1 1 site body ip] = some (firstLead env site body ip) := by
  rw [exec_cons]
  have hstep : step env start (.submit 1 1 site body ip) = some (firstLead env site body ip) := by
    unfold step
    exact if_pos ⟨rfl, rfl, fun r hr => absurd hr List.not_mem_nil⟩
  rw [hstep]
  rfl

def demoEnv : Env where
  lower := fun text => String.ofList (text.toList.map Char.toLower)
  netlocValid := fun _ => true
  isIpAddress := fun _ => false
  encrypt := fun text => "enc:" ++ text
  encrypt_ne := by
    intro text h
    have hlist := congrArg String.toList h
    rw [String.toList_append] at hlist
    cases hlist
  pepper := "pepper"
  decrypt := fun token => some (String.ofList (token.toList.drop 4))
  decrypt_encrypt := by
    intro text
    rw [String.toList_append]
    exact congrArg some (String.ofList_toList ..)

def demoSite : Site := ⟨2, none⟩

def formBody (phone : String) : PublicLeadIn where
  siteId := 3
  leadToken := "token"
  phone := phone
  email := none
  name := some "Анна"
  message := none
  pageSlug := none
  website := none
  formTs := 0
  idempotencyKey := "0123456789abcdef"
  utm := "{}"
  consent := true

/-- The database of one lead, with the number as the form has sent it. -/
def leadOf (phone : String) : Db := firstLead demoEnv demoSite (formBody phone) "203.0.113.7"

theorem leadOf_get (phone : String) :
    (leadOf phone).leads.get 1 = some (storedLead demoEnv demoSite (formBody phone) "203.0.113.7") :=
  Table.get_set_self ..

theorem leadOf_form (phone : String) :
    FormRow demoEnv (storedLead demoEnv demoSite (formBody phone) "203.0.113.7") demoSite
      (formBody phone) := ⟨"203.0.113.7", _, rfl⟩

/-- The digests of one number do not collide. -/
theorem demo_collisionFree :
    Sha256.CollisionFree {m | m ∈ Hmac.hashed (utf8 demoEnv.pepper)
      [utf8 (blindNormal demoEnv " +74950000000"), utf8 (blindNormal demoEnv "+74950000000")]} := by
  have hnormal : ∀ phone ∈ [" +74950000000", "+74950000000"],
      utf8 (blindNormal demoEnv phone) = utf8 "+74950000000" := by
    decide +kernel
  rw [hnormal _ (by simp), hnormal _ (by simp)]
  have hfree : Sha256.CollisionFree
      {m | m ∈ Hmac.hashed (utf8 demoEnv.pepper) [utf8 "+74950000000"]} :=
    Sha256.collisionFree_of_nodup (by decide +kernel)
  refine hfree.mono (fun m hm => ?_)
  obtain ⟨n, hn, hmem⟩ := List.mem_flatMap.mp hm
  simp only [List.mem_cons, List.not_mem_nil, or_false, or_self] at hn
  exact List.mem_flatMap.mpr ⟨n, by simp [hn], hmem⟩

/-- A blank in front of the number does no harm. -/
theorem blank_spelling_covered :
    Exported demoEnv (leadOf " +74950000000") ⟨2, none, some "+74950000000"⟩ 1 ∧
      Erased (deleteSubject demoEnv (leadOf " +74950000000") ⟨2, none, some "+74950000000"⟩ 5) 1 := by
  have hsame : SameNumber "+74950000000" (formBody " +74950000000").phone := by
    decide +kernel
  have hcovered := covered_iff demoEnv (exec_submit demoEnv demoSite (formBody " +74950000000") _)
    (leadOf_get _) (leadOf_form _) hsame demo_collisionFree none 5
  have hnormal : blindNormal demoEnv (formBody " +74950000000").phone =
      blindNormal demoEnv "+74950000000" := by
    decide +kernel
  exact ⟨hcovered.1.mpr (.inl hnormal), hcovered.2.1.mpr (.inl hnormal)⟩

/-- A lead that was sent with a leading 8 is not found by its number in E.164. -/
theorem national_spelling_missed :
    SameNumber "+74950000000" "84950000000" ∧
      exec (step demoEnv) start [.submit 1 1 demoSite (formBody "84950000000") "203.0.113.7"] =
        some (leadOf "84950000000") ∧
      ¬ Exported demoEnv (leadOf "84950000000") ⟨2, none, some "+74950000000"⟩ 1 ∧
      ¬ Erased (deleteSubject demoEnv (leadOf "84950000000") ⟨2, none, some "+74950000000"⟩ 5) 1 := by
  have hexec : exec (step demoEnv) start
      [.submit 1 1 demoSite (formBody "84950000000") "203.0.113.7"] =
        some (leadOf "84950000000") := exec_submit demoEnv demoSite _ _
  have hdigests : blindIndex demoEnv "84950000000" ≠ blindIndex demoEnv "+74950000000" := by
    decide +kernel
  have hmissed : ∀ lead, (1, lead) ∉
      search demoEnv (leadOf "84950000000") ⟨2, none, some "+74950000000"⟩ := by
    intro lead hmem
    obtain ⟨hget, -, hmatches⟩ := (mem_search demoEnv).mp hmem
    cases (leadOf_get "84950000000").symm.trans hget
    obtain ⟨-, -, hblind, -⟩ := (leadOf_form "84950000000").fields
    have hemail : emailMatches demoEnv ⟨2, none, some "+74950000000"⟩
        (storedLead demoEnv demoSite (formBody "84950000000") "203.0.113.7") = false := rfl
    rw [matchesSubject, hemail, Bool.false_or, phoneIndex_some demoEnv (by decide),
      Option.any_some, decide_eq_true_eq, hblind] at hmatches
    exact hdigests (Option.some.inj hmatches)
  refine ⟨by decide +kernel, hexec, ?_, ?_⟩
  · rw [exported_iff demoEnv (exec_sound demoEnv hexec)]
    exact fun ⟨lead, hmem⟩ => hmissed lead hmem
  · rw [erased_iff demoEnv (leadOf_get _) (leadOf_form _)]
    exact hmissed _

end MegaPanel.Dsar
