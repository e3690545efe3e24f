import MegaPanel.AiProviders.Connections
import MegaPanel.Lib.Run
import MegaPanel.Ssrf.Pinned

set_option autoImplicit false

/-! # Prices and registered models

Every stored price should belong to a registered model, and every request should be answered or
refused. The routes check one direction only: prices that are given must belong to the models, but
a new list of models may leave stored prices behind. A request fails without an answer where the
body holds a `null` that the route takes for a collection or stores in a column that has none, a
blank key, or a text the table cannot hold. `Clean` lists these cases; the theorem says that they
are the only ones, over runs of any length.
-/

namespace MegaPanel.AiProviders

open MegaPanel.Lib MegaPanel.Lib.Url MegaPanel.Egress

variable {κ : Type}

/-! ## The property -/

/-- Every price belongs to a registered model. -/
def Connection.Priced (c : Connection κ) : Prop := ∀ entry ∈ c.modelPricing, entry.1 ∈ c.modelIds

/-- Every stored connection is priced. -/
def AllPriced (db : Db κ) : Prop := ∀ id row, db.get id = some row → row.1.Priced

/-- The request commits, or it is refused with a client error and changes nothing. -/
def Answered (env : Env κ) (db : Db κ) (request : Request) (after : Db κ) : Prop :=
  handle env db request = .ok after ∨
    ∃ e, handle env db request = .error e ∧ e.IsClientError ∧ after = db

/-! ## The condition -/

/-- The key has a character besides whitespace, and its last characters can be stored. -/
def UsableKey (apiKey : List Char) : Prop :=
  stripKey apiKey ≠ [] ∧ storable (last4 (stripKey apiKey)) = true

/-- The provider is a native one, or its endpoint passes the guard. -/
def Admitted (env : Env κ) (body : ProviderConnectionCreate) : Prop :=
  match body.kind with
  | .openaiCompatible =>
    ∃ url, body.baseUrl = some url ∧ env.guard.assertAllowed env.library url.text = .ok ()
  | .native => body.providerId.1 ∈ nativeIds

/-- `urlsplit` reads the endpoint that the guard is asked about. -/
def ReadableUrl (env : Env κ) (body : ProviderConnectionCreate) : Prop :=
  body.kind = .openaiCompatible → ∀ url, body.baseUrl = some url →
    (urlsplit env.library.netlocValid url.text).isSome

/-- The texts of the body can be stored. -/
structure StorableCreate (body : ProviderConnectionCreate) : Prop where
  providerId : storable body.providerId.1 = true
  label : storable body.label.1 = true
  baseUrl : ∀ url, body.baseUrl = some url → url.text.length ≤ 2048
  models : ∀ id ∈ body.models.1, storable id = true
  sources : ∀ entry ∈ body.modelPricing, storable entry.2.source.1 = true

/-- What a new connection has to meet. -/
def CleanCreate (env : Env κ) (body : ProviderConnectionCreate) : Prop :=
  covers body.models.1 body.modelPricing = true →
    ReadableUrl env body ∧
      (Admitted env body → UsableKey body.apiKey.1 ∧ StorableCreate body)

/-- The model ids after the update. -/
def modelsAfter (models : Field ModelIds) (stored : List (List Char)) : List (List Char) :=
  match models with
  | .value ids => ids.1
  | _ => stored

/-- The prices given belong to the models after the update. -/
def Matches (pricing : Field ModelPricing) (ids : List (List Char)) : Prop :=
  ∀ entries, pricing = .value entries → covers ids entries = true

/-- The fields of the body that are set can be stored. -/
structure StorableUpdate (body : ProviderConnectionUpdate) : Prop where
  label : body.label ≠ .null ∧ ∀ label, body.label = .value label → storable label.1 = true
  models : ∀ ids, body.models = .value ids → ∀ id ∈ ids.1, storable id = true
  sources : ∀ entries, body.modelPricing = .value entries →
    ∀ entry ∈ entries, storable entry.2.source.1 = true

/-- What an update of the row `c` has to meet. -/
def CleanUpdate (c : Connection κ) (body : ProviderConnectionUpdate) : Prop :=
  body.models ≠ .null ∧ body.modelPricing ≠ .null ∧
    (Matches body.modelPricing (modelsAfter body.models c.modelIds) →
      (∀ key, body.apiKey = .value key → UsableKey key.1) ∧ StorableUpdate body ∧
        (body.modelPricing = .unset → covers (modelsAfter body.models c.modelIds) c.modelPricing))

/-- The condition on a request. -/
def Clean (env : Env κ) (db : Db κ) : Request → Prop
  | .create _ body => CleanCreate env body
  | .update id body => ∀ row, db.get id = some row → CleanUpdate row.1 body
  | .activate _ => True
  | .disable _ => True
  | .delete _ => True

/-! ## One lemma for each part of a route -/

theorem settles_save {db : Db κ} {id : ConnectionId} {c : Connection κ} (hdb : AllPriced db) :
    Settles Failure.IsClientError AllPriced (save db id c) ↔ c.fits = true ∧ c.Priced := by
  unfold save
  by_cases hfits : c.fits = true
  · rw [dif_pos hfits, settles_ok]
    constructor
    · intro h
      exact ⟨hfits, h id _ (db.get_set_self id _)⟩
    · exact fun hpriced => Table.forall_set hdb hpriced.2
  · rw [dif_neg hfits, settles_error]
    exact ⟨fun h => h.elim, fun h => absurd h.1 hfits⟩

theorem settles_encryptProviderKey {env : Env κ} {apiKey : List Char} {P : κ × List Char → Prop} :
    Settles Failure.IsClientError P (encryptProviderKey env apiKey) ↔
      stripKey apiKey ≠ [] ∧ P (env.encrypt (stripKey apiKey), last4 (stripKey apiKey)) := by
  unfold encryptProviderKey
  by_cases hblank : stripKey apiKey = []
  · simp [hblank, Failure.IsClientError]
  · simp [hblank]

theorem covers_iff {ids : List (List Char)} {pricing : ModelPricing} :
    covers ids pricing = true ↔ ∀ entry ∈ pricing, entry.1 ∈ ids := by
  simp [covers]

theorem fits_iff {c : Connection κ} :
    c.fits = true ↔ varchar 64 c.providerId = true ∧ c.label.any (varchar 128) = true ∧
      c.baseUrl.all (varchar 2048) = true ∧ c.credentialLast4.all (varchar 4) = true ∧
      (∀ id ∈ c.modelIds, storable id = true) ∧
      ∀ entry ∈ c.modelPricing, storable entry.1 = true ∧ storable entry.2.source.1 = true := by
  simp [Connection.fits, and_assoc]

theorem varchar_iff {size : Nat} {text : List Char} :
    varchar size text = true ↔ text.length ≤ size ∧ storable text = true := by
  simp [varchar]

theorem last4_length (value : List Char) : (last4 value).length ≤ 4 := by
  rw [last4, List.length_drop]
  omega

/-! ## A new connection -/

theorem assertAllowed_valueError_iff {guard : EgressGuard} {lib : Ssrf.Library} {url : List Char} :
    guard.assertAllowed lib url = .error .valueError ↔ urlsplit lib.netlocValid url = none := by
  cases hsplit : urlsplit lib.netlocValid url with
  | none => simp [EgressGuard.assertAllowed, assertSafeEndpoint, hsplit]
  | some parsed =>
    simp only [reduceCtorEq, iff_false]
    intro h
    unfold EgressGuard.assertAllowed at h
    cases hsafe : assertSafeEndpoint lib url with
    | error refusal =>
      rw [hsafe] at h
      cases h
      unfold assertSafeEndpoint at hsafe
      rw [hsplit] at hsafe
      dsimp only at hsafe
      split at hsafe
      · cases hsafe
      split at hsafe
      · cases hsafe
      · split at hsafe <;> cases hsafe
    | ok host =>
      rw [hsafe] at h
      simp only [EgressGuard.check, hsplit, Option.map_some] at h
      split at h
      · next hnone => cases hnone
      · cases h
      · cases h

theorem settles_checkProvider {env : Env κ} {body : ProviderConnectionCreate} {P : Unit → Prop} :
    Settles Failure.IsClientError P (checkProvider env body) ↔
      ReadableUrl env body ∧ (Admitted env body → P ()) := by
  unfold checkProvider ReadableUrl Admitted
  cases hkind : body.kind with
  | native =>
    by_cases hid : body.providerId.1 ∈ nativeIds
    · simp [hid]
    · simp [hid, Failure.IsClientError, nativeUnavailable]
  | openaiCompatible =>
    cases hurl : body.baseUrl with
    | none => simp [Failure.IsClientError, baseUrlRequired]
    | some url =>
      have hvalue := @assertAllowed_valueError_iff env.guard env.library url.text
      cases hguard : env.guard.assertAllowed env.library url.text with
      | ok u =>
        rw [hguard] at hvalue
        have hsplit : urlsplit env.library.netlocValid url.text ≠ none :=
          fun hn => nomatch hvalue.mpr hn
        simp [hguard, Option.isSome_iff_ne_none, hsplit]
      | error refusal =>
        rw [hguard] at hvalue
        cases refusal with
        | permission message =>
          have hsplit : urlsplit env.library.netlocValid url.text ≠ none :=
            fun hn => nomatch hvalue.mpr hn
          simp [hguard, Option.isSome_iff_ne_none, hsplit, Failure.IsClientError]
        | valueError =>
          have hsplit := hvalue.mp rfl
          simp [hguard, hsplit, Failure.IsClientError]

theorem settles_create {env : Env κ} {db : Db κ} {id : ConnectionId}
    {body : ProviderConnectionCreate} (hdb : AllPriced db) :
    Settles Failure.IsClientError AllPriced (createProviderConnection env db id body) ↔
      CleanCreate env body := by
  unfold createProviderConnection CleanCreate
  cases hcovers : covers body.models.1 body.modelPricing with
  | false => simp [Failure.IsClientError, pricingMismatch]
  | true =>
    have hids := covers_iff.mp hcovers
    simp only [Bool.not_true, Bool.false_eq_true, if_false, true_implies]
    rw [settles_bind, settles_checkProvider]
    refine and_congr_right (fun _ => imp_congr_right (fun _ => ?_))
    rw [settles_bind, settles_encryptProviderKey, settles_save hdb, fits_iff]
    simp only [Option.any_some, Option.all_some, varchar_iff, last4_length, true_and]
    constructor
    · rintro ⟨hblank, ⟨hid, hlabel, hurl, hlast, hmodels, hprices⟩, -⟩
      refine ⟨⟨hblank, hlast⟩, ⟨hid.2, hlabel.2, ?_, hmodels, fun e he => (hprices e he).2⟩⟩
      intro url hbase
      rw [hbase] at hurl
      exact (varchar_iff.mp hurl).1
    · rintro ⟨⟨hblank, hlast⟩, hstore⟩
      refine ⟨hblank, ⟨⟨body.providerId.2.2, hstore.providerId⟩,
        ⟨body.label.2.2, hstore.label⟩, ?_, hlast, hstore.models, ?_⟩, hids⟩
      · cases hbase : body.baseUrl with
        | none => rfl
        | some url =>
          exact varchar_iff.mpr ⟨hstore.baseUrl url hbase, decide_eq_true url.noNul⟩
      · intro e he
        exact ⟨hstore.models _ (hids e he), hstore.sources e he⟩

/-! ## A changed connection -/

theorem settles_readModelIds {models : Field ModelIds} {stored : List (List Char)}
    {P : List (List Char) → Prop} :
    Settles Failure.IsClientError P (readModelIds models stored) ↔
      models ≠ .null ∧ P (modelsAfter models stored) := by
  cases models with
  | unset => simp [readModelIds, modelsAfter]
  | null => simp [readModelIds, Failure.IsClientError]
  | value ids => simp [readModelIds, modelsAfter]

theorem settles_checkPricing {pricing : Field ModelPricing} {ids : List (List Char)}
    {P : Unit → Prop} :
    Settles Failure.IsClientError P (checkPricing pricing ids) ↔
      pricing ≠ .null ∧ (Matches pricing ids → P ()) := by
  cases pricing with
  | unset => simp [checkPricing, Matches]
  | null => simp [checkPricing, Failure.IsClientError]
  | value entries =>
    by_cases hcovers : covers ids entries = true
    · simp [checkPricing, Matches, hcovers]
    · simp [checkPricing, Matches, hcovers, Failure.IsClientError, pricingMismatch]

/-- The row with the key of the body. -/
def withKey (env : Env κ) (apiKey : Field (Bounded 1 4096)) (c : Connection κ) : Connection κ :=
  match apiKey with
  | .value key =>
    { c with
      encryptedApiKey := env.encrypt (stripKey key.1)
      credentialLast4 := some (last4 (stripKey key.1)) }
  | _ => c

theorem settles_replaceKey {env : Env κ} {apiKey : Field (Bounded 1 4096)} {c : Connection κ}
    {P : Connection κ → Prop} :
    Settles Failure.IsClientError P (replaceKey env apiKey c) ↔
      (∀ key, apiKey = .value key → stripKey key.1 ≠ []) ∧ P (withKey env apiKey c) := by
  cases apiKey with
  | unset | null => simp [replaceKey, withKey]
  | value key =>
    simp only [replaceKey, withKey, settles_bind, settles_encryptProviderKey, settles_ok,
      Field.value.injEq, forall_eq']

theorem assign_withKey (env : Env κ) (body : ProviderConnectionUpdate)
    (apiKey : Field (Bounded 1 4096)) (c : Connection κ) :
    assign body (withKey env apiKey c) =
      { assign body c with
        encryptedApiKey := (withKey env apiKey c).encryptedApiKey
        credentialLast4 := (withKey env apiKey c).credentialLast4 } := by
  cases apiKey with
  | unset | null | value key => rfl

/-- Of a row that fits, the body replaces columns by texts that have to be stored again. -/
theorem fits_assign {env : Env κ} {c : Connection κ} (hfits : c.fits = true)
    (body : ProviderConnectionUpdate) (hpriced : (assign body c).Priced) :
    (assign body (withKey env body.apiKey c)).fits = true ↔
      (∀ key, body.apiKey = .value key → storable (last4 (stripKey key.1)) = true) ∧
        StorableUpdate body := by
  obtain ⟨hid, hlabel, hurl, hlast, hmodels, hprices⟩ := fits_iff.mp hfits
  have hlastIff : (withKey env body.apiKey c).credentialLast4.all (varchar 4) = true ↔
      ∀ key, body.apiKey = .value key → storable (last4 (stripKey key.1)) = true := by
    cases hkey : body.apiKey with
    | unset | null => simpa [withKey] using hlast
    | value key => simp [withKey, varchar_iff, last4_length]
  have hlabelIff : (assign body c).label.any (varchar 128) = true ↔
      body.label ≠ .null ∧ ∀ label, body.label = .value label → storable label.1 = true := by
    cases hbody : body.label with
    | unset => simpa [assign, hbody] using hlabel
    | null => simp [assign, hbody]
    | value label => simp [assign, hbody, varchar_iff, label.2.2]
  have hmodelsIff : (∀ id ∈ (assign body c).modelIds, storable id = true) ↔
      ∀ ids, body.models = .value ids → ∀ id ∈ ids.1, storable id = true := by
    cases hbody : body.models with
    | unset | null => simpa [assign, hbody] using hmodels
    | value ids => simp [assign, hbody]
  have hsourcesIff : (∀ entry ∈ (assign body c).modelPricing,
      storable entry.2.source.1 = true) ↔
      ∀ entries, body.modelPricing = .value entries →
        ∀ entry ∈ entries, storable entry.2.source.1 = true := by
    cases hbody : body.modelPricing with
    | unset | null => simpa [assign, hbody] using fun id pricing he => (hprices (id, pricing) he).2
    | value entries => simp [assign, hbody]
  rw [assign_withKey, fits_iff]
  constructor
  · rintro ⟨-, hlabel', -, hlast', hmodels', hprices'⟩
    exact ⟨hlastIff.mp hlast', ⟨hlabelIff.mp hlabel', hmodelsIff.mp hmodels',
      hsourcesIff.mp (fun entry he => (hprices' entry he).2)⟩⟩
  · rintro ⟨hkey, hstore⟩
    have hids := hmodelsIff.mpr hstore.models
    exact ⟨hid, hlabelIff.mpr hstore.label, hurl, hlastIff.mpr hkey, hids, fun entry he =>
      ⟨hids _ (hpriced entry he), hsourcesIff.mpr hstore.sources entry he⟩⟩

/-- The prices of the row after the update belong to its models. -/
theorem priced_assign {c : Connection κ} {body : ProviderConnectionUpdate}
    (hnull : body.modelPricing ≠ .null)
    (hmatches : Matches body.modelPricing (modelsAfter body.models c.modelIds)) :
    (assign body c).Priced ↔
      (body.modelPricing = .unset →
        covers (modelsAfter body.models c.modelIds) c.modelPricing = true) := by
  have hids : (assign body c).modelIds = modelsAfter body.models c.modelIds := rfl
  rw [Connection.Priced, hids]
  cases hbody : body.modelPricing with
  | unset => simp [assign, hbody, covers_iff]
  | null => exact absurd hbody hnull
  | value entries =>
    have hgiven := covers_iff.mp (hmatches entries hbody)
    simpa [assign, hbody] using fun id pricing he => hgiven (id, pricing) he

theorem settles_update {env : Env κ} {db : Db κ} {id : ConnectionId}
    {body : ProviderConnectionUpdate} (hdb : AllPriced db) :
    Settles Failure.IsClientError AllPriced (updateProviderConnection env db id body) ↔
      ∀ row, db.get id = some row → CleanUpdate row.1 body := by
  unfold updateProviderConnection
  cases hrow : db.get id with
  | none => simp [Failure.IsClientError, notFound]
  | some row =>
    have hpriced := hdb id row hrow
    simp only [Option.some.injEq, forall_eq']
    rw [settles_bind, settles_readModelIds]
    refine and_congr_right (fun _ => ?_)
    rw [settles_bind, settles_checkPricing]
    refine and_congr_right (fun hnull => imp_congr_right (fun hmatches => ?_))
    rw [settles_bind, settles_replaceKey]
    have hkeyed : (assign body (withKey env body.apiKey row.1)).Priced ↔
        (assign body row.1).Priced := by
      rw [assign_withKey]
      exact Iff.rfl
    have hsave : Settles Failure.IsClientError AllPriced
          (if body = .empty then .ok db
            else save db id (assign body (withKey env body.apiKey row.1))) ↔
        (assign body (withKey env body.apiKey row.1)).fits = true ∧
          (assign body row.1).Priced := by
      by_cases hempty : body = .empty
      · -- nothing is written, and the row as it is fits
        subst hempty
        exact ⟨fun _ => ⟨row.2, hpriced⟩, fun _ => hdb⟩
      · rw [if_neg hempty, settles_save hdb, hkeyed]
    rw [hsave, ← priced_assign hnull hmatches]
    constructor
    · rintro ⟨hblank, hfits, hafter⟩
      obtain ⟨hlast, hstore⟩ := (fits_assign row.2 body hafter).mp hfits
      exact ⟨fun key hkey => ⟨hblank key hkey, hlast key hkey⟩, hstore, hafter⟩
    · rintro ⟨hkey, hstore, hafter⟩
      exact ⟨fun key hk => (hkey key hk).1,
        (fits_assign row.2 body hafter).mpr ⟨fun key hk => (hkey key hk).2, hstore⟩, hafter⟩

/-! ## Runs of requests -/

theorem settles_setEnabled {db : Db κ} {id : ConnectionId} {enabled : Bool}
    (hdb : AllPriced db) :
    Settles Failure.IsClientError AllPriced (setEnabled db id enabled) := by
  unfold setEnabled
  split
  · simp [Failure.IsClientError, notFound]
  · next row hrow =>
    exact Table.forall_set hdb (hdb id row hrow)

theorem settles_delete {db : Db κ} {id : ConnectionId} (hdb : AllPriced db) :
    Settles Failure.IsClientError AllPriced (deleteProviderConnection db id) := by
  unfold deleteProviderConnection
  split
  · simp [Failure.IsClientError, notFound]
  intro j other hother
  rw [Table.get_erase] at hother
  split_ifs at hother
  exact hdb j other hother

theorem settles_handle {env : Env κ} {db : Db κ} {request : Request} (hdb : AllPriced db) :
    Settles Failure.IsClientError AllPriced (handle env db request) ↔ Clean env db request := by
  cases request with
  | create id body => exact settles_create hdb
  | update id body => exact settles_update hdb
  | activate id | disable id => exact iff_true_intro (settles_setEnabled hdb)
  | delete id => exact iff_true_intro (settles_delete hdb)

/-- What a step leaves is what the handler returned, or what was there when it failed. -/
theorem step_cases {env : Env κ} {db after : Db κ} {request : Request}
    (h : step env db request = some after) :
    handle env db request = .ok after ∨
      ∃ e, handle env db request = .error e ∧ after = db := by
  unfold step at h
  split at h
  · next hok =>
    split_ifs at h
    exact .inl (Option.some.inj h ▸ hok)
  · next hok => exact .inl (Option.some.inj h ▸ hok)
  · next e herr => exact .inr ⟨e, herr, (Option.some.inj h).symm⟩

theorem answered_iff {env : Env κ} {db after : Db κ} {request : Request} (hdb : AllPriced db)
    (h : step env db request = some after) :
    Answered env db request after ∧ AllPriced after ↔ Clean env db request := by
  rw [← settles_handle hdb]
  rcases step_cases h with hok | ⟨e, herr, rfl⟩
  · rw [hok, settles_ok]
    exact ⟨fun hboth => hboth.2, fun hafter => ⟨.inl hok, hafter⟩⟩
  rw [herr, settles_error]
  constructor
  · rintro ⟨hok | ⟨e', herr', hclient, -⟩, -⟩
    · rw [herr] at hok
      cases hok
    · cases herr.symm.trans herr'
      exact hclient
  · intro hclient
    exact ⟨.inr ⟨e, herr, hclient, rfl⟩, hdb⟩

/-- **When prices match the registered models.** Along a run of requests from a table without
stray prices, every request commits or is refused with a client error that changes nothing, and
no price is left without its model, exactly when every request is `Clean`. -/
theorem pricing_matches_iff (env : Env κ) (db : Db κ) (hdb : AllPriced db)
    (requests : List Request) :
    Along (step env) (fun s a t => Answered env s a t ∧ AllPriced t) db requests ↔
      Along (step env) (fun s a _ => Clean env s a) db requests :=
  along_conditional_iff (I := AllPriced) (J := fun _ => True) (fun _ _ _ _ _ => trivial)
    (fun _ _ _ h => h.2) (fun _ _ _ _ hs ht => answered_iff hs ht) trivial hdb

theorem allPriced_empty : AllPriced (Table.empty : Db κ) := by
  intro id row hrow
  cases hrow

def plainEnv : Env (List Char) := ⟨id, ⟨defaultAllowlist⟩, Ssrf.asciiLibrary⟩

def listedPricing : ModelPricing :=
  [("gpt".toList, ⟨1, 2, none, ⟨"list".toList, by decide⟩, 0⟩)]

def pricedConnection : ProviderConnectionCreate where
  providerId := ⟨"openai".toList, by decide⟩
  label := ⟨"main".toList, by decide⟩
  kind := .native
  baseUrl := none
  apiKey := ⟨"secret".toList, by decide⟩
  models := ⟨["gpt".toList], by decide⟩
  modelPricing := listedPricing

/-- A new list of models and nothing else. -/
def otherModels : ProviderConnectionUpdate := ⟨.unset, .unset, .value ⟨["glm".toList], by decide⟩, .unset⟩

theorem pricing_matches_iff_empty :
    AllPriced (Table.empty : Db (List Char)) ∧
      (Along (step plainEnv) (fun s a t => Answered plainEnv s a t ∧ AllPriced t) Table.empty
          [.create 0 pricedConnection] ↔
        Along (step plainEnv) (fun s a _ => Clean plainEnv s a) Table.empty
          [.create 0 pricedConnection]) :=
  ⟨allPriced_empty, pricing_matches_iff plainEnv Table.empty allPriced_empty
    [.create 0 pricedConnection]⟩

/-- The price of a model that is no longer registered stays. -/
theorem stray_price :
    ¬ Along (step plainEnv) (fun s a t => Answered plainEnv s a t ∧ AllPriced t) Table.empty
        [.create 0 pricedConnection, .update 0 otherModels] := by
  intro h
  obtain ⟨-, hrest⟩ := h _ rfl
  obtain ⟨⟨-, hpriced⟩, -⟩ := hrest _ rfl
  have hmem := hpriced 0 _ rfl _ (List.mem_cons_self ..)
  exact absurd hmem (by decide)

end MegaPanel.AiProviders
