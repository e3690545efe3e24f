import MegaPanel.Basic
import MegaPanel.Lib.Dict
import MegaPanel.Lib.Sha256
import MegaPanel.Lib.Table
import MegaPanel.Lib.Uuid
import MegaPanel.Redaction.Policy

set_option autoImplicit false

/-! # Identifiers under redaction

A UUID is digits, the letters a to f and hyphens, and a phone number is digits and hyphens too. So
`redact_pii` takes a part of an identifier for a phone number exactly when the identifier has a run of
at least ten digits and hyphens from a digit to a digit (`redactPii_eq_iff`). The identifier of a city
is read back from the stored snapshot when a proposal is applied (`api/v1/geo.py`), and then the city
is found or not for the same reason (`redaction_keeps_identifiers`).
-/

namespace MegaPanel.Redaction

open MegaPanel.Lib MegaPanel.Lib.Text

variable {R : CharClasses}

/-! ## Identifiers -/

variable {s : String} {c d : Char}

/-- A canonical UUID or a SHA-256 digest. -/
def IsIdentifier (s : String) : Prop := (∃ u : Uuid, s = u.str) ∨ Sha256.isSha256 s = true

/-- The characters of identifiers. -/
def idChar (c : Char) : Bool := c == '-' || Sha256.isHexChar c

theorem IsIdentifier.chars (h : IsIdentifier s) : ∀ c ∈ s.toList, idChar c = true := by
  rcases h with ⟨u, rfl⟩ | h
  · intro c hc
    rcases mem_str hc with rfl | hc
    · rfl
    · exact forall_mem_hex (p := fun c => idChar c = true) (by decide) u c hc
  · intro c hc
    rw [Sha256.isSha256, Bool.and_eq_true, List.all_eq_true] at h
    rw [idChar, h.2 c hc, Bool.or_true]

theorem IsIdentifier.length (h : IsIdentifier s) : 32 ≤ s.toList.length := by
  rcases h with ⟨u, rfl⟩ | h
  · calc 32 = u.hex.length := (hex_length u).symm
      _ = (u.str.toList.filter (· ≠ '-')).length := by rw [filter_str]
      _ ≤ u.str.toList.length := List.length_filter_le _ _
  · rw [Sha256.isSha256, Bool.and_eq_true, beq_iff_eq] at h
    omega

theorem idChar_toNat (h : idChar c = true) :
    c.toNat = 45 ∨ (48 ≤ c.toNat ∧ c.toNat ≤ 57) ∨ (97 ≤ c.toNat ∧ c.toNat ≤ 102) := by
  simp only [idChar, Sha256.isHexChar, Bool.or_eq_true, beq_iff_eq, Bool.and_eq_true,
    decide_eq_true_eq] at h
  rcases h with rfl | ⟨h, h'⟩ | ⟨h, h'⟩
  · exact .inl rfl
  · exact .inr (.inl ⟨h, h'⟩)
  · exact .inr (.inr ⟨h, h'⟩)

/-- A character that is not among them. -/
theorem idChar_ne (h : idChar c = true) (hd : idChar d = false) : c ≠ d := by
  rintro rfl
  rw [h] at hd
  cases hd

/-- Of the characters of a phone number, an identifier has the digits and hyphens. -/
theorem phoneChar_of_idChar (h : idChar c = true) :
    R.phoneChar c = true ↔ c.isDigit = true ∨ c = '-' := by
  have hnat := idChar_toNat h
  have hspace : isSpace c = false := by
    simp only [isSpace, Bool.or_eq_false_iff, Bool.and_eq_false_iff, decide_eq_false_iff_not,
      beq_eq_false_iff_ne]
    omega
  have hopen : (c == '(') = false := beq_false_of_ne (idChar_ne h (by decide))
  have hclose : (c == ')') = false := beq_false_of_ne (idChar_ne h (by decide))
  rw [CharClasses.phoneChar, R.decimal_ascii c (by omega), hspace, hopen, hclose]
  simp

/-! ## Phone numbers in identifiers -/

variable {text : List Char}

/-- A run of at least ten digits and hyphens, from a digit to a digit. -/
structure IsPhoneRun (run : List Char) : Prop where
  length : 10 ≤ run.length
  chars : ∀ c ∈ run, c.isDigit = true ∨ c = '-'
  first : ∀ c, run.head? = some c → c.isDigit = true
  last : ∀ c, run.getLast? = some c → c.isDigit = true

def HasPhoneRun (s : String) : Prop := ∃ run, run <:+: s.toList ∧ IsPhoneRun run

/-- A beginning that ends with a digit is not longer than the longest one. -/
theorem length_le_upToDigit {front run : List Char} (hfront : front ++ [d] <+: run)
    (hd : R.decimal d = true) : front.length + 1 ≤ R.upToDigit run := by
  obtain ⟨tail, rfl⟩ := hfront
  unfold CharClasses.upToDigit
  induction tail using List.reverseRecOn with
  | nil =>
    rw [List.append_nil, List.rdropWhile_concat_neg _ _ _ (by simp [hd])]
    simp
  | append_singleton tail x ih =>
    rw [← List.append_assoc, List.rdropWhile_concat]
    split
    · exact ih
    · simp

theorem digitsLength_ne_zero (htext : ∀ c ∈ text, idChar c = true) :
    R.digitsLength text ≠ 0 ↔ ∃ run, run <+: text ∧ IsPhoneRun run := by
  have hdecimal : ∀ c ∈ text, R.decimal c = c.isDigit := by
    intro c hc
    have hnat := idChar_toNat (htext c hc)
    exact R.decimal_ascii c (by omega)
  cases text with
  | nil =>
    refine ⟨fun h => absurd rfl h, fun ⟨run, hfront, hrun⟩ => ?_⟩
    have hlength := hrun.length
    rw [List.prefix_nil.mp hfront] at hlength
    cases hlength
  | cons d rest =>
    have hrest : ∀ c ∈ rest, idChar c = true := fun c hc => htext c (List.mem_cons_of_mem d hc)
    rw [CharClasses.digitsLength]
    constructor
    · intro h
      split at h
      · next hmatch =>
        simp only [Bool.and_eq_true, decide_eq_true_eq] at hmatch
        obtain ⟨hd, hlength⟩ := hmatch
        rw [hdecimal d (List.mem_cons_self ..)] at hd
        obtain ⟨tail, htail⟩ : ∃ tail, tail = (rest.takeWhile R.phoneChar).rdropWhile
            (fun c => !R.decimal c) := ⟨_, rfl⟩
        have hlength : 9 ≤ tail.length := by rw [htail]; exact hlength
        have hfront : tail <+: rest.takeWhile R.phoneChar := by
          rw [htail]
          exact List.rdropWhile_prefix _ _
        have hmem : ∀ c ∈ tail, c ∈ rest := fun c hc =>
          (List.takeWhile_prefix _).subset (hfront.subset hc)
        refine ⟨d :: tail, ?_, ?_, ?_, ?_, ?_⟩
        · exact List.cons_prefix_cons.mpr ⟨rfl, hfront.trans (List.takeWhile_prefix _)⟩
        · rw [List.length_cons]
          omega
        · intro c hc
          rcases List.mem_cons.mp hc with rfl | hc
          · exact .inl hd
          · exact (phoneChar_of_idChar (hrest c (hmem c hc))).mp
              (List.mem_takeWhile_imp (hfront.subset hc))
        · intro c hc
          cases hc
          exact hd
        · intro c hc
          have hne : tail ≠ [] := by
            rintro hnil
            rw [hnil] at hlength
            cases hlength
          rw [List.getLast?_cons_of_ne_nil hne, List.getLast?_eq_some_getLast hne] at hc
          have hlast := List.rdropWhile_last_not (fun c => !R.decimal c)
            (rest.takeWhile R.phoneChar) (htail ▸ hne)
          have hc' := Option.some.inj hc
          subst htail
          rw [hc'] at hlast
          have hdigit : R.decimal c = true := by simpa using hlast
          rw [← hdecimal c (List.mem_cons_of_mem d (hmem c (hc' ▸ List.getLast_mem hne)))]
          exact hdigit
      · exact absurd rfl h
    · rintro ⟨run, hfront, hlength, hchars, hfirst, hlast⟩
      cases run with
      | nil => cases hlength
      | cons d' tail =>
        obtain ⟨rfl, htail⟩ := List.cons_prefix_cons.mp hfront
        have hd := hfirst d' rfl
        obtain ⟨front, e, rfl⟩ : ∃ front e, tail = front ++ [e] := by
          rcases List.eq_nil_or_concat tail with rfl | ⟨front, e, h⟩
          · simp at hlength
          · exact ⟨front, e, by rw [h, List.concat_eq_append]⟩
        have he : e.isDigit = true := hlast e (by
          rw [← List.cons_append, List.getLast?_append]
          rfl)
        have hin : ∀ c ∈ front ++ [e], c ∈ rest := fun c hc => htail.subset hc
        have htake : front ++ [e] <+: rest.takeWhile R.phoneChar := by
          obtain ⟨others, hothers⟩ := htail
          rw [← hothers, List.takeWhile_append_of_pos (fun c hc =>
            (phoneChar_of_idChar (hrest c (hin c hc))).mpr
              (hchars c (List.mem_cons_of_mem _ hc)))]
          exact List.prefix_append _ _
        have he' : R.decimal e = true := by
          rw [hdecimal e (List.mem_cons_of_mem _ (hin e (by simp)))]
          exact he
        have hle := length_le_upToDigit htake he'
        rw [List.length_cons, List.length_append, List.length_singleton] at hlength
        rw [hdecimal d' (List.mem_cons_self ..), hd, Bool.true_and, if_pos]
        · omega
        · exact decide_eq_true (by omega)

theorem phoneLength_ne_zero (htext : ∀ c ∈ text, idChar c = true) :
    R.phoneLength text ≠ 0 ↔ ∃ run, run <+: text ∧ IsPhoneRun run := by
  rw [← digitsLength_ne_zero (R := R) htext]
  unfold CharClasses.phoneLength
  split
  · next rest => exact absurd (htext '+' (List.mem_cons_self ..)) (by decide)
  · exact Iff.rfl

theorem emailLength_eq_zero (h : '@' ∉ text) : R.emailLength text = 0 := by
  unfold CharClasses.emailLength
  split
  · next rest hdrop =>
    refine absurd ((List.dropWhile_suffix R.localChar).subset ?_) h
    rw [hdrop]
    exact List.mem_cons_self ..
  · rfl

theorem redactEmails_eq_self (h : '@' ∉ text) : redactEmails R text = text :=
  substitute_eq_self (fun _ hrest => emailLength_eq_zero (fun hat => h (hrest.subset hat)))

/-- **When redaction leaves an identifier as it is**; else there is a bracket in the result. -/
theorem redactPii_identifier (h : IsIdentifier s) :
    (¬ HasPhoneRun s → redactPii R s = s) ∧ (HasPhoneRun s → '[' ∈ (redactPii R s).toList) := by
  have hchars := h.chars
  have hat : '@' ∉ redactPhones R s.toList := by
    intro hmem
    rcases mem_substituteFrom hmem with hmem | hmem
    · exact absurd (hchars _ hmem) (by decide)
    · exact absurd hmem (by decide)
  have hresult : redactPii R s = String.ofList (redactPhones R s.toList) := by
    rw [redactPii, redactEmails_eq_self hat]
  rw [hresult, String.toList_ofList]
  constructor
  · intro hnone
    have hself : redactPhones R s.toList = s.toList := by
      refine substitute_eq_self (fun rest hrest => ?_)
      by_contra hne
      obtain ⟨run, hfront, hrun⟩ :=
        (phoneLength_ne_zero (fun c hc => hchars c (hrest.subset hc))).mp hne
      exact hnone ⟨run, hfront.isInfix.trans hrest.isInfix, hrun⟩
    rw [hself, String.ofList_toList]
  · rintro ⟨run, hinfix, hrun⟩
    obtain ⟨rest, hfront, hsuffix⟩ := List.infix_iff_prefix_suffix.mp hinfix
    have hlen := (phoneLength_ne_zero (R := R) (fun c hc => hchars c (hsuffix.subset hc))).mpr
      ⟨run, hfront, hrun⟩
    refine subset_substitute hsuffix ?_ hlen '[' (by decide)
    rintro rfl
    exact hlen rfl

/-- **A redacted identifier is itself exactly when no run of it looks like a phone number.** -/
theorem redactPii_eq_iff (h : IsIdentifier s) : redactPii R s = s ↔ ¬ HasPhoneRun s := by
  refine ⟨fun heq hrun => ?_, (redactPii_identifier h).1⟩
  have hmem := (redactPii_identifier (R := R) h).2 hrun
  rw [heq] at hmem
  exact absurd (h.chars _ hmem) (by decide)

/-! ## Identifiers are no credentials -/

variable {l : Char} {before : Option Char}

/-- No letter beyond f is in an identifier, in either case. -/
theorem caseless_idChar (hl : idChar l.toLower = false) (hc : idChar c = true) :
    R.caseless l c = false := by
  have hnat := idChar_toNat hc
  have hlower : c.toLower = c := by
    refine dif_neg ?_
    rintro ⟨hlow, hhigh⟩
    have hlow : 65 ≤ c.toNat := hlow
    have hhigh : c.toNat ≤ 90 := hhigh
    omega
  rw [R.caseless_ascii l c (by omega), hlower]
  exact beq_false_of_ne (fun heq => idChar_ne hc hl heq.symm)

/-- A word with such a letter does not match. -/
theorem literal_eq_none {ls : List Char} (hl : l ∈ ls) (hletter : idChar l.toLower = false)
    (htext : ∀ c ∈ text, idChar c = true) : R.literal ls text = none := by
  induction ls generalizing text with
  | nil => cases hl
  | cons k ks ih =>
    cases text with
    | nil => rfl
    | cons c cs =>
      rw [CharClasses.literal]
      rcases List.mem_cons.mp hl with rfl | hl
      · rw [caseless_idChar hletter (htext c (List.mem_cons_self ..)), if_neg]
        exact Bool.false_ne_true
      · split
        · exact ih hl (fun d hd => htext d (List.mem_cons_of_mem c hd))
        · rfl

theorem words_eq_none {separator : Char → Bool} {w : List Char} {ws : List (List Char)} (hl : l ∈ w)
    (hletter : idChar l.toLower = false) (htext : ∀ c ∈ text, idChar c = true) :
    R.words separator (w :: ws) text = none := by
  have hnone := literal_eq_none (R := R) hl hletter htext
  cases ws with
  | nil => exact hnone
  | cons v vs => rw [CharClasses.words, hnone, Option.bind_none]; exact List.cons_ne_nil v vs

theorem credentialAt_idChars (htext : ∀ c ∈ text, idChar c = true) :
    R.credentialAt before text = false := by
  have hlabelled : R.labelled text = false := by
    have hnone (w : String) (ws : List (List Char)) (l : Char) (hl : l ∈ w.toList)
        (hletter : idChar l.toLower = false) :
        R.words (fun c => c == '_' || c == ' ' || c == '-') (w.toList :: ws) text = none :=
      words_eq_none hl hletter htext
    simp only [CharClasses.labelled, List.any_cons, List.any_nil, List.map_cons, List.map_nil,
      hnone "api" _ 'p' (by decide) (by decide), hnone "password" _ 'p' (by decide) (by decide),
      hnone "secret" _ 's' (by decide) (by decide), hnone "token" _ 't' (by decide) (by decide),
      Option.any_none, Bool.or_false]
  have hbearer : R.bearer text = false := by
    rw [CharClasses.bearer, literal_eq_none (l := 'r') (by decide) (by decide) htext,
      Option.any_none]
  have hkey : R.secretKey text = false := by
    rw [CharClasses.secretKey, literal_eq_none (l := 's') (by decide) (by decide) htext,
      Option.any_none]
  rw [CharClasses.credentialAt, hlabelled, hbearer, hkey, Bool.or_false, Bool.or_false,
    Bool.and_false]

theorem credential_idChars (htext : ∀ c ∈ text, idChar c = true) :
    R.credential before text = false := by
  induction text generalizing before with
  | nil => rfl
  | cons c cs ih =>
    rw [CharClasses.credential, credentialAt_idChars htext,
      ih (fun d hd => htext d (List.mem_cons_of_mem c hd)), Bool.or_false]

/-! ## Identifiers inside other texts -/

/-- No match of the two patterns touches some occurrence of the identifier. -/
def Untouched (R : CharClasses) (id s : String) : Prop :=
  (∃ p ∈ pieces R.phoneLength s.toList, id.toList <:+: p) ∧
    ∃ p ∈ pieces R.emailLength (redactPhones R s.toList), id.toList <:+: p

theorem infix_redact_iff {id : String} (h : IsIdentifier id) {len : List Char → Nat}
    {middle text : List Char} (hmiddle : middle.length ≤ 5) :
    id.toList <:+: substitute len ('[' :: (middle ++ [']'])) text ↔
      ∃ p ∈ pieces len text, id.toList <:+: p := by
  refine infix_substitute_iff (fun hmem => absurd (h.chars _ hmem) (by decide))
    (fun hmem => absurd (h.chars _ hmem) (by decide)) (fun hinfix => ?_)
  have hle := hinfix.length_le
  have hlength := h.length
  omega

theorem infix_redactPii_iff {id : String} (h : IsIdentifier id) :
    id.toList <:+: (redactPii R s).toList ↔ Untouched R id s := by
  have hphone : id.toList <:+: redactPhones R s.toList ↔
      ∃ p ∈ pieces R.phoneLength s.toList, id.toList <:+: p :=
    @infix_redact_iff id h R.phoneLength "phone".toList _ (by decide)
  have hemail : id.toList <:+: redactEmails R (redactPhones R s.toList) ↔
      ∃ p ∈ pieces R.emailLength (redactPhones R s.toList), id.toList <:+: p :=
    @infix_redact_iff id h R.emailLength "email".toList _ (by decide)
  rw [redactPii, String.toList_ofList]
  constructor
  · intro hin
    obtain ⟨p, hp, hidp⟩ := hemail.mp hin
    exact ⟨hphone.mp (hidp.trans (infix_of_mem_pieces hp)), p, hp, hidp⟩
  · exact fun hun => hemail.mpr hun.2

/-! ## A value and what is shown of it -/

mutual

/-- **What is shown**: the strings of a value, each redacted. -/
theorem strings_safe : ∀ {v w : Json}, safeProviderContext R v = .ok w →
    strings w = (strings v).map (redactPii R)
  | .str s, w, h => by
    rw [safeProviderContext] at h
    split_ifs at h
    cases h
    rfl
  | .list items, w, h => by
    rw [safeProviderContext] at h
    split at h
    · next items' hitems =>
      cases h
      exact itemStrings_safe hitems
    · cases h
  | .dict entries, w, h => by
    rw [safeProviderContext] at h
    split_ifs at h
    split at h
    · next entries' hentries =>
      cases h
      exact entryStrings_safe hentries
    · cases h
  | .null, w, h => by
    cases h
    rfl
  | .bool _, w, h => by
    cases h
    rfl
  | .int _, w, h => by
    cases h
    rfl
  | .float _, w, h => by
    cases h
    rfl

theorem itemStrings_safe : ∀ {items items' : List Json}, safeItems R items = .ok items' →
    itemStrings items' = (itemStrings items).map (redactPii R)
  | [], items', h => by
    cases h
    rfl
  | v :: items, items', h => by
    rw [safeItems] at h
    split at h
    · cases h
    · next w hw =>
      split at h
      · cases h
      · next ws hws =>
        cases h
        rw [itemStrings, itemStrings, List.map_append, strings_safe hw, itemStrings_safe hws]

theorem entryStrings_safe : ∀ {entries entries' : List (String × Json)},
    safeEntries R entries = .ok entries' →
    entryStrings entries' = (entryStrings entries).map (redactPii R)
  | [], entries', h => by
    cases h
    rfl
  | (key, v) :: entries, entries', h => by
    rw [safeEntries] at h
    split at h
    · cases h
    · next w hw =>
      split at h
      · cases h
      · next ws hws =>
        cases h
        rw [entryStrings, entryStrings, List.map_append, strings_safe hw,
          entryStrings_safe hws]

end

/-! ## The city of a geography proposal -/

variable {cityId : Uuid} {p : Char → Bool} {cs : List Char}

/-- `GeoPlace` -/
structure GeoPlace where
  kind : String
  name : String
  parentId : Option Uuid

/-- The entry of an existing place below the city. -/
def childEntry (place : GeoPlace) : Json :=
  .dict [("kind", .str place.kind), ("name", .str place.name),
    ("parent_id", .str ((place.parentId.map Uuid.str).getD "None"))]

/-- The snapshot of `_prepare_geo_proposal_context`; the places below the city in any order. -/
def geoSnapshot (cityId : Uuid) (city : GeoPlace) (children : List GeoPlace)
    (guidance : List String) (maxPlaces : Nat) : Json :=
  .dict [("city", .dict [("id", .str cityId.str), ("name", .str city.name)]),
    ("existing_children", .list (children.map childEntry)),
    ("operator_guidance", .list (guidance.map .str)), ("max_places", .int maxPlaces)]

/-- The part of `_prepare_geo_proposal_context` that makes the snapshot, which is shown and stored as
`run.input_snapshot`. -/
def prepareGeoProposalContext (R : CharClasses) (places : Table Uuid GeoPlace) (cityId : Uuid)
    (guidance : List String) (maxPlaces : Nat) : Except HttpError Json :=
  match places.get cityId with
  | none => .error ⟨404, "City not found"⟩
  | some city =>
    if city.kind ≠ "city" then .error ⟨404, "City not found"⟩
    else
      let children := (places.rows.map (·.2)).filter (fun place => place.parentId = some cityId)
      match safeProviderContext R (geoSnapshot cityId city children guidance maxPlaces) with
      | .ok snapshot => .ok snapshot
      | .error _ => .error ⟨422, "unsafe_ai_context"⟩

/-- `run.input_snapshot["city"]["id"]` -/
def snapshotCityId : Json → Option String
  | .dict entries =>
    match Json.get? entries "city" with
    | some (.dict city) =>
      match Json.get? city "id" with
      | some (.str id) => some id
      | _ => none
    | _ => none
  | _ => none

/-- How `apply_geo_proposal` finds the city. -/
def proposalCity (places : Table Uuid GeoPlace) (snapshot : Json) :
    Except HttpError (Uuid × GeoPlace) :=
  match (snapshotCityId snapshot).bind Uuid.ofText with
  | none => .error ⟨500, "Internal Server Error"⟩
  | some cityId =>
    match places.get cityId with
    | none => .error ⟨409, "Proposal city is no longer available"⟩
    | some city =>
      if city.kind ≠ "city" then .error ⟨409, "Proposal city is no longer available"⟩
      else .ok (cityId, city)

variable {city : GeoPlace}

theorem snapshotCityId_safe {children : List GeoPlace} {guidance : List String} {maxPlaces : Nat}
    {w : Json}
    (h : safeProviderContext R (geoSnapshot cityId city children guidance maxPlaces) = .ok w) :
    snapshotCityId w = some (redactPii R cityId.str) := by
  rw [geoSnapshot, safeProviderContext] at h
  split at h
  · cases h
  split at h
  · next entries hentries =>
    cases h
    rw [safeEntries] at hentries
    split at hentries
    · cases hentries
    · next c hc =>
      split at hentries
      · cases hentries
      cases hentries
      rw [safeProviderContext] at hc
      split_ifs at hc
      split at hc
      · next fields hfields =>
        cases hc
        rw [safeEntries] at hfields
        split at hfields
        · cases hfields
        · next id hid =>
          split at hfields
          · cases hfields
          cases hfields
          rw [safeProviderContext] at hid
          split_ifs at hid
          cases hid
          simp [snapshotCityId]
      · cases hc
  · cases h

/-! ### Reading a redacted UUID -/

theorem mem_replace {c p : Char} (ps : List Char) {new text : List Char} (hc : c ∉ p :: ps)
    (h : c ∈ text) : c ∈ replace (p :: ps) new text := by
  have hscan : ∀ (text : List Char) (skip : Nat), c ∈ text.drop skip →
      c ∈ replaceFrom (p :: ps) new skip text := by
    intro text
    induction text with
    | nil => intro skip h; simp at h
    | cons d ds ih =>
      intro skip h
      cases skip with
      | succ n => exact ih n h
      | zero =>
        rw [replaceFrom]
        split
        · next hfront =>
          obtain ⟨tail, htail⟩ := List.isPrefixOf_iff_prefix.mp hfront
          have hds : ds = ps ++ tail := (List.cons.inj htail).2.symm
          have hmem : c ∈ tail := by
            rw [List.drop_zero, ← htail, List.mem_append] at h
            exact h.resolve_left hc
          refine List.mem_append_right _ (ih _ ?_)
          rw [hds, List.length_cons, Nat.add_sub_cancel, List.drop_left]
          exact hmem
        · rcases List.mem_cons.mp h with rfl | h
          · exact List.mem_cons_self ..
          · exact List.mem_cons_of_mem _ (ih 0 h)
  exact hscan text 0 h

theorem mem_dropWhile (hp : p c = false) (h : c ∈ text) : c ∈ text.dropWhile p := by
  rw [← List.takeWhile_append_dropWhile (p := p) (l := text), List.mem_append] at h
  rcases h with h | h
  · cases hp.symm.trans (List.mem_takeWhile_imp h)
  · exact h

theorem mem_stripBy (hp : p c = false) (h : c ∈ text) : c ∈ stripBy p text := by
  rw [stripBy, List.rdropWhile, List.mem_reverse]
  exact mem_dropWhile hp (List.mem_reverse.mpr (mem_dropWhile hp h))

theorem hexRun_bracket {digit : Bool} {acc : Nat} (h : '[' ∈ cs) :
    hexRun digit acc cs = none := by
  induction cs generalizing digit acc with
  | nil => cases h
  | cons c cs ih =>
    rw [hexRun]
    rcases List.mem_cons.mp h with rfl | h
    · rfl
    split
    · split
      · exact ih h
      · rfl
    · split
      · rfl
      · exact ih h

theorem readHex_bracket {cs : List Char} (h : '[' ∈ cs) : readHex cs = none := by
  unfold readHex
  split
  · next x rest =>
    have hrest : '[' ∈ x :: rest := (List.mem_cons.mp h).resolve_left (by decide)
    split
    · next hx =>
      have hrest : '[' ∈ rest := by
        refine (List.mem_cons.mp hrest).resolve_left ?_
        rintro rfl
        simp at hx
      split
      · next hunderscore =>
        cases rest with
        | nil => cases hrest
        | cons y ys =>
          cases hunderscore
          exact hexRun_bracket ((List.mem_cons.mp hrest).resolve_left (by decide))
      · exact hexRun_bracket hrest
    · exact hexRun_bracket h
  · exact hexRun_bracket h

theorem intBase16_bracket {cs : List Char} (h : '[' ∈ cs) : intBase16 cs = none := by
  have hstrip := mem_stripBy (p := isSpace) (by decide) h
  unfold intBase16
  split
  · next rest heq =>
    rw [heq] at hstrip
    have hnone := readHex_bracket ((List.mem_cons.mp hstrip).resolve_left (by decide))
    simp [hnone]
  · next rest heq =>
    rw [heq] at hstrip
    have hnone := readHex_bracket ((List.mem_cons.mp hstrip).resolve_left (by decide))
    simp [hnone]
  · simp [readHex_bracket hstrip]

/-- A text with a bracket is not the text of a UUID. -/
theorem ofText_bracket {text : String} (h : '[' ∈ text.toList) : Uuid.ofText text = none := by
  have hurn : '[' ∈ replace "urn:".toList [] text.toList :=
    mem_replace ['r', 'n', ':'] (by decide) h
  have huuid : '[' ∈ replace "uuid:".toList [] (replace "urn:".toList [] text.toList) :=
    mem_replace ['u', 'i', 'd', ':'] (by decide) hurn
  have hstrip := mem_stripBy (p := fun c => c == '{' || c == '}') (by decide) huuid
  have hhex := @mem_replace '[' '-' [] [] _ (by decide) hstrip
  unfold Uuid.ofText
  dsimp only
  split
  · rfl
  have hnone := intBase16_bracket hhex
  split
  · rfl
  · next n hn => cases hnone.symm.trans hn

/-! ## The claim for every snapshot -/

theorem proposalCity_redacted {places : Table Uuid GeoPlace} {cityId : Uuid} {city : GeoPlace}
    {snapshot : Json} (hid : snapshotCityId snapshot = some (redactPii R cityId.str))
    (hget : places.get cityId = some city) (hkind : city.kind = "city") :
    proposalCity places snapshot = .ok (cityId, city) ↔ ¬ HasPhoneRun cityId.str := by
  have hidentifier : IsIdentifier cityId.str := .inl ⟨cityId, rfl⟩
  constructor
  · intro h hrun
    have hnone := ofText_bracket ((redactPii_identifier (R := R) hidentifier).2 hrun)
    rw [proposalCity, hid, Option.bind_some, hnone] at h
    cases h
  · intro hrun
    have hself := (redactPii_identifier (R := R) hidentifier).1 hrun
    rw [proposalCity, hid, hself, Option.bind_some, ofText_str]
    dsimp only
    rw [hget]
    dsimp only
    rw [if_neg (not_not.mpr hkind)]

/-- **When redaction keeps identifiers.** An identifier is never taken for a credential. In what is
shown of a snapshot, a string that is an identifier is unchanged exactly when it has no run that looks
like a phone number, and an identifier inside another string is still there exactly when some
occurrence of it is touched by no match. The city of a stored geography snapshot is found again
exactly when its identifier has no such run. -/
theorem redaction_keeps_identifiers (R : CharClasses) :
    (∀ id, IsIdentifier id → safeProviderContext R (.str id) = .ok (.str (redactPii R id))) ∧
    (∀ v w, safeProviderContext R v = .ok w →
      List.Forall₂ (fun s s' => (IsIdentifier s → (s' = s ↔ ¬ HasPhoneRun s)) ∧
        ∀ id, IsIdentifier id → id.toList <:+: s.toList →
          (id.toList <:+: s'.toList ↔ Untouched R id s)) (strings v) (strings w)) ∧
    ∀ (places later : Table Uuid GeoPlace) (cityId : Uuid) (guidance : List String)
      (maxPlaces : Nat) (snapshot : Json) (city : GeoPlace),
      prepareGeoProposalContext R places cityId guidance maxPlaces = .ok snapshot →
      later.get cityId = some city → city.kind = "city" →
      (proposalCity later snapshot = .ok (cityId, city) ↔ ¬ HasPhoneRun cityId.str) := by
  refine ⟨fun id hid => ?_, ?_, ?_⟩
  · rw [safeProviderContext, credential_idChars hid.chars, if_neg Bool.false_ne_true]
  · intro v w h
    rw [strings_safe h, List.forall₂_map_right_iff, List.forall₂_same]
    exact fun s _ => ⟨fun hs => redactPii_eq_iff hs, fun id hid _ => infix_redactPii_iff hid⟩
  · intro places later cityId guidance maxPlaces snapshot city h hget hkind
    unfold prepareGeoProposalContext at h
    split at h
    · cases h
    split at h
    · cases h
    dsimp only at h
    split at h
    · next snapshot' hsafe =>
      cases h
      exact proposalCity_redacted (snapshotCityId_safe hsafe) hget hkind
    · cases h

/-! ## A city whose identifier looks like a phone number -/

def kazan : GeoPlace := ⟨"city", "Казань", none⟩

/-- `12345678-1234-1234-1234-123456789012` -/
def digitsId : Uuid := ⟨0x12345678123412341234123456789012, by decide⟩

/-- `a2345678-b234-c234-d234-e2345678f012` -/
def lettersId : Uuid := ⟨0xa2345678b234c234d234e2345678f012, by decide⟩

def geoPlaces : Table Uuid GeoPlace := (Table.empty.set digitsId kazan).set lettersId kazan

/-- The city with letters in every group of its identifier is found again. -/
theorem redaction_keeps_lettersId :
    ∃ snapshot, prepareGeoProposalContext asciiClasses geoPlaces lettersId ["Центр"] 20
        = .ok snapshot ∧ proposalCity geoPlaces snapshot = .ok (lettersId, kazan) := by
  have hok : (prepareGeoProposalContext asciiClasses geoPlaces lettersId ["Центр"] 20).toOption.isSome
      = true := by decide +kernel
  obtain ⟨snapshot, hsnapshot⟩ := Option.isSome_iff_exists.mp hok
  have hsnapshot := toOption_eq_some.mp hsnapshot
  have hself : redactPii asciiClasses lettersId.str = lettersId.str := by decide +kernel
  have hrun := (redactPii_eq_iff (R := asciiClasses) (.inl ⟨lettersId, rfl⟩)).mp hself
  exact ⟨snapshot, hsnapshot, ((redaction_keeps_identifiers asciiClasses).2.2 geoPlaces geoPlaces
    lettersId ["Центр"] 20 snapshot kazan hsnapshot rfl rfl).mpr hrun⟩

/-- The identifier of a city is shown as a phone number, and the city is not found again. -/
theorem redaction_breaks_digitsId :
    redactPii asciiClasses digitsId.str = "[phone]" ∧
      ∃ snapshot, prepareGeoProposalContext asciiClasses geoPlaces digitsId ["Центр"] 20
          = .ok snapshot ∧
        proposalCity geoPlaces snapshot = .error ⟨500, "Internal Server Error"⟩ := by
  have hredacted : redactPii asciiClasses digitsId.str = "[phone]" := by decide +kernel
  have hfacts : (prepareGeoProposalContext asciiClasses geoPlaces digitsId ["Центр"] 20).toOption.any
      (fun snapshot => decide ((snapshotCityId snapshot).bind Uuid.ofText = none)) = true := by
    decide +kernel
  obtain ⟨snapshot, hsnapshot, hnone⟩ := (Option.any_eq_true _ _).mp hfacts
  refine ⟨hredacted, snapshot, toOption_eq_some.mp hsnapshot, ?_⟩
  rw [proposalCity, of_decide_eq_true hnone]

end MegaPanel.Redaction

