import MegaPanel.Lib.DateTime
import MegaPanel.Lib.Json
import MegaPanel.Lib.Sha256
import MegaPanel.Lib.Uuid

set_option autoImplicit false

/-! # The page metadata of a build

A build stores what it knows about each page as a list of JSON objects. Before the list is
used, `validate_page_metadata_snapshot` (`services/site_build_metadata.py`) checks it: the
keys, the formats, and how the index state of a page hangs together with its content and
with the promotion that admitted it.

`entryJson` writes the object of one page. `checkItem_entry` says when the check accepts it.
-/

namespace MegaPanel.Candidate

open MegaPanel.Lib MegaPanel.Lib.Text

/-! ## Page paths -/

def isSlugChar (c : Char) : Bool := ('a' ≤ c && c ≤ 'z') || ('0' ≤ c && c ≤ '9')

/-- The rest of a path behind a slash or a hyphen (`true`) or behind a letter or digit
(`false`): words joined by hyphens, joined by slashes, with one more slash at the end
allowed. -/
def pathTail : Bool → List Char → Bool
  | true, [] => false
  | false, [] => true
  | true, c :: cs => isSlugChar c && pathTail false cs
  | false, c :: cs =>
    if c = '/' then cs.isEmpty || pathTail true cs
    else if c = '-' then pathTail true cs
    else isSlugChar c && pathTail false cs

/-- `_PAGE_PATH.fullmatch(slug)` -/
def isPagePath (slug : String) : Bool :=
  match slug.toList with
  | '/' :: cs => pathTail true cs
  | _ => false

/-- What a check of stored data raises. -/
inductive Raised
  | valueError (detail : String)
  | typeError
  | validationError (model : String)
  | keyError (key : String)
  | httpError (status : Nat) (blockers : List String)
  deriving DecidableEq

def invalidSnapshot : Raised := .valueError "Build page metadata snapshot is invalid"

def mismatchedSnapshot : Raised :=
  .valueError "Build manifest and page metadata snapshots do not match"

def canonicalPagePath (slug : String) : Except Raised String :=
  if slug = "/" then .ok "/"
  else if !isPagePath slug then .error invalidSnapshot
  else .ok ("/" ++ stripSlashes slug ++ "/")

/-- A page path has more than slashes in it. -/
theorem stripSlashes_ne_empty {slug : String} (h : isPagePath slug = true) :
    stripSlashes slug ≠ "" := by
  intro hempty
  have hnil : stripBy (· == '/') slug.toList = [] := by
    have := congrArg String.toList hempty
    rwa [stripSlashes, String.toList_ofList, String.toList_empty] at this
  rw [stripBy_eq_nil_iff] at hnil
  unfold isPagePath at h
  split at h
  · next cs heq =>
    cases cs with
    | nil => cases h
    | cons c cs =>
      have hslash : c = '/' := by simpa using hnil c (by rw [heq]; simp)
      subst hslash
      simp [pathTail, isSlugChar] at h
  · cases h

/-! ## The check -/

variable {items : List Json} {bySlug result : List (String × Json)} {e : String × Json}
  {expected : Option (List String)}

/-- The value under a key, `None` where there is none. -/
def field (entries : List (String × Json)) (key : String) : Json :=
  (Json.get? entries key).getD .null

def isNone : Json → Bool
  | .null => true
  | _ => false

def isText (v : Json) (p : String → Bool) : Bool :=
  match v with
  | .str s => p s
  | _ => false

/-- Equality of two values one of which is a string wherever it decides something. -/
def sameText (v w : Json) : Bool := isText v (fun s => isText w (fun t => s = t))

def isIsoTime (v : Json) : Bool := isText v (fun s => (fromisoformat s).isSome)

def isHash (v : Json) : Bool := isText v Sha256.isSha256

/-- The reason of a promotion: something to read, at most 2000 characters long. -/
def reasonFits (reason : String) : Bool := strip reason ≠ "" && reason.length ≤ 2000

def requiredFields : List String := ["slug", "path", "index_state", "thin", "content_chars", "hash"]

def snapshotFields : List String := ["source_hash", "promoted_at"]

def provenanceField : List String := ["index_promotion"]

def promotionFields : List String :=
  ["id", "slug", "source_hash", "qa_source_hash", "reason", "decided_at"]

/-- `_INDEX_STATES` -/
def indexStates : List String := ["noindex", "queued", "indexed"]

/-- The promotion an item carries belongs to the item. -/
def promotionAgrees (slug sourceHash promotedAt : Json) : Json → Bool
  | .dict entries =>
    Json.hasKeys entries promotionFields
      && isText (field entries "id") (fun s => (Uuid.ofText s).isSome)
      && isIsoTime (field entries "decided_at")
      && isHash (field entries "source_hash")
      && isHash (field entries "qa_source_hash")
      && sameText (field entries "slug") slug
      && sameText (field entries "source_hash") sourceHash
      && sameText (field entries "qa_source_hash") sourceHash
      && isText (field entries "reason") reasonFits
      && sameText (field entries "decided_at") promotedAt
  | _ => false

/-- A list or a dictionary cannot be looked up in a set. -/
def hashable : Json → Bool
  | .list _ => false
  | .dict _ => false
  | _ => true

/-- The fields every item has. -/
def checkPage (seen : List String) (entries : List (String × Json)) : Except Raised String :=
  let indexState := field entries "index_state"
  match field entries "slug" with
  | .str slug =>
    if slug ∈ seen then .error invalidSnapshot
    else
      match canonicalPagePath slug with
      | .error raised => .error raised
      | .ok path =>
        if !sameText (.str path) (field entries "path") then .error invalidSnapshot
        else if !hashable indexState then .error .typeError
        else if !isText indexState (· ∈ indexStates) then .error invalidSnapshot
        else
          match field entries "thin", field entries "content_chars" with
          | .bool thin, .int chars =>
            if chars < 0 || !isHash (field entries "hash")
                || (thin && !sameText indexState (.str "noindex")) then
              .error invalidSnapshot
            else .ok slug
          | _, _ => .error invalidSnapshot
  | _ => .error invalidSnapshot

/-- The body of the loop, with the slugs it has seen. -/
def checkItem (seen : List String) : Json → Except Raised String
  | .dict entries =>
    let indexed := sameText (field entries "index_state") (.str "indexed")
    let promotedAt := field entries "promoted_at"
    let hasHash := (Json.get? entries "source_hash").isSome
    let promotion := field entries "index_promotion"
    if !(Json.hasKeys entries requiredFields
        || Json.hasKeys entries (requiredFields ++ snapshotFields)
        || Json.hasKeys entries (requiredFields ++ snapshotFields ++ provenanceField)) then
      .error invalidSnapshot
    else if !isNone promotedAt && !isIsoTime promotedAt then .error invalidSnapshot
    else if hasHash && !isHash (field entries "source_hash") then .error invalidSnapshot
    else if !hasHash && !isNone promotedAt then .error invalidSnapshot
    else if !indexed && !isNone promotedAt then .error invalidSnapshot
    else if !isNone promotion && (!indexed || isNone promotedAt
        || !promotionAgrees (field entries "slug") (field entries "source_hash") promotedAt
          promotion) then
      .error invalidSnapshot
    else checkPage seen entries
  | _ => .error invalidSnapshot

/-- The loop: the items by slug, in order. -/
def checkItems : List (String × Json) → List Json → Except Raised (List (String × Json))
  | bySlug, [] => .ok bySlug
  | bySlug, item :: items =>
    match checkItem (bySlug.map (·.1)) item with
    | .error raised => .error raised
    | .ok slug => checkItems (bySlug ++ [(slug, item)]) items

/-- The values of the result are items of the list. -/
theorem checkItems_mem (h : checkItems bySlug items = .ok result) (he : e ∈ result) :
    e ∈ bySlug ∨ e.2 ∈ items := by
  induction items generalizing bySlug with
  | nil =>
    cases h
    exact .inl he
  | cons item items ih =>
    rw [checkItems] at h
    split at h
    · cases h
    rcases ih h with hseen | hmem
    · rw [List.mem_append, List.mem_singleton] at hseen
      exact hseen.imp_right (fun heq => by rw [heq]; exact List.mem_cons_self ..)
    · exact .inr (List.mem_cons_of_mem _ hmem)

def validatePageMetadataSnapshot (metadata : Json) (expectedSlugs : Option (List String)) :
    Except Raised (List (String × Json)) :=
  match metadata with
  | .list items =>
    match checkItems [] items with
    | .error raised => .error raised
    | .ok bySlug =>
      match expectedSlugs with
      | none => .ok bySlug
      | some expected =>
        let slugs := bySlug.map (·.1)
        if slugs.all (· ∈ expected) && expected.all (· ∈ slugs) then .ok bySlug
        else .error mismatchedSnapshot
  | _ => .error invalidSnapshot

theorem checked_mem (h : validatePageMetadataSnapshot (.list items) expected = .ok bySlug)
    (he : e ∈ bySlug) : e.2 ∈ items := by
  rw [validatePageMetadataSnapshot] at h
  cases hcheck : checkItems [] items with
  | error raised => rw [hcheck] at h; cases h
  | ok result =>
    rw [hcheck] at h
    have hsame : bySlug = result := by
      cases expected with
      | none => exact (Except.ok.inj h).symm
      | some slugs =>
        dsimp only at h
        split at h
        · exact (Except.ok.inj h).symm
        · cases h
    exact (checkItems_mem hcheck (hsame ▸ he)).resolve_left List.not_mem_nil

/-! ## The objects a build writes -/

inductive IndexState
  | noindex
  | queued
  | indexed
  deriving DecidableEq

def IndexState.value : IndexState → String
  | .noindex => "noindex"
  | .queued => "queued"
  | .indexed => "indexed"

/-- What the build of a page reports. -/
structure PageMeta where
  slug : String
  path : String
  indexState : IndexState
  thin : Bool
  contentChars : Nat
  hash : String
  deriving DecidableEq

def PageMeta.entries (m : PageMeta) : List (String × Json) :=
  [("slug", .str m.slug), ("path", .str m.path), ("index_state", .str m.indexState.value),
   ("thin", .bool m.thin), ("content_chars", .int m.contentChars), ("hash", .str m.hash)]

/-- A promotion as a snapshot keeps it. -/
structure FrozenPromotion where
  id : String
  slug : String
  sourceHash : String
  qaSourceHash : String
  reason : String
  decidedAt : String
  deriving DecidableEq

def FrozenPromotion.json (p : FrozenPromotion) : Json :=
  .dict [("id", .str p.id), ("slug", .str p.slug), ("source_hash", .str p.sourceHash),
    ("qa_source_hash", .str p.qaSourceHash), ("reason", .str p.reason),
    ("decided_at", .str p.decidedAt)]

def optionJson : Option String → Json
  | none => .null
  | some s => .str s

/-- What the frozen input adds to the object of a page. -/
def sourceEntries (sourceHash : String) (promotedAt : Option String) :
    Option FrozenPromotion → List (String × Json)
  | none => [("source_hash", .str sourceHash), ("promoted_at", optionJson promotedAt)]
  | some p => [("source_hash", .str sourceHash), ("promoted_at", optionJson promotedAt),
      ("index_promotion", p.json)]

/-- The object of one page: the report of its build, its frozen source, and the promotion if
one was matched. -/
def entryJson (m : PageMeta) (sourceHash : String) (promotedAt : Option String)
    (promotion : Option FrozenPromotion) : Json :=
  .dict (m.entries ++ sourceEntries sourceHash promotedAt promotion)

/-- What the check asks of the object of a page, apart from the other pages. -/
structure EntryAccepted (m : PageMeta) (sourceHash : String) (promotedAt : Option String)
    (promotion : Option FrozenPromotion) : Prop where
  path_eq : canonicalPagePath m.slug = .ok m.path
  hash_format : Sha256.isSha256 m.hash = true
  thin_noindex : m.thin = true → m.indexState = .noindex
  source_format : Sha256.isSha256 sourceHash = true
  promoted : ∀ t, promotedAt = some t → (fromisoformat t).isSome = true ∧ m.indexState = .indexed
  provenance : ∀ p, promotion = some p →
    promotedAt = some p.decidedAt ∧ (Uuid.ofText p.id).isSome = true ∧ p.slug = m.slug ∧
      p.sourceHash = sourceHash ∧ p.qaSourceHash = sourceHash ∧ reasonFits p.reason = true

/-! ## Acceptance -/

@[simp] theorem isText_str (s : String) (p : String → Bool) : isText (.str s) p = p s := rfl

theorem value_mem_indexStates (state : IndexState) : state.value ∈ indexStates := by
  cases state <;> decide

theorem value_eq_indexed (state : IndexState) : state.value = "indexed" ↔ state = .indexed := by
  cases state <;> decide

theorem value_eq_noindex (state : IndexState) : state.value = "noindex" ↔ state = .noindex := by
  cases state <;> decide

/-- The common fields of an object, whatever follows them. -/
theorem checkPage_entries (seen : List String) (m : PageMeta) (tail : List (String × Json))
    (slug : String) :
    checkPage seen (m.entries ++ tail) = .ok slug ↔
      slug = m.slug ∧ m.slug ∉ seen ∧ canonicalPagePath m.slug = .ok m.path ∧
        Sha256.isSha256 m.hash = true ∧ (m.thin = true → m.indexState = .noindex) := by
  have hslug : field (m.entries ++ tail) "slug" = .str m.slug := by simp [field, PageMeta.entries]
  have hpath : field (m.entries ++ tail) "path" = .str m.path := by
    simp [field, PageMeta.entries, Json.get?]
  have hstate : field (m.entries ++ tail) "index_state" = .str m.indexState.value := by
    simp [field, PageMeta.entries, Json.get?]
  have hthin : field (m.entries ++ tail) "thin" = .bool m.thin := by
    simp [field, PageMeta.entries, Json.get?]
  have hchars : field (m.entries ++ tail) "content_chars" = .int m.contentChars := by
    simp [field, PageMeta.entries, Json.get?]
  have hhash : field (m.entries ++ tail) "hash" = .str m.hash := by
    simp [field, PageMeta.entries, Json.get?]
  rw [checkPage, hslug, hpath, hstate, hthin, hchars, hhash]
  by_cases hseen : m.slug ∈ seen
  · simp [hseen]
  cases hcanonical : canonicalPagePath m.slug with
  | error raised => simp [hseen, hcanonical]
  | ok path =>
    have hneg : decide ((m.contentChars : Int) < 0) = false := by simp
    have hknown : decide (m.indexState.value ∈ indexStates) = true := by
      simp [value_mem_indexStates]
    simp only [hcanonical, sameText, isText_str, hashable, hneg, isHash, hknown,
      Bool.false_or, Bool.not_true, Bool.false_eq_true, if_false, hseen, not_false_eq_true,
      true_and, Except.ok.injEq]
    by_cases hpe : path = m.path
    · subst hpe
      simp only [decide_true, Bool.not_true, Bool.false_eq_true, if_false, true_and]
      by_cases hsha : Sha256.isSha256 m.hash = true <;>
        by_cases hthin : m.thin = true <;>
        by_cases hno : m.indexState = .noindex <;>
        simp [hsha, hthin, hno, value_eq_noindex, @eq_comm _ m.slug slug]
    · simp [hpe]

theorem promotionAgrees_json (p : FrozenPromotion) (slug sourceHash promotedAt : String) :
    promotionAgrees (.str slug) (.str sourceHash) (.str promotedAt) p.json = true ↔
      (Uuid.ofText p.id).isSome = true ∧ (fromisoformat p.decidedAt).isSome = true ∧
        Sha256.isSha256 p.sourceHash = true ∧ Sha256.isSha256 p.qaSourceHash = true ∧
        p.slug = slug ∧ p.sourceHash = sourceHash ∧ p.qaSourceHash = sourceHash ∧
        reasonFits p.reason = true ∧ p.decidedAt = promotedAt := by
  simp [promotionAgrees, FrozenPromotion.json, Json.hasKeys, Json.get?, promotionFields, field,
    isIsoTime, isHash, sameText, and_assoc]

/-- The keys of the objects are among those the check knows. -/
theorem hasKeys_entry (m : PageMeta) (sourceHash : String) (promotedAt : Option String)
    (promotion : Option FrozenPromotion) :
    let entries := m.entries ++ sourceEntries sourceHash promotedAt promotion
    (Json.hasKeys entries requiredFields
      || Json.hasKeys entries (requiredFields ++ snapshotFields)
      || Json.hasKeys entries (requiredFields ++ snapshotFields ++ provenanceField)) = true := by
  cases promotion <;>
    simp [Json.hasKeys, Json.get?, PageMeta.entries, sourceEntries, requiredFields, snapshotFields,
      provenanceField]

/-- **The check of one object**: it is accepted under its own slug, when that is new and the
object is in order. -/
theorem checkItem_entry (seen : List String) (m : PageMeta) (sourceHash : String)
    (promotedAt : Option String) (promotion : Option FrozenPromotion) (slug : String) :
    checkItem seen (entryJson m sourceHash promotedAt promotion) = .ok slug ↔
      slug = m.slug ∧ m.slug ∉ seen ∧ EntryAccepted m sourceHash promotedAt promotion := by
  have hkeys := hasKeys_entry m sourceHash promotedAt promotion
  have hslug : field (m.entries ++ sourceEntries sourceHash promotedAt promotion) "slug"
      = .str m.slug := by
    simp [field, PageMeta.entries]
  have hstate : field (m.entries ++ sourceEntries sourceHash promotedAt promotion) "index_state"
      = .str m.indexState.value := by
    simp [field, PageMeta.entries, Json.get?]
  have hpromoted : field (m.entries ++ sourceEntries sourceHash promotedAt promotion) "promoted_at"
      = optionJson promotedAt := by
    cases promotion <;> simp [field, PageMeta.entries, sourceEntries, Json.get?]
  have hsource : Json.get? (m.entries ++ sourceEntries sourceHash promotedAt promotion)
      "source_hash" = some (.str sourceHash) := by
    cases promotion <;> simp [PageMeta.entries, sourceEntries, Json.get?]
  have hpromotion : field (m.entries ++ sourceEntries sourceHash promotedAt promotion)
      "index_promotion" = (promotion.map FrozenPromotion.json).getD .null := by
    cases promotion <;> simp [field, PageMeta.entries, sourceEntries, Json.get?]
  have hsourceField : field (m.entries ++ sourceEntries sourceHash promotedAt promotion)
      "source_hash" = .str sourceHash := by
    rw [field, hsource]
    rfl
  have hsame : sameText (.str m.indexState.value) (.str "indexed")
      = decide (m.indexState = .indexed) := by
    simp [sameText, value_eq_indexed]
  have hpage := checkPage_entries seen m (sourceEntries sourceHash promotedAt promotion) slug
  rw [entryJson, checkItem, hkeys, hslug, hstate, hpromoted, hsource, hpromotion, hsourceField,
    hsame]
  simp only [Bool.not_true, Bool.false_eq_true, if_false, Option.isSome_some, Bool.true_and,
    Bool.false_and, isHash, isText_str]
  by_cases hsrc : Sha256.isSha256 sourceHash = true
  swap
  · refine iff_of_false ?_ (fun h => hsrc h.2.2.source_format)
    simp [hsrc]
  have hpageIff : checkPage seen (m.entries ++ sourceEntries sourceHash promotedAt promotion)
        = .ok slug ∧ (∀ t, promotedAt = some t →
          (fromisoformat t).isSome = true ∧ m.indexState = .indexed) ∧
        (∀ p, promotion = some p → promotedAt = some p.decidedAt ∧
          (Uuid.ofText p.id).isSome = true ∧ p.slug = m.slug ∧ p.sourceHash = sourceHash ∧
          p.qaSourceHash = sourceHash ∧ reasonFits p.reason = true) ↔
      slug = m.slug ∧ m.slug ∉ seen ∧ EntryAccepted m sourceHash promotedAt promotion := by
    rw [hpage]
    constructor
    · rintro ⟨⟨hs, hnew, hpath, hhash, hthin⟩, hpromotedAt, hprovenance⟩
      exact ⟨hs, hnew, hpath, hhash, hthin, hsrc, hpromotedAt, hprovenance⟩
    · rintro ⟨hs, hnew, h⟩
      exact ⟨⟨hs, hnew, h.path_eq, h.hash_format, h.thin_noindex⟩, h.promoted, h.provenance⟩
  rw [← hpageIff]
  cases promotedAt with
  | none =>
    cases promotion with
    | none => simp [hsrc, optionJson, isNone]
    | some p => simp [hsrc, optionJson, isNone, FrozenPromotion.json]
  | some t =>
    by_cases hiso : (fromisoformat t).isSome = true
    swap
    · simp [hiso, optionJson, isNone, isIsoTime]
    by_cases hindexed : m.indexState = .indexed
    swap
    · simp [hsrc, hindexed, optionJson, isNone, isIsoTime]
    cases promotion with
    | none => simp [hsrc, hiso, hindexed, optionJson, isNone, isIsoTime]
    | some p =>
      have hagrees := promotionAgrees_json p m.slug sourceHash t
      by_cases ha : promotionAgrees (.str m.slug) (.str sourceHash) (.str t) p.json = true
      · obtain ⟨hid, _, _, _, hslug', hsource', hqa, hreason, hdecided⟩ := hagrees.mp ha
        simp [hsrc, hiso, hindexed, optionJson, isNone, isIsoTime, ha, hid, hslug', hsource',
          hqa, hreason, hdecided]
      refine iff_of_false ?_ ?_
      · have hsome : isNone p.json = false := rfl
        rw [Bool.not_eq_true] at ha
        simp [ha, hsome, optionJson]
      · rintro ⟨_, _, h⟩
        obtain ⟨ht, hid, hslug', hsource', hqa, hreason⟩ := h p rfl
        obtain rfl : t = p.decidedAt := Option.some.inj ht
        exact ha (hagrees.mpr ⟨hid, hiso, hsource' ▸ hsrc, hqa ▸ hsrc, hslug', hsource', hqa,
          hreason, rfl⟩)

section

variable {α : Type} (report : α → PageMeta) (sourceHash : α → String)
  (promotedAt : α → Option String) (promotion : α → Option FrozenPromotion)

/-- The objects of a list of pages. -/
def entryList (xs : List α) : List Json :=
  xs.map (fun x => entryJson (report x) (sourceHash x) (promotedAt x) (promotion x))

/-- The loop puts each object under its own slug. -/
theorem checkItems_result {xs : List α}
    (h : checkItems bySlug (entryList report sourceHash promotedAt promotion xs) = .ok result) :
    result = bySlug ++ xs.map (fun x => ((report x).slug,
      entryJson (report x) (sourceHash x) (promotedAt x) (promotion x))) := by
  induction xs generalizing bySlug with
  | nil =>
    cases h
    simp
  | cons x xs ih =>
    rw [entryList, List.map_cons, checkItems] at h
    cases hitem : checkItem (bySlug.map (·.1))
        (entryJson (report x) (sourceHash x) (promotedAt x) (promotion x)) with
    | error raised => rw [hitem] at h; cases h
    | ok slug =>
      rw [hitem] at h
      obtain ⟨rfl, _, _⟩ := (checkItem_entry _ _ _ _ _ _).mp hitem
      rw [ih h]
      simp

/-- **The loop**: a list of objects is accepted when all are in order and bear different slugs,
none of which was seen before. -/
theorem checkItems_entries (xs : List α) (bySlug : List (String × Json)) :
    (checkItems bySlug (entryList report sourceHash promotedAt promotion xs)).isOk = true ↔
      (∀ x ∈ xs, EntryAccepted (report x) (sourceHash x) (promotedAt x) (promotion x)) ∧
        (xs.map (fun x => (report x).slug)).Nodup ∧
        ∀ x ∈ xs, (report x).slug ∉ bySlug.map (·.1) := by
  induction xs generalizing bySlug with
  | nil => simp [entryList, checkItems, Except.isOk, Except.toBool]
  | cons x xs ih =>
    rw [entryList, List.map_cons, checkItems]
    cases hitem : checkItem (bySlug.map (·.1))
        (entryJson (report x) (sourceHash x) (promotedAt x) (promotion x)) with
    | error raised =>
      refine iff_of_false (by simp [Except.isOk, Except.toBool]) ?_
      rintro ⟨hall, hnodup, hnew⟩
      have hok := (checkItem_entry (bySlug.map (·.1)) (report x) (sourceHash x) (promotedAt x)
        (promotion x) (report x).slug).mpr ⟨rfl, hnew x (by simp), hall x (by simp)⟩
      rw [hitem] at hok
      cases hok
    | ok slug =>
      obtain ⟨rfl, hnew, hx⟩ := (checkItem_entry _ _ _ _ _ _).mp hitem
      have hrest := ih (bySlug ++ [((report x).slug,
        entryJson (report x) (sourceHash x) (promotedAt x) (promotion x))])
      simp only [entryList, List.map_append, List.map_cons, List.map_nil] at hrest
      simp only [List.map_cons]
      rw [hrest]
      simp only [List.forall_mem_cons, List.nodup_cons, List.mem_append, List.mem_singleton,
        List.mem_map, not_or, not_exists, not_and]
      constructor
      · rintro ⟨hall, hnodup, hfresh⟩
        exact ⟨⟨hx, hall⟩, ⟨fun y hy heq => (hfresh y hy).2 heq, hnodup⟩,
          fun y hy heq => hnew (List.mem_map.mpr ⟨y, hy, heq⟩), fun y hy => (hfresh y hy).1⟩
      · rintro ⟨⟨_, hall⟩, ⟨hne, hnodup⟩, _, hfresh⟩
        exact ⟨hall, hnodup, fun y hy => ⟨hfresh y hy, fun heq => hne y hy heq⟩⟩

variable {report sourceHash promotedAt promotion}

/-- What the check returns, and that the slugs are different. -/
theorem validate_entryList {xs : List α} (h : validatePageMetadataSnapshot
      (.list (entryList report sourceHash promotedAt promotion xs)) expected = .ok bySlug) :
    bySlug = xs.map (fun x => ((report x).slug,
        entryJson (report x) (sourceHash x) (promotedAt x) (promotion x))) ∧
      (xs.map (fun x => (report x).slug)).Nodup := by
  rw [validatePageMetadataSnapshot] at h
  cases hcheck : checkItems [] (entryList report sourceHash promotedAt promotion xs) with
  | error raised => rw [hcheck] at h; cases h
  | ok result =>
    have hn := ((checkItems_entries report sourceHash promotedAt promotion xs []).mp
      (by rw [hcheck]; rfl)).2.1
    rw [hcheck] at h
    have hsame : bySlug = result := by
      cases expected with
      | none => exact (Except.ok.inj h).symm
      | some slugs =>
        dsimp only at h
        split at h
        · exact (Except.ok.inj h).symm
        · cases h
    rw [hsame, checkItems_result report sourceHash promotedAt promotion hcheck, List.nil_append]
    exact ⟨rfl, hn⟩

end

end MegaPanel.Candidate
