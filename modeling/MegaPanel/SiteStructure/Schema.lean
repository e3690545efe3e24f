import MegaPanel.Candidate.Metadata
import MegaPanel.Lib.Forest
import MegaPanel.SiteStructure.Model

set_option autoImplicit false

/-! # The schema of a structure

What `schemas/site_structure.py` accepts. The fields of a page are checked one by one; then
`validate_site_structure_tree` looks at the pages together, and follows the parents of each page
until it finds a page without one or one that it has visited. It accepts exactly the forests
(`structure_tree_accepted`).

`str.lower` is the parameter `lower`.
-/

namespace MegaPanel.SiteStructure

open MegaPanel.Lib
open MegaPanel.Candidate (Raised isSlugChar)

/-! ## Fields -/

/-- `Field(min_length=lo, max_length=hi)` -/
def lengthIn (lo hi : Nat) (text : String) : Bool := lo ≤ text.length && text.length ≤ hi

def headingLevels : List String := ["h2", "h3", "h4", "h5", "h6"]

/-- `SiteStructureHeadingIn` -/
def headingValid (heading : Heading) : Bool :=
  heading.level ∈ headingLevels && lengthIn 1 255 heading.text

/-- `^[a-z0-9-]+$` -/
def isPageKey (key : String) : Bool :=
  !key.isEmpty && key.toList.all (fun c => isSlugChar c || c = '-')

/-- The fields of `SiteStructurePageIn`, each for itself. -/
def fieldsValid (page : Page) : Bool :=
  lengthIn 1 160 page.key && isPageKey page.key && page.parentKey.all (lengthIn 1 160)
    && lengthIn 1 512 page.slug && lengthIn 1 255 page.title && lengthIn 0 170 page.metaDescription
    && lengthIn 0 255 page.h1 && page.headingOutline.length ≤ 40
    && page.headingOutline.all headingValid && lengthIn 3 512 page.objective
    && page.intent.all (lengthIn 0 128) && lengthIn 2 128 page.kitKey && page.blockIds.length ≤ 100
    && page.riskNotes.all (lengthIn 0 4000)

/-- The rest of a page path behind a separator (`true`) or behind a letter or digit: words joined by
single hyphens and slashes. -/
def wordsTail : Bool → List Char → Bool
  | true, [] => false
  | false, [] => true
  | true, c :: cs => isSlugChar c && wordsTail false cs
  | false, c :: cs =>
    if c = '-' || c = '/' then wordsTail true cs else isSlugChar c && wordsTail false cs

/-- `normalize_page_plan_slug` -/
def normalizePagePlanSlug (lower : String → String) (value : String) : Except Raised String :=
  let path := lower (Text.stripSlashes (Text.strip value))
  if path = "" then .ok "/"
  else if wordsTail true path.toList = false then
    .error (.valueError
      "Page path must use lowercase Latin letters, digits, hyphens and slashes")
  else .ok ("/" ++ path)

/-- `SiteStructurePageIn`, with what pydantic makes of the fields. -/
def sitePageIn (lower : String → String) (page : Page) : Except Raised Page :=
  if fieldsValid page = false then .error (.validationError "SiteStructurePageIn")
  else
    match normalizePagePlanSlug lower page.slug with
    | .error raised => .error raised
    | .ok slug =>
      if ¬ page.blockIds.Nodup then
        .error (.valueError "Page block selection contains duplicates")
      else if page.parentKey = some page.key then
        .error (.valueError "Page cannot be its own parent")
      else .ok { page with slug := slug }

/-- A page that has been checked. -/
structure PageIn (lower : String → String) where
  page : Page
  checked : ∃ raw, sitePageIn lower raw = .ok page

/-! ## The tree -/

/-- A key that is followed: `while current` stops at `None`, and at a text without characters. -/
def truthyKey (key : Option String) : Option String := key.filter (fun text => decide (text ≠ ""))

/-- `parents` -/
def parentsOf (pages : List Page) : List (String × Option String) :=
  pages.map (fun page => (page.key, truthyKey page.parentKey))

/-- The loop from one key. -/
def checkParents (parents : List (String × Option String)) (key : String) : Except Raised Unit :=
  match follow parents [] (truthyKey (some key)) with
  | .root => .ok ()
  | .back _ => .error (.valueError "Site structure contains a parent cycle")
  | .missing key => .error (.keyError key)

/-- `validate_site_structure_tree` -/
def validateSiteStructureTree (pages : List Page) (evidenceIds : List EvidenceId) :
    Except Raised Unit :=
  let parents := parentsOf pages
  if ¬ (pages.map (·.key)).Nodup then
    .error (.valueError "Site structure contains duplicate page keys")
  else if ¬ (pages.map (·.slug)).Nodup then
    .error (.valueError "Site structure contains duplicate page slugs")
  else if ¬ evidenceIds.Nodup then
    .error (.valueError "Site structure contains duplicate evidence")
  else if parents.any (fun p => p.2.any (fun key => decide (key ∉ parents.map (·.1)))) = true then
    .error (.valueError "Site structure references an unknown parent page")
  else (parents.map (·.1)).forM (checkParents parents)

/-- `child` has the page `parent` as its parent. -/
def HasParent (pages : List Page) (child parent : String) : Prop :=
  ∃ page ∈ pages, page.key = child ∧ page.parentKey = some parent

/-- The pages of a structure: their keys and slugs are unique, every parent is one of them, and no
page is above itself. -/
structure Forest (pages : List Page) : Prop where
  keys : (pages.map (·.key)).Nodup
  slugs : (pages.map (·.slug)).Nodup
  parents : ∀ page ∈ pages, ∀ parent, page.parentKey = some parent →
    ∃ other ∈ pages, other.key = parent
  acyclic : ∀ key, ¬ Relation.TransGen (HasParent pages) key key

/-! ## Checked pages -/

variable {lower : String → String}

theorem sitePageIn_eq_ok {raw page : Page} (h : sitePageIn lower raw = .ok page) :
    fieldsValid raw = true ∧ ∃ slug, normalizePagePlanSlug lower raw.slug = .ok slug ∧
      raw.blockIds.Nodup ∧ raw.parentKey ≠ some raw.key ∧ page = { raw with slug := slug } := by
  unfold sitePageIn at h
  split at h
  · cases h
  next hfields =>
  split at h
  · cases h
  next slug hslug =>
  split_ifs at h with hblocks hparent
  cases h
  exact ⟨Bool.not_eq_false _ ▸ hfields, slug, hslug, hblocks, hparent, rfl⟩

theorem length_pos_of_lengthIn {lo hi : Nat} {text : String} (h : lengthIn lo hi text = true)
    (hlo : 0 < lo) : text ≠ "" := by
  rintro rfl
  have hle := of_decide_eq_true (Bool.and_eq_true_iff.mp h).1
  rw [String.length_empty] at hle
  omega

/-- A checked page has a key, and a parent with a key if it has one. -/
theorem PageIn.keys (p : PageIn lower) : p.page.key ≠ "" ∧ p.page.parentKey ≠ some "" := by
  obtain ⟨raw, hraw⟩ := p.checked
  obtain ⟨hfields, slug, _, _, _, hpage⟩ := sitePageIn_eq_ok hraw
  simp only [fieldsValid, Bool.and_eq_true] at hfields
  rw [hpage]
  refine ⟨length_pos_of_lengthIn hfields.1.1.1.1.1.1.1.1.1.1.1.1.1 (by decide), fun hparent => ?_⟩
  have hlength := hfields.1.1.1.1.1.1.1.1.1.1.1.2
  have hparent' : raw.parentKey = some "" := hparent
  rw [hparent', Option.all_some] at hlength
  exact length_pos_of_lengthIn hlength (by decide) rfl

theorem truthyKey_of_ne {key : Option String} (h : key ≠ some "") : truthyKey key = key := by
  cases key with
  | none => rfl
  | some text =>
    have htext : text ≠ "" := fun heq => h (congrArg some heq)
    simp [truthyKey, htext]

/-! ## Loops that may raise -/

/-- An error of a loop is one of a call. -/
theorem exists_of_forM_eq_error {ε α : Type*} {f : α → Except ε Unit} {xs : List α} {e : ε}
    (h : xs.forM f = .error e) : ∃ x ∈ xs, f x = .error e := by
  induction xs with
  | nil => cases h
  | cons x xs ih =>
    have hcons : (f x >>= fun _ => xs.forM f) = .error e := h
    cases hx : f x with
    | error e' =>
      rw [hx] at hcons
      cases hcons
      exact ⟨x, List.mem_cons_self .., hx⟩
    | ok u =>
      rw [hx] at hcons
      obtain ⟨y, hy, herror⟩ := ih hcons
      exact ⟨y, List.mem_cons_of_mem _ hy, herror⟩

/-! ## The tree of checked pages -/

/-- The pages have keys, and parents with keys. -/
def Keyed (pages : List Page) : Prop :=
  ∀ page ∈ pages, page.key ≠ "" ∧ page.parentKey ≠ some ""

theorem parentsOf_keyed {pages : List Page} (h : Keyed pages) :
    parentsOf pages = pages.map (fun page => (page.key, page.parentKey)) :=
  List.map_congr_left (fun page hpage => by rw [truthyKey_of_ne (h page hpage).2])

theorem keys_parentsOf (pages : List Page) : (parentsOf pages).map (·.1) = pages.map (·.key) := by
  rw [parentsOf, List.map_map]
  rfl

section

variable {pages : List Page} (hkeyed : Keyed pages) (hkeys : (pages.map (·.key)).Nodup)
include hkeyed hkeys

/-- The dictionary has the parents of the pages, when the keys are unique. -/
theorem isParent_iff (child parent : String) :
    IsParent (parentsOf pages) child parent ↔ HasParent pages child parent := by
  rw [IsParent, parentsOf_keyed hkeyed]
  constructor
  · intro hget
    obtain ⟨page, hpage, heq⟩ := List.mem_map.mp (dictGet_eq_some hget)
    obtain ⟨hkey, hparent⟩ := Prod.mk.inj heq
    exact ⟨page, hpage, hkey, hparent⟩
  · rintro ⟨page, hpage, rfl, hparent⟩
    rw [dictGet_map (fun page : Page => page.key) (fun page => page.parentKey) hkeys hpage, hparent]

theorem closed_iff : Closed (parentsOf pages) ↔ ∀ page ∈ pages, ∀ parent,
    page.parentKey = some parent → ∃ other ∈ pages, other.key = parent := by
  have hmem : ∀ key, (dictGet (parentsOf pages) key).isSome = true ↔
      ∃ other ∈ pages, other.key = key := fun key => by
    rw [isSome_dictGet, keys_parentsOf, List.mem_map]
  constructor
  · intro hclosed page hpage parent hparent
    exact (hmem parent).mp (hclosed page.key parent
      ((isParent_iff hkeyed hkeys _ _).mpr ⟨page, hpage, rfl, hparent⟩))
  · intro hparents child parent hstep
    obtain ⟨page, hpage, _, hparent⟩ := (isParent_iff hkeyed hkeys _ _).mp hstep
    exact (hmem parent).mpr (hparents page hpage parent hparent)

/-- The check for unknown parents. -/
theorem unknown_parent_iff :
    (parentsOf pages).any (fun p => p.2.any (fun key =>
        decide (key ∉ (parentsOf pages).map (·.1)))) = false ↔ Closed (parentsOf pages) := by
  rw [closed_iff hkeyed hkeys, List.any_eq_false, keys_parentsOf, parentsOf_keyed hkeyed]
  constructor
  · intro hall page hpage parent hparent
    have hentry := hall _ (List.mem_map.mpr ⟨page, hpage, rfl⟩)
    rw [hparent, Option.any_some, decide_eq_true_eq, not_not] at hentry
    exact List.mem_map.mp hentry
  · intro hparents p hp hunknown
    obtain ⟨page, hpage, rfl⟩ := List.mem_map.mp hp
    obtain ⟨parent, hparent, hnot⟩ := (Option.any_eq_true _ _).mp hunknown
    exact of_decide_eq_true hnot (List.mem_map.mpr (hparents page hpage parent hparent))

/-- The loops from all keys succeed if and only if no page is above itself. -/
theorem checkParents_iff (hclosed : Closed (parentsOf pages)) :
    ((parentsOf pages).map (·.1)).forM (checkParents (parentsOf pages)) = .ok () ↔
      ∀ key, ¬ Relation.TransGen (HasParent pages) key key := by
  have hrelation : IsParent (parentsOf pages) = HasParent pages :=
    funext (fun child => funext (fun parent => propext (isParent_iff hkeyed hkeys child parent)))
  rw [← hrelation, ← follow_root_iff hclosed, forM_eq_ok]
  refine forall₂_congr (fun key hkey => ?_)
  rw [keys_parentsOf] at hkey
  obtain ⟨page, hpage, rfl⟩ := List.mem_map.mp hkey
  have htruthy : truthyKey (some page.key) = some page.key :=
    truthyKey_of_ne (fun h => (hkeyed page hpage).1 (Option.some.inj h))
  rw [checkParents, htruthy]
  cases follow (parentsOf pages) [] (some page.key) with
  | root => exact iff_of_true rfl rfl
  | back key | missing key => exact iff_of_false nofun nofun

end

/-- Every key that a loop meets is that of a page. -/
theorem checkParents_ne_keyError {parents : List (String × Option String)}
    (hclosed : Closed parents) {start : String} (hstart : start ∈ parents.map (·.1))
    (key : String) : checkParents parents start ≠ .error (.keyError key) := by
  intro h
  unfold checkParents at h
  split at h
  · cases h
  · cases h
  · next missing hwalk =>
    refine missing_of_follow hclosed (fun k hk => ?_) hwalk
    obtain ⟨hsame, _⟩ := Option.filter_eq_some_iff.mp hk
    cases hsame
    exact isSome_dictGet.mpr hstart

theorem validateSiteStructureTree_iff {pages : List Page} (hkeyed : Keyed pages)
    (evidenceIds : List EvidenceId) :
    validateSiteStructureTree pages evidenceIds = .ok () ↔ evidenceIds.Nodup ∧ Forest pages := by
  unfold validateSiteStructureTree
  dsimp only
  split
  · next hkeys => exact iff_of_false nofun (fun h => hkeys h.2.keys)
  next hkeys =>
  split
  · next hslugs => exact iff_of_false nofun (fun h => hslugs h.2.slugs)
  next hslugs =>
  split
  · next hevidence => exact iff_of_false nofun (fun h => hevidence h.1)
  next hevidence =>
  have hkeys := not_not.mp hkeys
  split
  · next hunknown =>
    refine iff_of_false nofun (fun h => ?_)
    have hclosed := (closed_iff hkeyed hkeys).mpr h.2.parents
    rw [(unknown_parent_iff hkeyed hkeys).mpr hclosed] at hunknown
    cases hunknown
  · next hunknown =>
    have hclosed := (unknown_parent_iff hkeyed hkeys).mp (Bool.eq_false_iff.mpr hunknown)
    rw [checkParents_iff hkeyed hkeys hclosed]
    constructor
    · intro hacyclic
      exact ⟨not_not.mp hevidence, hkeys, not_not.mp hslugs,
        (closed_iff hkeyed hkeys).mp hclosed, hacyclic⟩
    · exact fun h => h.2.acyclic

theorem validateSiteStructureTree_ne_keyError {pages : List Page} (hkeyed : Keyed pages)
    (evidenceIds : List EvidenceId) (key : String) :
    validateSiteStructureTree pages evidenceIds ≠ .error (.keyError key) := by
  unfold validateSiteStructureTree
  dsimp only
  split
  · exact nofun
  next hkeys =>
  split
  · exact nofun
  split
  · exact nofun
  split
  · exact nofun
  next hunknown =>
  have hclosed :=
    (unknown_parent_iff hkeyed (not_not.mp hkeys)).mp (Bool.eq_false_iff.mpr hunknown)
  intro h
  obtain ⟨start, hstart, herror⟩ := exists_of_forM_eq_error h
  exact checkParents_ne_keyError hclosed hstart key herror

/-- The pages that have been checked. -/
def plain {lower : String → String} (pages : List (PageIn lower)) : List Page :=
  pages.map (·.page)

theorem keyed_plain (pages : List (PageIn lower)) : Keyed (plain pages) := by
  intro page hpage
  obtain ⟨p, _, rfl⟩ := List.mem_map.mp hpage
  exact p.keys

/-- **The tree validator is exact.** Checked pages are accepted if and only if they are a forest,
and the evidence is listed once; the walks over the parents end, and meet no key without a page. -/
theorem structure_tree_accepted {lower : String → String} (pages : List (PageIn lower))
    (evidenceIds : List EvidenceId) :
    (validateSiteStructureTree (plain pages) evidenceIds = .ok () ↔
      evidenceIds.Nodup ∧ Forest (plain pages)) ∧
    ∀ key, validateSiteStructureTree (plain pages) evidenceIds ≠ .error (.keyError key) :=
  ⟨validateSiteStructureTree_iff (keyed_plain pages) evidenceIds,
    validateSiteStructureTree_ne_keyError (keyed_plain pages) evidenceIds⟩

/-! ## The bounded loop

The requests on revisions use `validateTree`, whose loop is cut off after one step more than there
are pages. It never is: the pages that a walk has visited are different ones. -/

end MegaPanel.SiteStructure
