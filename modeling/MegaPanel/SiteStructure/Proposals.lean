import MegaPanel.Lib.Uuid
import MegaPanel.SiteStructure.Schema

set_option autoImplicit false

/-! # Proposals of an architecture

A model proposes the pages of a site. `_validate_proposal` (`api/v1/ai_workspace.py`) checks the
output before it is stored, and after an operator has approved it `_ai_structure_body`
(`api/v1/site_structure.py`) reads the stored output again and makes the body of a draft structure
from it. The schema of a structure is stricter than the schema of a proposal: `Importable` is what
it asks besides (`proposal_imported`).

pydantic reads strings, lists and dictionaries as they are; how it reads a UUID is the parameter
`uuid`.
-/

namespace MegaPanel.SiteStructure

open MegaPanel.Lib
open MegaPanel.Candidate (Raised)

/-! ## Proposals and their JSON -/

/-- `PageProposal` -/
structure Proposal where
  key : String
  title : String
  metaDescription : String
  h1 : String
  headingOutline : List Heading
  parentKey : Option String
  purpose : String
  slug : String
  keywordIds : List Uuid
  geoIds : List Uuid
  factKeys : List String
  kitKey : String
  blockIds : List String
  uncertaintyNotes : List String
  deriving DecidableEq

/-- The fields of `PageProposal`, each for itself. -/
def proposalValid (p : Proposal) : Bool :=
  lengthIn 1 160 p.key && lengthIn 1 255 p.title && lengthIn 0 170 p.metaDescription
    && lengthIn 0 255 p.h1 && p.headingOutline.length ≤ 40 && p.headingOutline.all headingValid
    && p.parentKey.all (lengthIn 1 160) && lengthIn 1 1000 p.purpose && lengthIn 1 160 p.slug
    && p.keywordIds.length ≤ 100 && p.geoIds.length ≤ 100 && p.factKeys.length ≤ 100
    && lengthIn 1 160 p.kitKey && p.blockIds.length ≤ 100 && p.uncertaintyNotes.length ≤ 20

def Proposal.entries (p : Proposal) : List (String × Json) :=
  [("key", .str p.key), ("title", .str p.title), ("meta_description", .str p.metaDescription),
    ("h1", .str p.h1), ("heading_outline", headingsJson p.headingOutline),
    ("parent_key", optional p.parentKey), ("purpose", .str p.purpose), ("slug", .str p.slug),
    ("keyword_ids", .list (p.keywordIds.map (fun u => .str u.str))),
    ("geo_ids", .list (p.geoIds.map (fun u => .str u.str))), ("fact_keys", strings p.factKeys),
    ("kit_key", .str p.kitKey), ("block_ids", strings p.blockIds),
    ("uncertainty_notes", strings p.uncertaintyNotes)]

/-- `item.model_dump(mode="json")` -/
def Proposal.toJson (p : Proposal) : Json := .dict p.entries

def readText : Json → Option String
  | .str text => some text
  | _ => none

def readUuid (uuid : String → Option Uuid) (v : Json) : Option Uuid := (readText v).bind uuid

/-- A required text. -/
def textField (entries : List (String × Json)) (key : String) : Option String :=
  (Json.get? entries key).bind readText

/-- A text with the default `""`. -/
def textOrEmpty (entries : List (String × Json)) (key : String) : Option String :=
  match Json.get? entries key with
  | none => some ""
  | some v => readText v

/-- A text or `None`. -/
def maybeText (entries : List (String × Json)) (key : String) : Option (Option String) :=
  match Json.get? entries key with
  | none => some none
  | some .null => some none
  | some v => (readText v).map some

/-- A list with the default `[]`. -/
def listField {α : Type} (read : Json → Option α) (entries : List (String × Json)) (key : String) :
    Option (List α) :=
  match Json.get? entries key with
  | none => some []
  | some (.list items) => items.mapM read
  | some _ => none

/-- `PageHeadingProposal` -/
def readHeading : Json → Option Heading
  | .dict entries =>
    if Json.hasKeys entries ["level", "text"] then
      match textField entries "level", textField entries "text" with
      | some level, some text => some ⟨level, text⟩
      | _, _ => none
    else none
  | _ => none

def proposalFields : List String :=
  ["key", "title", "meta_description", "h1", "heading_outline", "parent_key", "purpose", "slug",
    "keyword_ids", "geo_ids", "fact_keys", "kit_key", "block_ids", "uncertainty_notes"]

/-- The fields of a proposal, before their checks. -/
def readProposal (uuid : String → Option Uuid) (entries : List (String × Json)) :
    Option Proposal := do
  let key ← textField entries "key"
  let title ← textField entries "title"
  let metaDescription ← textOrEmpty entries "meta_description"
  let h1 ← textOrEmpty entries "h1"
  let headingOutline ← listField readHeading entries "heading_outline"
  let parentKey ← maybeText entries "parent_key"
  let purpose ← textField entries "purpose"
  let slug ← textField entries "slug"
  let keywordIds ← listField (readUuid uuid) entries "keyword_ids"
  let geoIds ← listField (readUuid uuid) entries "geo_ids"
  let factKeys ← listField readText entries "fact_keys"
  let kitKey ← textField entries "kit_key"
  let blockIds ← listField readText entries "block_ids"
  let uncertaintyNotes ← listField readText entries "uncertainty_notes"
  return ⟨key, title, metaDescription, h1, headingOutline, parentKey, purpose, slug, keywordIds,
    geoIds, factKeys, kitKey, blockIds, uncertaintyNotes⟩

/-- `PageProposal.model_validate` -/
def modelValidate (uuid : String → Option Uuid) : Json → Option Proposal
  | .dict entries =>
    if entries.all (fun e => decide (e.1 ∈ proposalFields)) = true then
      (readProposal uuid entries).filter proposalValid
    else none
  | _ => none

/-! ## The check of an output -/

/-- What an output is checked against: the selected keywords and places, the keys of the facts, and
the blocks of each kit. -/
structure ProposalContext where
  keywordIds : List String
  geoIds : List String
  factKeys : List String
  catalogs : List (String × List String)

/-- The body of the first loop, with the keys and slugs that it has seen. -/
def checkProposal (lower : String → String) (ctx : ProposalContext) (keys slugs : List String)
    (page : Proposal) : Except Raised Unit :=
  if page.key ∈ keys ∨ page.slug ∈ slugs then
    .error (.valueError "Architecture output contains duplicate page keys or slugs")
  else if page.keywordIds.any (fun u => decide (u.str ∉ ctx.keywordIds)) = true then
    .error (.valueError "Architecture output referenced an unselected keyword")
  else if page.geoIds.any (fun u => decide (u.str ∉ ctx.geoIds)) = true then
    .error (.valueError "Architecture output referenced an unselected place")
  else if page.factKeys.any (fun key => decide (key ∉ ctx.factKeys)) = true then
    .error (.valueError "Architecture output referenced an unknown fact")
  else
    match dictGet ctx.catalogs page.kitKey with
    | none => .error (.valueError "Architecture output referenced an unknown kit")
    | some blocks =>
      if page.blockIds.any (fun block => decide (block ∉ blocks)) = true then
        .error (.valueError "Architecture output referenced an unknown block")
      else if normalizePagePlanSlug lower page.slug ≠ .ok page.slug then
        .error (.valueError "Architecture output contains an invalid slug")
      else .ok ()

def checkProposals (lower : String → String) (ctx : ProposalContext) :
    List String → List String → List Proposal → Except Raised Unit
  | _, _, [] => .ok ()
  | keys, slugs, page :: rest =>
    match checkProposal lower ctx keys slugs page with
    | .error raised => .error raised
    | .ok () => checkProposals lower ctx (page.key :: keys) (page.slug :: slugs) rest

/-- The second loop. -/
def checkParentKey (keys : List String) (page : Proposal) : Except Raised Unit :=
  if (truthyKey page.parentKey).any (fun key => decide (key ∉ keys)) = true then
    .error (.valueError "Architecture output referenced an unknown parent page")
  else if page.parentKey = some page.key then
    .error (.valueError "Architecture output cannot make a page its own parent")
  else .ok ()

/-- `_validate_proposal` -/
def validateProposal (lower : String → String) (uuid : String → Option Uuid)
    (ctx : ProposalContext) (output : List (String × Json)) : Except Raised (List Json) :=
  let badShape := Raised.valueError "Architecture output has an invalid top-level shape"
  if Json.hasKeys output ["pages"] = false then .error badShape
  else
    match Json.get? output "pages" with
    | some (.list items) =>
      if 100 < items.length then .error badShape
      else
        match items.mapM (modelValidate uuid) with
        | none => .error (.validationError "PageProposal")
        | some pages =>
          match checkProposals lower ctx [] [] pages with
          | .error raised => .error raised
          | .ok () =>
            match pages.forM (checkParentKey (pages.map (·.key))) with
            | .error raised => .error raised
            | .ok () => .ok (pages.map Proposal.toJson)
    | _ => .error badShape

/-! ## The import -/

/-- What `_ai_structure_body` takes from `SiteStructureAIImportCreate`. -/
structure ImportBody where
  collectionId : CollectionId
  evidenceIds : List EvidenceId
  atMost : evidenceIds.length ≤ 50
  distinct : evidenceIds.Nodup

/-- `SiteStructureRevisionCreate` -/
structure RevisionCreate where
  collectionId : CollectionId
  evidenceIds : List EvidenceId
  pages : List Page

/-- `"\n".join(notes) or None` -/
def riskNotes (notes : List String) : Option String :=
  (some ("\n".intercalate notes)).filter (fun text => decide (text ≠ ""))

/-- The arguments of `SiteStructurePageIn`. -/
def proposalPage (p : Proposal) : Page where
  key := p.key
  parentKey := p.parentKey
  slug := p.slug
  title := p.title
  metaDescription := p.metaDescription
  h1 := p.h1
  headingOutline := p.headingOutline
  objective := p.purpose
  intent := none
  kitKey := p.kitKey
  blockIds := p.blockIds
  riskNotes := riskNotes p.uncertaintyNotes

/-- `SiteStructureRevisionCreate(...)` -/
def siteStructureRevisionCreate (body : ImportBody) (pages : List Page) :
    Except Raised RevisionCreate :=
  if 50 < body.evidenceIds.length ∨ pages = [] ∨ 100 < pages.length then
    .error (.validationError "SiteStructureRevisionCreate")
  else
    (validateSiteStructureTree pages body.evidenceIds).map
      (fun _ => ⟨body.collectionId, body.evidenceIds, pages⟩)

def notImportable : HttpError :=
  ⟨422, "Approved AI output cannot be imported as a valid site structure"⟩

/-- `_ai_structure_body`, on the output of the run; the errors of the calls are `ValueError`s. -/
def aiStructureBody (lower : String → String) (uuid : String → Option Uuid) (body : ImportBody)
    (output : List (String × Json)) : Except HttpError RevisionCreate :=
  match (Json.get? output "pages").getD (.list []) with
  | .list items =>
    match items.mapM (modelValidate uuid) with
    | none => .error notImportable
    | some proposals =>
      match proposals.mapM (fun p => sitePageIn lower (proposalPage p)) with
      | .error _ => .error notImportable
      | .ok pages =>
        match siteStructureRevisionCreate body pages with
        | .error (.keyError _) => .error ⟨500, "Internal Server Error"⟩
        | .error _ => .error notImportable
        | .ok created => .ok created
  | _ => .error notImportable

/-! ## What an import asks besides -/

/-- What the schema of a structure asks of proposals that have been accepted. -/
structure Importable (proposals : List Proposal) : Prop where
  nonempty : proposals ≠ []
  keys : ∀ p ∈ proposals, isPageKey p.key = true
  purposes : ∀ p ∈ proposals, lengthIn 3 512 p.purpose = true
  kits : ∀ p ∈ proposals, lengthIn 2 128 p.kitKey = true
  blocks : ∀ p ∈ proposals, p.blockIds.Nodup
  notes : ∀ p ∈ proposals, (riskNotes p.uncertaintyNotes).all (lengthIn 0 4000) = true
  acyclic : ∀ key, ¬ Relation.TransGen (HasParent (proposals.map proposalPage)) key key

/-! ## Stored proposals -/

variable {key : String} {uuid : String → Option Uuid} {p : Proposal}

/-- Reading back a list that has been written item by item. -/
theorem mapM_map_some {α β : Type} {read : β → Option α} {write : α → β} {xs : List α}
    (h : ∀ x ∈ xs, read (write x) = some x) : (xs.map write).mapM read = some xs := by
  induction xs with
  | nil => rfl
  | cons x xs ih =>
    rw [List.map_cons, List.mapM_cons, h x (List.mem_cons_self ..),
      ih (fun y hy => h y (List.mem_cons_of_mem _ hy))]
    rfl

theorem readHeading_json (heading : Heading) :
    readHeading (.dict [("level", .str heading.level), ("text", .str heading.text)])
      = some heading := rfl

theorem maybeText_optional (entries : List (String × Json)) (text : Option String)
    (hget : Json.get? entries key = some (optional text)) : maybeText entries key = some text := by
  rw [maybeText, hget]
  cases text with
  | none | some text => rfl

theorem listField_list {α : Type} {read : Json → Option α} {write : α → Json}
    (h : ∀ x, read (write x) = some x) {entries : List (String × Json)} (xs : List α)
    (hget : Json.get? entries key = some (.list (xs.map write))) :
    listField read entries key = some xs := by
  rw [listField, hget]
  exact mapM_map_some (fun x _ => h x)

theorem readProposal_entries (huuid : ∀ u : Uuid, uuid u.str = some u) (p : Proposal) :
    readProposal uuid p.entries = some p := by
  have htext : ∀ text, readText (.str text) = some text := fun _ => rfl
  have huuids : ∀ u : Uuid, readUuid uuid (.str u.str) = some u := huuid
  unfold readProposal
  rw [listField_list readHeading_json p.headingOutline rfl, maybeText_optional _ p.parentKey rfl,
    listField_list huuids p.keywordIds rfl, listField_list huuids p.geoIds rfl,
    listField_list htext p.factKeys rfl, listField_list htext p.blockIds rfl,
    listField_list htext p.uncertaintyNotes rfl]
  rfl

/-- **A stored proposal is read back as it was.** -/
theorem modelValidate_toJson (huuid : ∀ u : Uuid, uuid u.str = some u)
    (h : proposalValid p = true) : modelValidate uuid p.toJson = some p := by
  have hkeys : p.entries.all (fun e => decide (e.1 ∈ proposalFields)) = true := rfl
  rw [Proposal.toJson, modelValidate, if_pos hkeys, readProposal_entries huuid]
  exact Option.filter_eq_some_iff.mpr ⟨rfl, h⟩

theorem modelValidate_valid {v : Json} (h : modelValidate uuid v = some p) :
    proposalValid p = true := by
  unfold modelValidate at h
  split at h
  · split at h
    · exact (Option.filter_eq_some_iff.mp h).2
    · cases h
  · cases h

/-! ## What an accepted output has -/

variable {ctx : ProposalContext} {keys slugs : List String} {page : Proposal}

/-- What the check of an output establishes of its pages. -/
structure Accepted (lower : String → String) (proposals : List Proposal) : Prop where
  valid : ∀ p ∈ proposals, proposalValid p = true
  atMost : proposals.length ≤ 100
  keys : (proposals.map (·.key)).Nodup
  slugs : (proposals.map (·.slug)).Nodup
  normalized : ∀ p ∈ proposals, normalizePagePlanSlug lower p.slug = .ok p.slug
  parents : ∀ p ∈ proposals, ∀ parent, p.parentKey = some parent →
    ∃ q ∈ proposals, q.key = parent
  notSelf : ∀ p ∈ proposals, p.parentKey ≠ some p.key

theorem checkProposal_eq_ok {lower : String → String}
    (h : checkProposal lower ctx keys slugs page = .ok ()) :
    page.key ∉ keys ∧ page.slug ∉ slugs ∧
      normalizePagePlanSlug lower page.slug = .ok page.slug := by
  unfold checkProposal at h
  split at h
  · cases h
  next hnew =>
  split at h
  · cases h
  split at h
  · cases h
  split at h
  · cases h
  split at h
  · cases h
  split at h
  · cases h
  split at h
  · cases h
  next hslug =>
  exact ⟨fun hkey => hnew (.inl hkey), fun hslug => hnew (.inr hslug), not_not.mp hslug⟩

theorem checkProposals_eq_ok {lower : String → String} {proposals : List Proposal}
    (h : checkProposals lower ctx keys slugs proposals = .ok ()) :
    (proposals.map (·.key)).Nodup ∧ (proposals.map (·.slug)).Nodup ∧
      ∀ p ∈ proposals, p.key ∉ keys ∧ p.slug ∉ slugs ∧
        normalizePagePlanSlug lower p.slug = .ok p.slug := by
  induction proposals generalizing keys slugs with
  | nil => exact ⟨List.nodup_nil, List.nodup_nil, fun p hp => absurd hp List.not_mem_nil⟩
  | cons page rest ih =>
    unfold checkProposals at h
    split at h
    · cases h
    next hpage =>
    obtain ⟨hkeys, hslugs, hrest⟩ := ih h
    have hnew : ∀ p ∈ rest, p.key ≠ page.key ∧ p.slug ≠ page.slug := fun p hp =>
      ⟨fun heq => (hrest p hp).1 (heq ▸ List.mem_cons_self ..),
        fun heq => (hrest p hp).2.1 (heq ▸ List.mem_cons_self ..)⟩
    refine ⟨List.nodup_cons.mpr ⟨fun hmem => ?_, hkeys⟩,
      List.nodup_cons.mpr ⟨fun hmem => ?_, hslugs⟩, fun p hp => ?_⟩
    · obtain ⟨p, hp, heq⟩ := List.mem_map.mp hmem
      exact (hnew p hp).1 heq
    · obtain ⟨p, hp, heq⟩ := List.mem_map.mp hmem
      exact (hnew p hp).2 heq
    · rcases List.mem_cons.mp hp with rfl | hp
      · exact checkProposal_eq_ok hpage
      · obtain ⟨hkey, hslug, hnormal⟩ := hrest p hp
        exact ⟨fun hmem => hkey (List.mem_cons_of_mem _ hmem),
          fun hmem => hslug (List.mem_cons_of_mem _ hmem), hnormal⟩

theorem checkParentKey_eq_ok (hvalid : proposalValid page = true)
    (h : checkParentKey keys page = .ok ()) :
    (∀ parent, page.parentKey = some parent → parent ∈ keys) ∧
      page.parentKey ≠ some page.key := by
  unfold checkParentKey at h
  split_ifs at h with hunknown hself
  refine ⟨fun parent hparent => ?_, hself⟩
  simp only [proposalValid, Bool.and_eq_true] at hvalid
  have hlength := hvalid.1.1.1.1.1.1.1.1.2
  rw [hparent, Option.all_some] at hlength
  rw [hparent, truthyKey_of_ne (fun hempty => length_pos_of_lengthIn hlength (by decide)
    (Option.some.inj hempty)), Option.any_some, decide_eq_true_eq, not_not] at hunknown
  exact hunknown

theorem mapM_eq_some_mem {α β : Type} {f : α → Option β} {xs : List α} {ys : List β}
    (h : xs.mapM f = some ys) : ys.length = xs.length ∧ ∀ y ∈ ys, ∃ x ∈ xs, f x = some y := by
  induction xs generalizing ys with
  | nil =>
    cases h
    exact ⟨rfl, fun y hy => absurd hy List.not_mem_nil⟩
  | cons x xs ih =>
    rw [List.mapM_cons] at h
    obtain ⟨y, hy, hrest⟩ := Option.bind_eq_some_iff.mp h
    obtain ⟨zs, hzs, hcons⟩ := Option.bind_eq_some_iff.mp hrest
    cases hcons
    obtain ⟨hlength, hmem⟩ := ih hzs
    refine ⟨congrArg (· + 1) hlength, fun z hz => ?_⟩
    rcases List.mem_cons.mp hz with rfl | hz
    · exact ⟨x, List.mem_cons_self .., hy⟩
    · obtain ⟨x', hx', hfx⟩ := hmem z hz
      exact ⟨x', List.mem_cons_of_mem _ hx', hfx⟩

/-- The pages of an accepted output, as they are stored. -/
theorem validateProposal_eq_ok {lower : String → String} {output : List (String × Json)}
    {result : List Json} (h : validateProposal lower uuid ctx output = .ok result) :
    ∃ proposals, result = proposals.map Proposal.toJson ∧ Accepted lower proposals ∧
      ∃ items, Json.get? output "pages" = some (.list items) ∧
        items.mapM (modelValidate uuid) = some proposals := by
  unfold validateProposal at h
  dsimp only at h
  split_ifs at h
  split at h
  next items hitems =>
    split at h
    · cases h
    next hlength =>
    split at h
    · cases h
    next proposals hproposals =>
    split at h
    · cases h
    next hchecked =>
    split at h
    · cases h
    next hparents =>
    cases h
    obtain ⟨hsame, hmem⟩ := mapM_eq_some_mem hproposals
    obtain ⟨hkeys, hslugs, heach⟩ := checkProposals_eq_ok hchecked
    have hvalid : ∀ p ∈ proposals, proposalValid p = true := fun p hp => by
      obtain ⟨item, _, hitem⟩ := hmem p hp
      exact modelValidate_valid hitem
    have hparent := fun p hp => checkParentKey_eq_ok (hvalid p hp) (forM_eq_ok.mp hparents p hp)
    refine ⟨proposals, rfl, ⟨hvalid, by omega, hkeys, hslugs, fun p hp => (heach p hp).2.2,
      fun p hp parent hp' => List.mem_map.mp ((hparent p hp).1 parent hp'),
      fun p hp => (hparent p hp).2⟩, items, hitems, hproposals⟩
  next => cases h

/-! ## What the import makes of it -/

/-- The fields of the page of a proposal: what the two schemas do not share. -/
theorem fieldsValid_proposalPage (h : proposalValid p = true) :
    fieldsValid (proposalPage p) = true ↔ isPageKey p.key = true ∧
      lengthIn 3 512 p.purpose = true ∧ lengthIn 2 128 p.kitKey = true ∧
      (riskNotes p.uncertaintyNotes).all (lengthIn 0 4000) = true := by
  simp only [proposalValid, Bool.and_eq_true, decide_eq_true_eq] at h
  have hslug : lengthIn 1 512 p.slug = true := by
    have hshort := h.1.1.1.1.1.1.2
    simp only [lengthIn, Bool.and_eq_true, decide_eq_true_eq] at hshort ⊢
    omega
  simp only [fieldsValid, Bool.and_eq_true, decide_eq_true_eq]
  simp only [proposalPage, Option.all_none]
  tauto

theorem sitePageIn_proposalPage {lower : String → String}
    (hslug : normalizePagePlanSlug lower p.slug = .ok p.slug) (hself : p.parentKey ≠ some p.key)
    (page : Page) :
    sitePageIn lower (proposalPage p) = .ok page ↔
      page = proposalPage p ∧ fieldsValid (proposalPage p) = true ∧ p.blockIds.Nodup := by
  constructor
  · intro h
    obtain ⟨hfields, slug, hnormal, hblocks, _, hpage⟩ := sitePageIn_eq_ok h
    cases hslug.symm.trans hnormal
    exact ⟨hpage, hfields, hblocks⟩
  · rintro ⟨rfl, hfields, hblocks⟩
    have hblocks' : (proposalPage p).blockIds.Nodup := hblocks
    have hslug' : normalizePagePlanSlug lower (proposalPage p).slug = .ok p.slug := hslug
    rw [sitePageIn, hfields, if_neg (by decide), hslug']
    dsimp only
    have hself' : (proposalPage p).parentKey ≠ some (proposalPage p).key := hself
    rw [if_neg (not_not.mpr hblocks'), if_neg hself']
    rfl

section

variable {lower : String → String} {proposals : List Proposal}
  (haccepted : Accepted lower proposals)
include haccepted

/-- The pages are made if and only if each of them keeps the fields of its schema. -/
theorem pages_eq_ok (pages : List Page) :
    proposals.mapM (fun p => sitePageIn lower (proposalPage p)) = .ok pages ↔
      pages = proposals.map proposalPage ∧
        ∀ p ∈ proposals, fieldsValid (proposalPage p) = true ∧ p.blockIds.Nodup := by
  have hpage := fun p hp (page : Page) => sitePageIn_proposalPage
    (haccepted.normalized p hp) (haccepted.notSelf p hp) page
  constructor
  · intro h
    refine ⟨mapM_ok h proposalPage (fun p hp page hok => ((hpage p hp page).mp hok).1),
      fun p hp => ?_⟩
    obtain ⟨page, hok⟩ := mapM_isOk_iff.mp ⟨pages, h⟩ p hp
    exact ((hpage p hp page).mp hok).2
  · rintro ⟨rfl, hfields⟩
    have hok := mapM_map_of_ok (f := fun p => sitePageIn lower (proposalPage p)) (k := id)
      (g := proposalPage) (fun p hp => (hpage p hp _).mpr ⟨rfl, hfields p hp⟩)
    rwa [List.map_id] at hok

theorem keyed_proposalPages : Keyed (proposals.map proposalPage) := by
  intro page hpage
  obtain ⟨p, hp, rfl⟩ := List.mem_map.mp hpage
  have hvalid := haccepted.valid p hp
  simp only [proposalValid, Bool.and_eq_true] at hvalid
  refine ⟨length_pos_of_lengthIn hvalid.1.1.1.1.1.1.1.1.1.1.1.1.1.1 (by decide), fun hempty => ?_⟩
  have hlength := hvalid.1.1.1.1.1.1.1.1.2
  have hempty' : p.parentKey = some "" := hempty
  rw [hempty', Option.all_some] at hlength
  exact length_pos_of_lengthIn hlength (by decide) rfl

/-- The pages of an accepted output are a forest if and only if no page is above itself. -/
theorem forest_proposalPages : Forest (proposals.map proposalPage) ↔
    ∀ key, ¬ Relation.TransGen (HasParent (proposals.map proposalPage)) key key := by
  refine ⟨Forest.acyclic, fun hacyclic => ⟨?_, ?_, fun page hpage parent hparent => ?_, hacyclic⟩⟩
  · rw [List.map_map]
    exact haccepted.keys
  · rw [List.map_map]
    exact haccepted.slugs
  · obtain ⟨p, hp, rfl⟩ := List.mem_map.mp hpage
    obtain ⟨q, hq, hkey⟩ := haccepted.parents p hp parent hparent
    exact ⟨proposalPage q, List.mem_map_of_mem hq, hkey⟩

theorem create_proposalPages (body : ImportBody) :
    (siteStructureRevisionCreate body (proposals.map proposalPage)).isOk = true ↔
      proposals ≠ [] ∧
        ∀ key, ¬ Relation.TransGen (HasParent (proposals.map proposalPage)) key key := by
  have hatMost := haccepted.atMost
  have hevidence := body.atMost
  rw [← forest_proposalPages haccepted]
  unfold siteStructureRevisionCreate
  by_cases hempty : proposals = []
  · subst hempty
    rw [if_pos (.inr (.inl rfl))]
    exact iff_of_false nofun (fun h => h.1 rfl)
  have hsize : ¬ (50 < body.evidenceIds.length ∨ proposals.map proposalPage = [] ∨
      100 < (proposals.map proposalPage).length) := by
    rw [List.map_eq_nil_iff, List.length_map]
    rintro (hmany | hnil | hmany)
    · omega
    · exact hempty hnil
    · omega
  rw [if_neg hsize, and_iff_right hempty]
  have htree := validateSiteStructureTree_iff (keyed_proposalPages haccepted) body.evidenceIds
  rw [and_iff_right body.distinct] at htree
  rw [← htree]
  cases validateSiteStructureTree (proposals.map proposalPage) body.evidenceIds with
  | error raised => exact iff_of_false nofun nofun
  | ok u => exact iff_of_true rfl rfl

theorem create_proposalPages_ne_keyError (body : ImportBody) (key : String) :
    siteStructureRevisionCreate body (proposals.map proposalPage) ≠ .error (.keyError key) := by
  have htree := validateSiteStructureTree_ne_keyError (keyed_proposalPages haccepted)
    body.evidenceIds key
  unfold siteStructureRevisionCreate
  split
  · exact nofun
  cases hresult : validateSiteStructureTree (proposals.map proposalPage) body.evidenceIds with
  | error raised =>
    intro h
    rw [hresult] at htree
    exact htree (congrArg Except.error (Except.error.inj h))
  | ok u => exact nofun

/-- The import of accepted proposals succeeds if and only if they are importable, and is refused
otherwise. -/
theorem aiStructureBody_stored (huuid : ∀ u : Uuid, uuid u.str = some u) (body : ImportBody) :
    let pages := Json.list (proposals.map Proposal.toJson)
    ((aiStructureBody lower uuid body [("pages", pages)]).isOk = true ↔ Importable proposals) ∧
      (¬ Importable proposals →
        aiStructureBody lower uuid body [("pages", pages)] = .error notImportable) := by
  intro pages
  have hread : (proposals.map Proposal.toJson).mapM (modelValidate uuid) = some proposals :=
    mapM_map_some (fun p hp => modelValidate_toJson huuid (haccepted.valid p hp))
  have himportable : Importable proposals ↔
      (∀ p ∈ proposals, fieldsValid (proposalPage p) = true ∧ p.blockIds.Nodup) ∧
        (siteStructureRevisionCreate body (proposals.map proposalPage)).isOk = true := by
    have hfields := fun p hp => fieldsValid_proposalPage (haccepted.valid p hp)
    rw [create_proposalPages haccepted]
    constructor
    · intro h
      exact ⟨fun p hp => ⟨(hfields p hp).mpr ⟨h.keys p hp, h.purposes p hp, h.kits p hp,
        h.notes p hp⟩, h.blocks p hp⟩, h.nonempty, h.acyclic⟩
    · rintro ⟨heach, hnonempty, hacyclic⟩
      have hall := fun p hp => (hfields p hp).mp (heach p hp).1
      exact ⟨hnonempty, fun p hp => (hall p hp).1, fun p hp => (hall p hp).2.1,
        fun p hp => (hall p hp).2.2.1, fun p hp => (heach p hp).2, fun p hp => (hall p hp).2.2.2,
        hacyclic⟩
  rw [himportable]
  unfold aiStructureBody
  rw [Json.get?_cons_self, Option.getD_some]
  simp only [pages, hread]
  cases hpages : proposals.mapM (fun p => sitePageIn lower (proposalPage p)) with
  | error raised =>
    have hnot : ¬ ∀ p ∈ proposals, fieldsValid (proposalPage p) = true ∧ p.blockIds.Nodup :=
      fun hall => by
        rw [(pages_eq_ok haccepted _).mpr ⟨rfl, hall⟩] at hpages
        cases hpages
    exact ⟨iff_of_false nofun (fun h => hnot h.1), fun _ => rfl⟩
  | ok pages =>
    obtain ⟨rfl, hall⟩ := (pages_eq_ok haccepted pages).mp hpages
    rw [and_iff_right hall]
    dsimp only
    cases hcreate : siteStructureRevisionCreate body (proposals.map proposalPage) with
    | error raised =>
      have hraised := create_proposalPages_ne_keyError haccepted body
      rw [hcreate] at hraised
      cases raised with
      | keyError key => exact absurd rfl (hraised key)
      | _ => exact ⟨iff_of_false nofun nofun, fun _ => rfl⟩
    | ok created => exact ⟨iff_of_true rfl rfl, fun h => absurd rfl h⟩

end

/-- **The import of an architecture.** An output that has been accepted can be imported as a draft
structure if and only if its proposals keep what the schema of a structure asks besides; otherwise
the import is refused. -/
theorem proposal_imported {lower : String → String} {uuid : String → Option Uuid}
    (huuid : ∀ u : Uuid, uuid u.str = some u) {ctx : ProposalContext}
    {output : List (String × Json)} {result : List Json}
    (h : validateProposal lower uuid ctx output = .ok result) (body : ImportBody) :
    ∃ proposals, result = proposals.map Proposal.toJson ∧
      ((aiStructureBody lower uuid body [("pages", .list result)]).isOk = true ↔
        Importable proposals) ∧
      (¬ Importable proposals →
        aiStructureBody lower uuid body [("pages", .list result)] = .error notImportable) := by
  obtain ⟨proposals, rfl, haccepted, _⟩ := validateProposal_eq_ok h
  exact ⟨proposals, rfl, aiStructureBody_stored haccepted huuid body⟩

/-! ## Two outputs -/

def localCatalog : ProposalContext := ⟨[], [], [], [("service-local-v1", ["hero"])]⟩

def homeProposal : Proposal :=
  ⟨"home", "Ремонт", "", "", [], none, "Главная", "/", [], [], [], "service-local-v1", ["hero"], []⟩

/-- Its key is no key of a page. -/
def cyrillicProposal : Proposal := { homeProposal with key := "Главная" }

def outputOf (proposals : List Proposal) : List (String × Json) :=
  [("pages", .list (proposals.map Proposal.toJson))]

def newImport : ImportBody := ⟨1, [], by decide, List.nodup_nil⟩

theorem proposal_imported_home :
    ∃ proposals, [homeProposal.toJson] = proposals.map Proposal.toJson ∧
      ((aiStructureBody id Uuid.ofText newImport [("pages", .list [homeProposal.toJson])]).isOk
        = true ↔ Importable proposals) ∧
      (¬ Importable proposals →
        aiStructureBody id Uuid.ofText newImport [("pages", .list [homeProposal.toJson])]
          = .error notImportable) :=
  @proposal_imported id Uuid.ofText ofText_str localCatalog (outputOf [homeProposal])
    [homeProposal.toJson] rfl newImport

theorem proposal_not_imported :
    (validateProposal id Uuid.ofText localCatalog (outputOf [cyrillicProposal])).isOk = true ∧
      aiStructureBody id Uuid.ofText newImport (outputOf [cyrillicProposal])
        = .error notImportable := by
  constructor
  · rfl
  · rfl

end MegaPanel.SiteStructure
