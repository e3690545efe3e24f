import MegaPanel.PageDraft.Model
import MegaPanel.PagePlans.Model
import MegaPanel.Rendering.Templates

set_option autoImplicit false

/-! # From a plan to the site

A draft is generated from an approved plan and a revision of the facts (`services/generation.py`),
checked, and applied to the site (`api/v1/projects.py`). The claims that a plan binds to slots are
placed as texts; the plan names them by their position in the facts. The place of the plan and the
service of its facts get into the context of the site, from which the templates of all pages are
filled.

`str` is Python's `str` of a value that is not a text. The blocks of a kit (with the hashes and the
theme of the project), the hash of a manifest, and what QA finds beyond the claims are parameters or
inputs. The author, the design profile and the media are looked at only as far as they refuse.
-/

namespace MegaPanel.PagePlans

open MegaPanel.Lib MegaPanel.Lib.Text
open MegaPanel.BulkEdit (truthy)
open MegaPanel.PageDraft (DraftState)
open MegaPanel.Rendering (BlockDef PageMedia)
open MegaPanel.SiteManifest (Design Verdict QaOverride protectedContactFields)
open MegaPanel.SiteStructure (PlanId PlanState)

abbrev DraftId := Nat

variable (lib : Library) (str : Json → String)

/-! ## Facts and places -/

/-- `dict(values.get(key) or {})` -/
def dictAt (values : List (String × Json)) (key : String) : List (String × Json) :=
  match Json.get? values key with
  | some (.dict entries) => entries
  | _ => []

/-- The contacts of `_public_fact_values`. -/
def publicContacts (values : List (String × Json)) : List (String × Json) :=
  (dictAt values "contacts").filter (fun e =>
    decide (e.1 ∉ protectedContactFields ++ ["email", "private_lead_email"]))

/-- The texts of a list. -/
def textsAt (values : List (String × Json)) (key : String) : List String :=
  match Json.get? values key with
  | some (.list items) => items.filterMap (fun v => match v with
    | .str text => some text
    | _ => none)
  | _ => []

/-- `_service_from_facts` -/
def serviceFromFacts (values : List (String × Json)) : String :=
  let service := strip (textAt values "service")
  if service ≠ "" then service
  else (((textsAt values "services").map strip).find? (fun text => decide (text ≠ ""))).getD ""

/-- `fact_values.get("service") or (fact_values.get("services") or ["Услуги"])[0]` -/
def contextService (values : List (String × Json)) : String :=
  let service := textAt values "service"
  if service ≠ "" then service else (textsAt values "services").headD "Услуги"

def isPrimary (item : List (String × Json)) : Bool := Json.isStr (Json.get? item "role") "primary"

/-- `_primary_geo`: the first place of the snapshot with the role, `{}` without one. -/
def primaryGeo (geo : List (String × Json)) : List (String × Json) :=
  match Json.get? geo "items" with
  | some (.list items) =>
    ((items.filterMap (fun v => match v with
      | .dict item => some item
      | _ => none)).find? isPrimary).getD []
  | _ => []

/-- `forms.get(form) or primary.get("name", "")` -/
def cityForm (primary : List (String × Json)) (form : String) : String :=
  let text := textAt (dictAt primary "forms") form
  if text ≠ "" then text else textAt primary "name"

/-- The place and the service of a page, by the keys of the context. -/
def placeContext (values geo : List (String × Json)) : List (String × Json) :=
  let primary := primaryGeo geo
  [("service", .str (contextService values)), ("city_nom", .str (cityForm primary "nom")),
    ("city_gen", .str (cityForm primary "gen")), ("city_prep", .str (cityForm primary "prep")),
    ("city_dat", .str (cityForm primary "dat"))]

/-- The `context` of `apply_page_draft`. -/
def applyContext (domain : String) (values geo : List (String × Json)) : List (String × Json) :=
  [("domain", .str domain), ("phone", .str (textAt (publicContacts values) "phone"))] ++
    placeContext values geo

/-! ## Pages -/

/-- `PageManifest`, with the fields that are rendered and the design. -/
structure PageManifest extends Rendering.PageManifest where
  service : String
  geoId : Option String
  design : Option Design
  /-- `(schema_org or {}).get("faq")` -/
  customFaq : Option Json
  /-- `props.get("items")` of the block `faq`. -/
  faqItems : Option Json

/-- `input_snapshot` of a draft. -/
structure InputSnapshot where
  projectDomain : Option String
  factRevisionId : FactRevisionId
  facts : List (String × Json)
  keywordSnapshot : List (String × Json)
  geoSnapshot : List (String × Json)
  kitKey : String
  planVersion : Nat
  claimSlotBindings : List ClaimSlotBinding
  commercialFactKey : Option Json
  design : Option Design

inductive GenerationError
  | valueError (message : String)
  /-- A missing kit, or a key that is not hashable. -/
  | other
  deriving DecidableEq

/-- The blocks of the kit that a plan selects, in its order. -/
def selectBlocks (blocks : List BlockDef) (selection : BlockSelection) :
    Except GenerationError (List BlockDef) :=
  match (Json.get? selection.entries "blocks").filter (fun v => decide (v ≠ .null)) with
  | none => .ok blocks
  | some v =>
    match selectedBlocks (blocks.map (·.type)) v with
    | none => .error (.valueError "PagePlan contains an invalid curated block selection")
    | some ids => .ok (ids.zipIdx.filterMap (fun p =>
      (blocks.find? (fun block => block.type = p.1)).map (fun block =>
        { block with order := p.2 })))

/-- `_COMMERCIAL_FACT_TITLES` -/
def commercialFactTitles : List (String × String) :=
  [("company_history", "О компании"), ("mission", "Миссия компании"),
    ("legal_entities", "Услуги для юридических лиц"), ("payment_terms", "Оплата и условия")]

/-- The fact that `commercial_fact_key` names: its text, and the title that goes with it. -/
def commercialCopy (values : List (String × Json)) :
    Option Json → Except GenerationError (String × Option String)
  | some (.str key) =>
    let copy :=
      match (Json.get? values key).filter truthy with
      | none => ""
      | some (.str text) => strip text
      | some v => strip (str v)
    .ok (copy, commercialFactTitles.lookup key)
  -- a key that is not hashable raises a `TypeError`
  | some (.list _) => .error .other
  | some (.dict _) => .error .other
  | _ => .ok ("", none)

/-- `block_slot_values` with one more text. -/
def placeValue (values : Rendering.Dict (Rendering.Dict (Option String)))
    (blockId slot text : String) : Rendering.Dict (Rendering.Dict (Option String)) :=
  match values with
  | [] => [(blockId, [(slot, some text)])]
  | (id, slots) :: rest =>
    if id = blockId then (id, slots ++ [(slot, some text)]) :: rest
    else (id, slots) :: placeValue rest blockId slot text

/-- The claims that are placed in the slots of their blocks. -/
def placeClaims (bindings : List ResolvedBinding) :
    Rendering.Dict (Rendering.Dict (Option String)) :=
  (bindings.filter (fun r => decide (r.binding.slot ≠ "unique_core"))).foldl
    (fun values r => placeValue values r.binding.blockId r.binding.slot r.claim) []

/-- The blocks of a kit, with the questions of the block `faq`. -/
structure Kit where
  blocks : List BlockDef
  faqItems : Option Json

/-- `create_page_draft` -/
def createPageDraft (kits : String → Option Kit) (domain : Option String) (plan : PagePlan)
    (facts : Facts) (design : Option Design) :
    Except GenerationError (PageManifest × InputSnapshot) :=
  let service := serviceFromFacts facts.values
  let primary := primaryGeo plan.geoSnapshot
  let commercialKey := Json.get? plan.sourceRefs "commercial_fact_key"
  match kits plan.kitKey with
  | none => .error .other
  | some kit =>
  match selectBlocks kit.blocks plan.blockSelection with
  | .error e => .error e
  | .ok blocks =>
  match resolveClaimSlotBindings lib plan.kitKey (blocks.map (·.type)) plan.blockSelection
      facts.values with
  | .error message => .error (.valueError message)
  | .ok bindings =>
  match commercialCopy str facts.values commercialKey with
  | .error e => .error e
  | .ok (copy, title) =>
    let claimCore := (bindings.find? (fun r => r.binding.slot = "unique_core")).map (·.claim)
    .ok
      ({ slug := plan.slug
         titleTemplate := title.elim "\x7bservice\x7d в \x7bcity_prep\x7d — \x7bdomain\x7d"
           (· ++ " — \x7bdomain\x7d")
         h1Template := title.getD "\x7bservice\x7d в \x7bcity_prep\x7d"
         metaDescriptionTemplate :=
           if title.isSome then String.ofList (copy.toList.take 170)
           else "\x7bservice\x7d в \x7bcity_prep\x7d. Контакты: \x7bphone\x7d"
         blocks := blocks
         uniqueCore := some (claimCore.getD
           (if copy ≠ "" then copy else textAt facts.values "unique_core"))
         blockSlotValues := placeClaims bindings
         media := []
         blockMedia := []
         author := none
         seed := plan.version
         service := if service = "" then "Услуги" else service
         geoId := if textAt primary "geo_id" = "" then none else some (textAt primary "geo_id")
         design := design
         customFaq := none
         faqItems := kit.faqItems },
       { projectDomain := domain
         factRevisionId := facts.id
         facts := facts.values
         keywordSnapshot := plan.keywordSnapshot
         geoSnapshot := plan.geoSnapshot
         kitKey := plan.kitKey
         planVersion := plan.version
         claimSlotBindings := bindings.map (·.binding)
         commercialFactKey := commercialKey
         design := design })

/-- The text at the place that a binding names. -/
def placedClaim (page : PageManifest) (b : ClaimSlotBinding) : Option String :=
  if b.slot = "unique_core" then page.uniqueCore
  else ((page.blockSlotValues.lookup b.blockId).bind (·.lookup b.slot)).join

/-! ## QA of the claims -/

/-- The check `claim_slot_contract` of `run_page_qa`: the claims of the snapshot's facts are those
that the page has. -/
def claimSlotContract (page : PageManifest) (snapshot : InputSnapshot) : Bool :=
  if snapshot.claimSlotBindings = [] then true
  else
    match resolveClaimSlotBindings lib snapshot.kitKey (page.blocks.map (·.type))
        ⟨[], snapshot.claimSlotBindings⟩ snapshot.facts with
    | .error _ => false
    | .ok bindings => bindings.all (fun r => decide (placedClaim page r.binding = some r.claim))

/-! ## Rows -/

/-- `page_drafts`; a run of QA is the hash of what it checked with its verdict. -/
structure PageDraft where
  pagePlanId : PlanId
  revision : Nat
  state : DraftState
  inputSnapshot : InputSnapshot
  pageManifest : PageManifest
  contentHash : String
  qaRuns : List (String × Verdict)
  lastQaVerdict : Option Verdict
  qaOverride : Option QaOverride
  appliedBy : Option UserId
  failureMessage : Option String

/-- `SiteManifest` -/
structure SiteManifest where
  domain : String
  locale : String
  cssVars : Rendering.Dict String
  design : Option Design
  branding : Option Rendering.SiteBranding
  pages : List PageManifest
  legal : List (String × Json)
  contacts : List (String × Json)
  context : List (String × Json)
  version : Nat

/-! ## Application -/

/-- What an application reads besides the draft, its plan, the facts and the domain: locale and
branding of the project, what the author or the design profile refuses, and the variables of the
kit. -/
structure ApplyInputs where
  locale : String
  branding : Option Rendering.SiteBranding
  refusal : Option HttpError
  cssVars : Rendering.Dict String

/-- The site's design and the page's design have different profiles. -/
def designsDiffer (manifest : SiteManifest) (page : PageManifest) : Bool :=
  match manifest.design, page.design with
  | some a, some b => decide (a.profileHash ≠ b.profileHash)
  | _, _ => false

/-- The manifest of the site after `apply_page_draft`, from the one before. -/
def applyManifest (inputs : ApplyInputs) (domain : String) (values geo : List (String × Json))
    (page : PageManifest) : Option SiteManifest → Except HttpError SiteManifest
  | none => .ok
      { domain := domain
        locale := inputs.locale
        cssVars := inputs.cssVars
        design := page.design
        branding := inputs.branding
        pages := [page]
        legal := dictAt values "legal"
        contacts := publicContacts values
        context := applyContext domain values geo
        version := 1 }
  | some manifest =>
    if designsDiffer manifest page = true then
      .error ⟨409, "Applied site uses another approved design profile"⟩
    else
      let firstDesign := manifest.design.isNone && page.design.isSome
      .ok { manifest with
        design := if firstDesign then page.design else manifest.design
        cssVars := if firstDesign then inputs.cssVars else manifest.cssVars
        pages := manifest.pages.filter (fun existing => decide (existing.slug ≠ page.slug)) ++
          [page]
        contacts := Json.merge (publicContacts values)
          (manifest.contacts.filter (fun e => decide (e.1 ∈ protectedContactFields)))
        legal := dictAt values "legal"
        context := Json.merge manifest.context (applyContext domain values geo)
        version := manifest.version + 1 }

/-! ## Drafts -/

/-- `_current_qa_run` finds a run. -/
def PageDraft.currentQa (draft : PageDraft) : Bool :=
  match draft.qaRuns.getLast? with
  | none => false
  | some run => decide (run.1 = draft.contentHash) && decide (some run.2 = draft.lastQaVerdict)

/-- `attach_draft_media`, with the asset or what refuses it. -/
def PageDraft.attachMedia (hash : PageManifest → String) (draft : PageDraft)
    (asset : Except HttpError PageMedia) : Except HttpError PageDraft :=
  if draft.state ≠ .draft then
    .error ⟨409, "Attach media before submitting the draft for review"⟩
  else
    asset.map (fun media =>
      let page := { draft.pageManifest with media := draft.pageManifest.media ++ [media] }
      { draft with
        pageManifest := page
        contentHash := hash page
        qaRuns := []
        lastQaVerdict := none
        qaOverride := none })

/-- `run_draft_qa`; `others` is the verdict of the other checks. -/
def PageDraft.runQa (draft : PageDraft) (others : Verdict) : Except HttpError PageDraft :=
  if draft.state ≠ .draft ∧ draft.state ≠ .review then
    .error ⟨409, "Only a candidate draft can be checked"⟩
  else
    let verdict :=
      if claimSlotContract lib draft.pageManifest draft.inputSnapshot then others else .block
    .ok { draft with
      qaRuns := draft.qaRuns ++ [(draft.contentHash, verdict)]
      lastQaVerdict := some verdict }

/-- `submit_draft_review` -/
def PageDraft.submitReview (draft : PageDraft) : Except HttpError PageDraft :=
  if draft.state ≠ .draft ∨ draft.currentQa = false then
    .error ⟨409, "Run QA for the current draft content before review"⟩
  else .ok { draft with state := .review }

/-- `reject_page_draft` -/
def PageDraft.reject (draft : PageDraft) (reason : Option String) : Except HttpError PageDraft :=
  if (stripOptional reason).getD "" = "" then .error ⟨400, "Provide a rejection reason"⟩
  else if draft.state ≠ .draft ∧ draft.state ≠ .review then
    .error ⟨409, "Only a candidate draft can be rejected"⟩
  else .ok { draft with state := .rejected, failureMessage := stripOptional reason }

/-- The checks of `apply_page_draft` on the draft. -/
def PageDraft.checkApply (draft : PageDraft) (override : Option QaOverride) :
    Except HttpError Unit :=
  if draft.state ≠ .review then .error ⟨409, "Submit the draft for review first"⟩
  else if draft.currentQa = false then
    .error ⟨409, "Run QA for the current draft content before apply"⟩
  else if draft.lastQaVerdict = some .block then .error ⟨409, "Resolve blocking QA findings"⟩
  else if draft.lastQaVerdict = some .warn ∧ override.isNone then
    .error ⟨409, "Provide an audited warning override"⟩
  else if draft.lastQaVerdict = none then .error ⟨409, "Run QA before apply"⟩
  else .ok ()

/-! ## What is generated, checked and applied -/

theorem createPageDraft_eq_ok {lib : Library} {str : Json → String} {kits : String → Option Kit}
    {domain : Option String} {plan : PagePlan} {facts : Facts} {design : Option Design}
    {made : PageManifest × InputSnapshot}
    (h : createPageDraft lib str kits domain plan facts design = .ok made) :
    made.2.factRevisionId = facts.id ∧ made.2.facts = facts.values ∧
      made.2.claimSlotBindings = plan.blockSelection.claimSlotBindings := by
  unfold createPageDraft at h
  dsimp only at h
  split at h
  · cases h
  split at h
  · cases h
  split at h
  · cases h
  next bindings hbindings =>
  split at h
  · cases h
  cases h
  exact ⟨rfl, rfl, (resolveClaimSlotBindings_eq_ok hbindings).1⟩

theorem placeContext_keys (values geo : List (String × Json)) :
    (placeContext values geo).map (·.1) =
      ["service", "city_nom", "city_gen", "city_prep", "city_dat"] := rfl

theorem placeContext_nodup (values geo : List (String × Json)) :
    ((placeContext values geo).map (·.1)).Nodup := by
  rw [placeContext_keys]
  decide

theorem applyContext_nodup (domain : String) (values geo : List (String × Json)) :
    ((applyContext domain values geo).map (·.1)).Nodup := by
  rw [applyContext, List.map_append, placeContext_keys]
  show (["domain", "phone"] ++ ["service", "city_nom", "city_gen", "city_prep", "city_dat"]).Nodup
  decide

theorem get?_of_mem {entries : List (String × Json)} (h : (entries.map (·.1)).Nodup)
    {e : String × Json} (he : e ∈ entries) : Json.get? entries e.1 = some e.2 := by
  induction entries with
  | nil => cases he
  | cons x rest ih =>
    rw [List.map_cons, List.nodup_cons] at h
    rcases List.mem_cons.mp he with rfl | he
    · exact Json.get?_cons_self e.1 e.2 rest
    have hne : x.1 ≠ e.1 := fun heq => h.1 (heq ▸ List.mem_map_of_mem he)
    rw [Json.get?_cons_ne hne]
    exact ih h.2 he

theorem applyManifest_spec {inputs : ApplyInputs} {domain : String}
    {values geo : List (String × Json)} {page : PageManifest} {site : Option SiteManifest}
    {manifest : SiteManifest}
    (h : applyManifest inputs domain values geo page site = .ok manifest) :
    manifest.legal = dictAt values "legal" ∧
      ∀ e ∈ applyContext domain values geo, Json.get? manifest.context e.1 = some e.2 := by
  have hnodup := applyContext_nodup domain values geo
  cases site with
  | none =>
    cases h
    exact ⟨rfl, fun e he => get?_of_mem hnodup he⟩
  | some old =>
    unfold applyManifest at h
    dsimp only at h
    split at h
    · cases h
    cases h
    refine ⟨rfl, fun e he => ?_⟩
    dsimp only
    rw [Json.get?_merge hnodup, get?_of_mem hnodup he]
    rfl

end MegaPanel.PagePlans
