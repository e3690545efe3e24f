import MegaPanel.BulkEdit.Model
import MegaPanel.SiteStructure.Model

set_option autoImplicit false

/-! # Page plans

The row of a page plan and what its routes do to it (`api/v1/projects.py`): it is created as a
draft, edited, submitted for review with snapshots of what it rests on, and then approved or
rejected. Each request is a function from the rows that it has read to the row that it writes; how
requests follow each other or overlap is the subject of the other modules of this directory.

JSON columns are the lists of their entries, `block_selection` with its bindings of claims apart
(every route writes these from typed values). The curated kits are a parameter (`Library`); what is
read of other tables (facts, selections, semantic targets) is an input.
-/

namespace MegaPanel.PagePlans

open MegaPanel.Lib
open MegaPanel.BulkEdit (truthy)
open MegaPanel.SiteStructure (Page PlanId PlanState Revision RevisionId headingsJson strings)

abbrev FactRevisionId := Nat

/-! ## Claims in slots -/

variable {kitKey : String} {blockIds : List String} {claims : List Json}

/-- What the code reads of the block library. -/
structure Library where
  /-- The keys of `list_kits()`. -/
  kitKeys : List String
  /-- The types of the blocks of `instantiate_kit_for_site`; `none` stands for an exception. -/
  blocks : String → Option (List String)
  /-- `max_length` of a slot in `block_slot_schema`. -/
  slotLength : String → String → String → Option Nat
  commercial : "service-local-v1" ∈ kitKeys

/-- `ClaimSlotBinding` -/
structure ClaimSlotBinding where
  blockId : String
  slot : String
  claimIndex : Nat
  deriving DecidableEq

/-- `block_selection` -/
structure BlockSelection where
  entries : List (String × Json)
  claimSlotBindings : List ClaimSlotBinding
  deriving DecidableEq

/-- A binding with the text of its claim. -/
structure ResolvedBinding where
  binding : ClaimSlotBinding
  claim : String
  deriving DecidableEq

/-- `facts.get("allowed_claims") or []`; `none` if it is not a list. -/
def allowedClaims (facts : List (String × Json)) : Option (List Json) :=
  match (Json.get? facts "allowed_claims").filter truthy with
  | none => some []
  | some (.list claims) => some claims
  | some _ => none

/-- The text of a claim. -/
def claimAt (values : List (String × Json)) (index : Nat) : Option String :=
  match (allowedClaims values).bind (fun claims => claims[index]?) with
  | some (.str claim) => some claim
  | _ => none

/-- One step of the loop of `resolve_claim_slot_bindings`, after the bindings `done`. -/
def resolveBinding (lib : Library) (kitKey : String) (blockIds : List String) (claims : List Json)
    (done : List ClaimSlotBinding) (b : ClaimSlotBinding) : Except String ResolvedBinding :=
  if b.blockId ∉ blockIds then .error "Claim slot binding target is invalid"
  else if done.any (fun d => decide ((d.blockId, d.slot) = (b.blockId, b.slot))) then
    .error "Claim slot bindings must target unique block slots"
  else if done.any (fun d => decide (d.claimIndex = b.claimIndex)) then
    .error "Claim slot bindings must reference unique confirmed claims"
  else
    match lib.slotLength kitKey b.blockId b.slot with
    | none => .error "Claim slot binding must target an editable curated text slot"
    | some maxLength =>
      match claims[b.claimIndex]? with
      | none => .error "Claim slot binding references an unavailable confirmed claim"
      | some (.str claim) =>
        if claim = "" then .error "Claim slot binding references an invalid confirmed claim"
        else if claim.length > maxLength then
          .error "Confirmed claim exceeds the curated slot length"
        else .ok ⟨b, claim⟩
      | some _ => .error "Claim slot binding references an invalid confirmed claim"

def resolveBindings (lib : Library) (kitKey : String) (blockIds : List String)
    (claims : List Json) :
    List ClaimSlotBinding → List ClaimSlotBinding → Except String (List ResolvedBinding)
  | _, [] => .ok []
  | done, b :: rest =>
    match resolveBinding lib kitKey blockIds claims done b with
    | .error message => .error message
    | .ok r => (resolveBindings lib kitKey blockIds claims (b :: done) rest).map (r :: ·)

/-- `resolve_claim_slot_bindings` -/
def resolveClaimSlotBindings (lib : Library) (kitKey : String) (blockIds : List String)
    (selection : BlockSelection) (facts : List (String × Json)) :
    Except String (List ResolvedBinding) :=
  if selection.claimSlotBindings.length > 20 then .error "Claim slot bindings are invalid"
  else
    match allowedClaims facts with
    | none => .error "Confirmed claims are invalid"
    | some claims => resolveBindings lib kitKey blockIds claims [] selection.claimSlotBindings

variable {lib : Library} {done : List ClaimSlotBinding}

theorem resolveBinding_eq_ok {b : ClaimSlotBinding} {r : ResolvedBinding}
    (h : resolveBinding lib kitKey blockIds claims done b = .ok r) :
    r.binding = b ∧ claims[b.claimIndex]? = some (.str r.claim) := by
  unfold resolveBinding at h
  split at h
  · cases h
  split at h
  · cases h
  split at h
  · cases h
  split at h
  · cases h
  split at h
  · cases h
  · next claim hclaim =>
    split_ifs at h
    cases h
    exact ⟨rfl, hclaim⟩
  · cases h

variable {rs : List ResolvedBinding}

theorem resolveBindings_eq_ok {bindings : List ClaimSlotBinding}
    (h : resolveBindings lib kitKey blockIds claims done bindings = .ok rs) :
    rs.map (·.binding) = bindings ∧
      ∀ r ∈ rs, claims[r.binding.claimIndex]? = some (.str r.claim) := by
  induction bindings generalizing done rs with
  | nil =>
    cases h
    exact ⟨rfl, fun r hr => by cases hr⟩
  | cons b rest ih =>
    unfold resolveBindings at h
    split at h
    · cases h
    next r hr =>
    obtain ⟨others, hothers, rfl⟩ := map_eq_ok h
    obtain ⟨hmap, hclaims⟩ := ih hothers
    obtain ⟨hbinding, hclaim⟩ := resolveBinding_eq_ok hr
    refine ⟨by rw [List.map_cons, hmap, hbinding], fun x hx => ?_⟩
    rcases List.mem_cons.mp hx with rfl | hx
    · rw [hbinding]
      exact hclaim
    · exact hclaims x hx

/-- What is resolved are the bindings of the plan, each with the claim at its position. -/
theorem resolveClaimSlotBindings_eq_ok {selection : BlockSelection} {facts : List (String × Json)}
    (h : resolveClaimSlotBindings lib kitKey blockIds selection facts = .ok rs) :
    rs.map (·.binding) = selection.claimSlotBindings ∧
      ∀ r ∈ rs, claimAt facts r.binding.claimIndex = some r.claim := by
  unfold resolveClaimSlotBindings at h
  split at h
  · cases h
  split at h
  · cases h
  next claims hallowed =>
  obtain ⟨hmap, hclaims⟩ := resolveBindings_eq_ok h
  refine ⟨hmap, fun r hr => ?_⟩
  rw [claimAt, hallowed, Option.bind_some, hclaims r hr]

/-- A list of distinct known texts, for the selection of blocks. -/
def selectedBlocks (available : List String) : Json → Option (List String)
  | .list items =>
    let ids := items.filterMap (fun v => match v with
      | .str id => some id
      | _ => none)
    if ids.length = items.length ∧ ids.Nodup ∧ ∀ id ∈ ids, id ∈ available then some ids else none
  | _ => none

/-- `_effective_plan_block_ids`, by the kit and the selection of a plan. -/
def effectiveBlockIds (lib : Library) (kitKey : String) (selection : BlockSelection) :
    Except String (List String) :=
  match lib.blocks kitKey with
  | none => .error "Curated kit is unavailable"
  | some available =>
    match (Json.get? selection.entries "blocks").filter (fun v => decide (v ≠ .null)) with
    | none => .ok available
    | some v =>
      match selectedBlocks available v with
      | none => .error "PagePlan contains an invalid curated block selection"
      | some ids => .ok ids

/-! ## Rows -/

/-- `page_plans` -/
structure PagePlan where
  projectId : ProjectId
  supersedesId : Option PlanId
  slug : String
  objective : String
  intent : Option String
  riskNotes : Option String
  kitKey : String
  blockSelection : BlockSelection
  sourceRefs : List (String × Json)
  factRevisionId : Option FactRevisionId
  keywordSnapshot : List (String × Json)
  geoSnapshot : List (String × Json)
  semanticTargetSnapshot : List (String × Json)
  state : PlanState
  version : Nat
  submittedAt : Option Time
  reviewedAt : Option Time
  reviewedBy : Option UserId
  decisionReason : Option String
  deriving DecidableEq

/-- A plan in draft or review. -/
def PagePlan.isOpen (plan : PagePlan) : Bool :=
  decide (plan.state = .draft ∨ plan.state = .review)

/-- A new draft, with what the routes that create plans choose. -/
def newPlan (projectId : ProjectId) (existing : Option (PlanId × PagePlan))
    (slug objective : String) (intent riskNotes : Option String) (kitKey : String)
    (blockSelection : BlockSelection) (sourceRefs : List (String × Json)) : PagePlan where
  projectId := projectId
  supersedesId := existing.map (·.1)
  slug := slug
  objective := objective
  intent := intent
  riskNotes := riskNotes
  kitKey := kitKey
  blockSelection := blockSelection
  sourceRefs := sourceRefs
  factRevisionId := none
  keywordSnapshot := []
  geoSnapshot := []
  semanticTargetSnapshot := []
  state := .draft
  version := existing.elim 1 (fun e => e.2.version + 1)
  submittedAt := none
  reviewedAt := none
  reviewedBy := none
  decisionReason := none

/-- A revision of the business facts. -/
structure Facts where
  id : FactRevisionId
  values : List (String × Json)

/-- `text.strip() if text else None` -/
def stripOptional (text : Option String) : Option String :=
  (text.filter (fun t => decide (t ≠ ""))).map Text.strip

/-! ## Creation -/

def claimSlotKey : String := "claim_slot_bindings"

def typedFieldMessage : String :=
  "Use the typed claim_slot_bindings field for claim placement"

def structureMessage : String :=
  "Approve a site structure revision before creating new PagePlans"

/-- `PagePlanCreate`, with a slug that is normalized; `semanticTarget` is its JSON. -/
structure PagePlanCreate where
  slug : String
  objective : String
  intent : Option String
  riskNotes : Option String
  kitKey : String
  blockSelection : List (String × Json)
  claimSlotBindings : List ClaimSlotBinding
  sourceRefs : List (String × Json)
  semanticTarget : Option Json

/-- `str(revision.id)` -/
def idText (id : Nat) : Json := .str (toString id)

def structureRefs (id : RevisionId) (revision : Revision) : List (String × Json) :=
  [("site_structure_revision_id", idText id), ("site_structure_version", .int revision.version)]

/-- `create_page_plan`, by the latest plan of the slug and the structure that is approved. -/
def createPagePlan (lib : Library) (projectId : ProjectId) (body : PagePlanCreate)
    (existing : Option (PlanId × PagePlan)) (approved : Option (RevisionId × Revision)) :
    Except HttpError PagePlan :=
  if body.kitKey ∉ lib.kitKeys then .error ⟨400, "Unknown curated kit"⟩
  else if (Json.get? body.blockSelection claimSlotKey).isSome then
    .error ⟨422, typedFieldMessage⟩
  else if existing.any (·.2.isOpen) then
    .error ⟨409, "Finish or reject the current page plan first"⟩
  else
    match approved with
    | none => .error ⟨409, structureMessage⟩
    | some (id, revision) =>
      let refs := body.semanticTarget.elim body.sourceRefs
        (Json.setEntry body.sourceRefs "semantic_target")
      .ok (newPlan projectId existing body.slug (Text.strip body.objective)
        (stripOptional body.intent) (stripOptional body.riskNotes) body.kitKey
        ⟨body.blockSelection, body.claimSlotBindings⟩
        (Json.merge refs (structureRefs id revision)))

/-- `str(values.get(key) or "")`; the profile has a text there, or nothing. -/
def textAt (values : List (String × Json)) (key : String) : String :=
  match Json.get? values key with
  | some (.str text) => text
  | _ => ""

/-- `_COMMERCIAL_PAGE_RECIPES`: slug, title and key of the fact. -/
def commercialRecipes : List (String × String × String) :=
  [("/about", "О компании", "company_history"),
    ("/history", "История компании", "company_history"),
    ("/mission", "Миссия компании", "mission"),
    ("/business", "Услуги для юридических лиц", "legal_entities"),
    ("/payment", "Оплата и условия", "payment_terms")]

def commercialBlocks : List String :=
  ["hero", "trust_bar", "faq", "contacts", "lead_form", "footer"]

def commercialRiskNotes : String :=
  "Создано из подтверждённых business facts; до публикации требуется " ++
    "review, QA и candidate preview."

/-- The plan of a recipe. -/
def commercialPlan (projectId : ProjectId) (facts : Facts) (id : RevisionId) (revision : Revision)
    (recipe : String × String × String) : PagePlan :=
  let service := textAt facts.values "service"
  newPlan projectId none recipe.1
    (recipe.2.1 ++ ": подтверждённые facts для " ++ (if service = "" then "Услуги" else service))
    (some "commercial") (some commercialRiskNotes) "service-local-v1"
    ⟨[("blocks", strings commercialBlocks)], []⟩
    ([("commercial_fact_key", .str recipe.2.2), ("fact_revision_id", idText facts.id)] ++
      structureRefs id revision)

/-- `create_commercial_page_plans`; `existingSlugs` are those of plans that are not rejected. -/
def createCommercialPagePlans (projectId : ProjectId) (facts : Option Facts)
    (existingSlugs : List String) (approved : Option (RevisionId × Revision)) :
    Except HttpError (List PagePlan) :=
  match facts with
  | none => .error ⟨409, "Confirm business facts first"⟩
  | some facts =>
    let recipes := commercialRecipes.filter (fun recipe =>
      decide (recipe.1 ∉ existingSlugs)
        && decide (Text.strip (textAt facts.values recipe.2.2) ≠ ""))
    if recipes = [] then .ok []
    else
      match approved with
      | none => .error ⟨409, structureMessage⟩
      | some (id, revision) => .ok (recipes.map (commercialPlan projectId facts id revision))

def seoBlueprint (page : Page) : Json :=
  .dict [("title", .str page.title), ("meta_description", .str page.metaDescription),
    ("h1", .str page.h1), ("heading_outline", headingsJson page.headingOutline)]

def familyKey : String := "family_materialization"

/-- `_page_plan_from_structure` -/
def pagePlanFromStructure (id : RevisionId) (revision : Revision) (page : Page)
    (projectId : ProjectId) (existing : Option (PlanId × PagePlan))
    (familyMaterialization : Option (List (String × Json))) : PagePlan :=
  newPlan projectId existing page.slug page.objective page.intent page.riskNotes page.kitKey
    ⟨[("blocks", strings page.blockIds)], []⟩
    (structureRefs id revision ++
      [("page_key", .str page.key), ("parent_key", SiteStructure.optional page.parentKey),
        ("seo_blueprint", seoBlueprint page)] ++
      familyMaterialization.toList.map (fun m => (familyKey, .dict m)))

/-! ## Edit -/

/-- `PagePlanUpdate`; `semanticTarget` is its JSON. -/
structure PagePlanUpdate where
  objective : Option String
  intent : Option String
  riskNotes : Option String
  kitKey : Option String
  blockSelection : Option (List (String × Json))
  claimSlotBindings : Option (List ClaimSlotBinding)
  sourceRefs : Option (List (String × Json))
  semanticTarget : Option Json
  version : Nat

/-- `update_page_plan` -/
def updatePagePlan (plan : PagePlan) (body : PagePlanUpdate) : Except HttpError PagePlan :=
  if plan.state ≠ .draft then .error ⟨409, "Create a successor draft to change this plan"⟩
  else if body.version ≠ plan.version then .error ⟨409, "Page plan changed; reload it"⟩
  else if body.blockSelection.any (fun s => (Json.get? s claimSlotKey).isSome) then
    .error ⟨422, typedFieldMessage⟩
  else
    let sourceRefs := body.sourceRefs.getD plan.sourceRefs
    .ok { plan with
      objective := body.objective.getD plan.objective
      intent := body.intent.or plan.intent
      riskNotes := body.riskNotes.or plan.riskNotes
      kitKey := body.kitKey.getD plan.kitKey
      blockSelection :=
        { entries := body.blockSelection.getD plan.blockSelection.entries
          claimSlotBindings := body.claimSlotBindings.getD plan.blockSelection.claimSlotBindings }
      sourceRefs := body.semanticTarget.elim sourceRefs (Json.setEntry sourceRefs "semantic_target")
      version := plan.version + 1 }

/-! ## Submission -/

/-- What a submission reads besides: the confirmed facts, the selections of keywords and places with
their blockers, and the snapshot of the semantic target that the plan names, if it can be made. -/
structure SubmitContext where
  facts : Option Facts
  keywords : List (String × Json)
  geo : List (String × Json)
  blockers : List String
  semanticTarget : Except HttpError (List (String × Json))

/-- `resolve_claim_slot_bindings`, as a submission calls it. -/
def resolvePlanClaims (lib : Library) (plan : PagePlan) (facts : List (String × Json)) :
    Except String (List ResolvedBinding) :=
  match effectiveBlockIds lib plan.kitKey plan.blockSelection with
  | .error message => .error message
  | .ok blockIds => resolveClaimSlotBindings lib plan.kitKey blockIds plan.blockSelection facts

/-- `submit_page_plan_review` -/
def submitPagePlanReview (lib : Library) (plan : PagePlan) (ctx : SubmitContext) (now : Time) :
    Except HttpError PagePlan :=
  if plan.state ≠ .draft then .error ⟨409, "Only draft plans can be submitted"⟩
  else
    match ctx.facts with
    | none => .error ⟨409, "Confirm business facts first"⟩
    | some facts =>
      match resolvePlanClaims lib plan facts.values with
      | .error message => .error ⟨422, message⟩
      | .ok _ =>
        if ctx.blockers ≠ [] then .error ⟨409, ", ".intercalate ctx.blockers⟩
        else
          let rawTarget := (Json.get? plan.sourceRefs "semantic_target").filter truthy
          match if rawTarget.isSome then ctx.semanticTarget else .ok [] with
          | .error e => .error e
          | .ok target =>
            .ok { plan with
              factRevisionId := some facts.id
              keywordSnapshot := ctx.keywords
              geoSnapshot := ctx.geo
              semanticTargetSnapshot := target
              state := .review
              submittedAt := some now
              version := plan.version + 1 }

/-! ## Decision -/

/-- `approve_page_plan` -/
def approvePagePlan (plan : PagePlan) (user : UserId) (reason : Option String) (now : Time) :
    Except HttpError PagePlan :=
  if plan.state ≠ .review then .error ⟨409, "Only plans under review can be approved"⟩
  else .ok { plan with
    state := .approved
    reviewedAt := some now
    reviewedBy := some user
    decisionReason := stripOptional reason }

/-- `reject_page_plan` -/
def rejectPagePlan (plan : PagePlan) (user : UserId) (reason : Option String) (now : Time) :
    Except HttpError PagePlan :=
  if (stripOptional reason).getD "" = "" then .error ⟨400, "Provide a rejection reason"⟩
  else if plan.state ≠ .review then .error ⟨409, "Only plans under review can be rejected"⟩
  else .ok { plan with
    state := .rejected
    reviewedAt := some now
    reviewedBy := some user
    decisionReason := stripOptional reason }

/-! ## What a creation creates -/

variable {projectId : ProjectId} {body : PagePlanCreate} {existing : Option (PlanId × PagePlan)}
  {plan : PagePlan}

theorem createPagePlan_eq_ok {approved : Option (RevisionId × Revision)}
    (h : createPagePlan lib projectId body existing approved = .ok plan) :
    existing.any (·.2.isOpen) = false ∧ plan.state = .draft ∧ plan.slug = body.slug ∧
      plan.version = existing.elim 1 (fun e => e.2.version + 1) := by
  unfold createPagePlan at h
  split at h
  · cases h
  split at h
  · cases h
  split at h
  · cases h
  next hopen =>
  split at h
  · cases h
  · cases h
    exact ⟨Bool.eq_false_iff.mpr hopen, rfl, rfl, rfl⟩

theorem createPagePlan_ok {id : RevisionId} {revision : Revision} (hkit : body.kitKey ∈ lib.kitKeys)
    (htyped : Json.get? body.blockSelection claimSlotKey = none)
    (hclosed : existing.any (·.2.isOpen) = false) :
    ∃ plan, createPagePlan lib projectId body existing (some (id, revision)) = .ok plan := by
  unfold createPagePlan
  rw [if_neg (not_not.mpr hkit), htyped, if_neg (by decide), hclosed, if_neg (by decide)]
  exact ⟨_, rfl⟩

/-- A commercial page is planned by a recipe whose fact is given, at version 1. -/
theorem createCommercialPagePlans_eq_ok {facts : Option Facts} {existingSlugs : List String}
    {approved : Option (RevisionId × Revision)} {plans : List PagePlan}
    (h : createCommercialPagePlans projectId facts existingSlugs approved = .ok plans) :
    ∃ f, facts = some f ∧ ∀ plan ∈ plans, approved.isSome = true ∧ ∃ recipe ∈ commercialRecipes,
      recipe.1 ∉ existingSlugs ∧ Text.strip (textAt f.values recipe.2.2) ≠ "" ∧
      plan.slug = recipe.1 ∧ plan.state = .draft ∧ plan.version = 1 := by
  unfold createCommercialPagePlans at h
  split at h
  · cases h
  next f =>
  refine ⟨f, rfl, ?_⟩
  dsimp only at h
  split at h
  · cases h
    intro plan hplan
    cases hplan
  split at h
  · cases h
  next id revision =>
  cases h
  intro plan hplan
  obtain ⟨recipe, hrecipe, rfl⟩ := List.mem_map.mp hplan
  obtain ⟨hmem, hwanted⟩ := List.mem_filter.mp hrecipe
  obtain ⟨hfree, htext⟩ := Bool.and_eq_true_iff.mp hwanted
  exact ⟨rfl, recipe, hmem, of_decide_eq_true hfree, of_decide_eq_true htext, rfl, rfl, rfl⟩

/-! ## What the requests on one plan do -/

variable {plan' : PagePlan} {now : Time} {user : UserId} {reason : Option String}

theorem updatePagePlan_eq_ok {body : PagePlanUpdate} (h : updatePagePlan plan body = .ok plan') :
    plan.state = .draft ∧ body.version = plan.version ∧ plan'.state = .draft ∧
      plan'.version = plan.version + 1 ∧ plan'.slug = plan.slug ∧
      plan'.projectId = plan.projectId := by
  unfold updatePagePlan at h
  split_ifs at h with hstate hversion
  cases h
  exact ⟨not_not.mp hstate, not_not.mp hversion, not_not.mp hstate, rfl, rfl, rfl⟩

theorem submitPagePlanReview_eq_ok {ctx : SubmitContext}
    (h : submitPagePlanReview lib plan ctx now = .ok plan') :
    plan.state = .draft ∧ ∃ facts target,
      ctx.facts = some facts ∧ (resolvePlanClaims lib plan facts.values).isOk = true ∧
      plan' = { plan with
        factRevisionId := some facts.id
        keywordSnapshot := ctx.keywords
        geoSnapshot := ctx.geo
        semanticTargetSnapshot := target
        state := .review
        submittedAt := some now
        version := plan.version + 1 } := by
  unfold submitPagePlanReview at h
  split at h
  · cases h
  next hstate =>
  split at h
  · cases h
  next facts hfacts =>
  split at h
  · cases h
  next resolved hresolved =>
  split_ifs at h
  dsimp only at h
  split at h
  · cases h
  next target htarget =>
  cases h
  exact ⟨not_not.mp hstate, facts, target, hfacts, by rw [hresolved]; rfl, rfl⟩

theorem approvePagePlan_eq_ok (h : approvePagePlan plan user reason now = .ok plan') :
    plan.state = .review ∧ plan' = { plan with
      state := .approved
      reviewedAt := some now
      reviewedBy := some user
      decisionReason := stripOptional reason } := by
  unfold approvePagePlan at h
  split_ifs at h with hstate
  cases h
  exact ⟨not_not.mp hstate, rfl⟩

theorem rejectPagePlan_eq_ok (h : rejectPagePlan plan user reason now = .ok plan') :
    plan.state = .review ∧ plan' = { plan with
      state := .rejected
      reviewedAt := some now
      reviewedBy := some user
      decisionReason := stripOptional reason } := by
  unfold rejectPagePlan at h
  split_ifs at h with hreason hstate
  cases h
  exact ⟨not_not.mp hstate, rfl⟩

end MegaPanel.PagePlans
