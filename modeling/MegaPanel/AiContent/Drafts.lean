import MegaPanel.AiContent.Answers
import MegaPanel.AiRuns.Model
import MegaPanel.Candidate.Metadata

set_option autoImplicit false

/-! # Page drafts from AI runs

The four routes that put an answer into a draft (`api/v1/ai_content.py` and
`api/v1/intent_generation.py`): from an approved SEO brief, from a page copy, from approved texts for
the slots of a block, and from an approved proposal for an intent. Each writes `ai_provenance` into
the snapshot of its draft; `run_page_qa` reads it there.

The adapters answer with the provider of their connection and the model of the request. Prices,
limits, the operator's confirmations and the other checks on the way to the provider are one input
(`Reads.refusal`), as are the rows that a request reads. A request that ends with an exception which
is not an `HTTPException` has the status 500. Of a draft its revision and its hash are left out.
-/

namespace MegaPanel.AiContent

open MegaPanel.Lib MegaPanel.Lib.Text
open MegaPanel.AiBudget (RunId Kind)
open MegaPanel.AiRuns (Decision)
open MegaPanel.BulkEdit (truthy)
open MegaPanel.Candidate (IndexState)
open MegaPanel.PagePlans (DraftId Facts FactRevisionId InputSnapshot Kit PageManifest PagePlan
  cityForm createPageDraft idText primaryGeo serviceFromFacts textAt)
open MegaPanel.PagePlans.Catalog (blockSlotSchema)
open MegaPanel.Redaction (safeProviderContext)
open MegaPanel.Rendering (Dict)
open MegaPanel.SiteManifest (Design Verdict)
open MegaPanel.SiteStructure (PlanId)

variable (env : Env)

def internalError : HttpError := ⟨500, "Internal Server Error"⟩

/-! ## Rows -/

/-- A confirmed row of `project_fact_revisions`. -/
structure FactRow extends Facts where
  factsHash : String

/-- An approved design profile: its snapshot, and what an intent proposal reads of it. -/
structure DesignProfile where
  snapshot : Design
  revisionId : String
  allowedKits : List String
  requiredBlocks : List String
  resolved : List (String × Json)

/-- What a proposal for an intent is bound to besides its sources. -/
structure IntentBinding where
  semanticTargetSnapshot : List (String × Json)
  designProfileHash : Option String
  designProfileRevisionId : String
  kitKey : String
  deriving DecidableEq

/-- `source_binding` -/
structure SourceBinding where
  pagePlanId : PlanId
  planVersion : Nat
  factRevisionId : FactRevisionId
  factsHash : String
  intent : Option IntentBinding
  deriving DecidableEq

/-- `AIRunStatus` -/
inductive Status
  | reserved
  | running
  | pendingApproval
  | approved
  | rejected
  | completed
  | failed
  deriving DecidableEq

/-- `output` of a run, without the draft. -/
inductive Output
  | none
  | brief (brief : SeoBrief)
  | copy (copy : PageCopy)
  | slotCopy (proposal : BlockSlotCopy)
  | proposal (proposal : IntentProposal)

/-- `ai_runs`; the columns of provider and model may be empty. -/
structure AIRun where
  action : Kind
  status : Status
  providerId : Option String
  modelId : Option String
  promptId : String
  promptVersion : String
  promptHash : String
  sourceBinding : Option SourceBinding
  output : Output
  pageDraftId : Option DraftId
  costUsd : Json
  operatorDecision : Option Decision

/-- The fields of `PageManifest` that are rendered, and `index_state`. -/
structure DraftPage where
  manifest : PageManifest
  indexState : IndexState

/-- `input_snapshot` of a draft from a run. -/
structure AiSnapshot where
  base : InputSnapshot
  generatorMeta : List (String × Json)
  seoBrief : Option SeoBrief
  intentGeneration : Option IntentProposal
  aiProvenance : List (String × Json)

/-- `page_drafts`, with the route that has created the row. -/
structure Draft where
  route : Kind
  pagePlanId : PlanId
  failed : Bool
  inputSnapshot : AiSnapshot
  pageManifest : DraftPage

/-! ## QA of the provenance -/

structure Finding where
  verdict : Verdict
  rule : String
  evidence : String
  deriving DecidableEq

def requiredProvenance : List String :=
  ["provider_id", "model_id", "prompt_id", "prompt_version", "prompt_hash"]

def missingProvenance (provenance : List (String × Json)) : List String :=
  requiredProvenance.filter (fun field => !(Json.get? provenance field).any truthy)

/-- `sorted(fact_keys - known_fact_keys)` -/
def unknownFactKeys (facts provenance : List (String × Json)) : List String :=
  ((textItems (itemsAt provenance "fact_keys")).eraseDups.filter (fun key =>
    (Json.get? facts key).isNone)).mergeSort (fun a b => decide (a ≤ b))

/-- The checks of `run_page_qa` that read `ai_provenance`, in order. -/
def provenanceFindings (page : DraftPage) (snapshot : AiSnapshot) : List Finding :=
  let missing := missingProvenance snapshot.aiProvenance
  let unknown := unknownFactKeys snapshot.base.facts snapshot.aiProvenance
  if snapshot.aiProvenance = [] then []
  else
    (if missing = [] then []
      else [⟨.block, "ai_provenance", "AI provenance is missing: " ++ ", ".intercalate missing⟩]) ++
    (if unknown = [] then []
      else [⟨.block, "ai_fact_provenance",
        "AI copy cites unknown facts: " ++ ", ".intercalate unknown⟩]) ++
    (if page.indexState = .noindex then []
      else [⟨.block, "ai_index_policy",
        "AI-generated content remains noindex until an approved indexing policy applies"⟩])

/-! ## The deterministic draft -/

/-- `generator_meta` of `create_page_draft` -/
def deterministicMeta (plan : PagePlan) (facts : Facts) (design : Option Design) :
    List (String × Json) :=
  let service := serviceFromFacts facts.values
  let primary := primaryGeo plan.geoSnapshot
  let title :=
    if textAt primary "name" = "" then service
    else strip (service ++ " в " ++ cityForm primary "prep")
  [("generator_version", .str "deterministic-v1"),
    ("kit", .dict [("kit_key", .str plan.kitKey), ("library_version", .str "1.0.0"),
      ("service", .str (if service = "" then "Услуги" else service))]),
    ("design_profile_hash", (design.bind (·.profileHash)).elim .null .str),
    ("title_hint", .str title), ("tokens", .int 0), ("cost_usd", .int 0)]

/-- What `create_page_draft` returns: the page and its snapshot with `generator_meta`. -/
structure Deterministic where
  page : PageManifest
  snapshot : InputSnapshot
  generatorMeta : List (String × Json)

def deterministicDraft (domain : Option String) (plan : PagePlan) (facts : Facts)
    (design : Option Design) : Except HttpError Deterministic :=
  match createPageDraft env.package.library env.str env.kits domain plan facts design with
  | .error _ => .error internalError
  | .ok (page, snapshot) => .ok ⟨page, snapshot, deterministicMeta plan facts design⟩

/-! ## The way to the provider -/

/-- The rows that a request reads, and the checks that are not modelled. -/
structure Reads where
  project : List (String × Json)
  domain : Option String
  plan : PlanId → Option PagePlan
  facts : FactRevisionId → Option FactRow
  connection : Option ProviderConnection
  design : Option DesignProfile
  refusal : Option HttpError

def planFields (planId : PlanId) (plan : PagePlan) : List (String × Json) :=
  [("id", idText planId), ("slug", .str plan.slug), ("objective", .str plan.objective),
    ("intent", plan.intent.elim .null .str), ("kit_key", .str plan.kitKey)]

/-- The `snapshot` of `_prepare_draft_context`. -/
def draftSnapshot (reads : Reads) (planId : PlanId) (plan : PagePlan) (facts : Facts)
    (page : PageManifest) : Json :=
  let blocks := Json.list (page.blocks.map (fun block => .str block.type))
  .dict [("project", .dict reads.project),
    ("approved_page_plan",
      .dict (planFields planId plan ++ [("block_selection", .dict [("blocks", blocks)])])),
    ("confirmed_facts", .list (publicFactRows facts.values)),
    ("selected_keywords", .list (itemsAt plan.keywordSnapshot "items")),
    ("validated_geo", .list (itemsAt plan.geoSnapshot "items")), ("allowed_blocks", blocks)]

/-- A request that has passed `_prepare_draft_context`. -/
structure Context where
  plan : PagePlan
  facts : FactRow
  connection : ProviderConnection
  model : String
  deterministic : Deterministic
  factKeys : List String

/-- The confirmed facts of a plan. -/
def planFacts (reads : Reads) (plan : PagePlan) : Option FactRow :=
  plan.factRevisionId.bind reads.facts

/-- `_prepare_draft_context`; a model has a name of at least one character. -/
def prepareDraftContext (reads : Reads) (planId : PlanId) (model : String) :
    Except HttpError Context :=
  match reads.plan planId with
  | none => .error ⟨404, "Page plan not found"⟩
  | some plan =>
    if plan.state ≠ .approved ∨ plan.factRevisionId = none then
      .error ⟨409, "Approve the page plan first"⟩
    else
      match planFacts reads plan, reads.connection with
      | none, _ => .error ⟨409, "PagePlan facts are no longer confirmed"⟩
      | _, none => .error ⟨409, "Select an activated AI provider connection"⟩
      | some facts, some connection =>
        if model = "" ∨ model ∉ connection.modelIds then
          .error ⟨422, "Model is not registered for this connection"⟩
        else
          match reads.refusal,
            deterministicDraft env reads.domain plan facts.toFacts none with
          | some e, _ => .error e
          | _, .error e => .error e
          | none, .ok deterministic =>
            match safeProviderContext env.classes
                (draftSnapshot reads planId plan facts.toFacts deterministic.page) with
            | .error _ => .error ⟨422, "unsafe_ai_context"⟩
            | .ok snapshot =>
              .ok ⟨plan, facts, connection, model, deterministic,
                contextFactKeys snapshot⟩

def bindingOf (planId : PlanId) (plan : PagePlan) (facts : FactRow) : SourceBinding :=
  ⟨planId, plan.version, facts.id, facts.factsHash, none⟩

/-- The cost that the provider reports, and whether it is above the limit. -/
structure Cost where
  usd : Json
  exceeded : Bool

/-- The run that a request inserts after the answer of the provider. -/
def answeredRun (action : Kind) (status : Status) (context : Context) (planId : PlanId)
    (prompt : EffectivePrompt) (output : Output) (cost : Cost) : AIRun where
  action := action
  status := if cost.exceeded then .failed else status
  providerId := some context.connection.providerId
  modelId := some context.model
  promptId := prompt.promptId
  promptVersion := prompt.version
  promptHash := prompt.contentHash
  sourceBinding := some (bindingOf planId context.plan context.facts)
  output := output
  pageDraftId := none
  costUsd := cost.usd
  operatorDecision := none

/-- An answer that pydantic or a validation rejects. -/
def invalidOutput : HttpError := ⟨502, "invalid_ai_output"⟩

/-- `generate_seo_brief` -/
def generateSeoBrief (reads : Reads) (planId : PlanId) (model : String) (prompt : EffectivePrompt)
    (answer : Option SeoBrief) (cost : Cost) : Except HttpError AIRun :=
  match prepareDraftContext env reads planId model, answer with
  | .error e, _ => .error e
  | _, none => .error invalidOutput
  | .ok context, some brief =>
    match validateSeoBrief brief context.plan.slug
        (textsUnder "keyword_id" (itemsAt context.plan.keywordSnapshot "items"))
        context.factKeys with
    | .error _ => .error invalidOutput
    | .ok brief =>
      .ok (answeredRun .seoBrief .pendingApproval context planId prompt (.brief brief) cost)

/-- `plan.block_selection.get("blocks", [])` -/
def selectedBlockIds (plan : PagePlan) : List String :=
  textItems (itemsAt plan.blockSelection.entries "blocks")

/-- `generate_block_slot_copy` -/
def generateBlockSlotCopy (reads : Reads) (planId : PlanId) (model blockId : String)
    (prompt : EffectivePrompt) (answer : Option BlockSlotCopy) (cost : Cost) :
    Except HttpError AIRun :=
  match prepareDraftContext env reads planId model with
  | .error e => .error e
  | .ok context =>
    if blockId ∉ selectedBlockIds context.plan then
      .error ⟨422, "Block is not selected by the approved PagePlan"⟩
    else
      match blockSlotSchema env.package.loadKit context.plan.kitKey blockId, answer with
      | .error .fileNotFound, _ => .error ⟨409, "Curated block catalog changed"⟩
      | .error (.valueError _), _ => .error internalError
      | .ok [], _ => .error ⟨409, "This curated block has no AI-writable text slots"⟩
      | .ok _, none => .error invalidOutput
      | .ok schema, some proposal =>
        match validateBlockSlotCopy proposal blockId schema context.factKeys with
        | .error _ => .error invalidOutput
        | .ok proposal =>
          .ok (answeredRun .blockSlotCopy .pendingApproval context planId prompt
            (.slotCopy proposal) cost)

/-! ## Intents -/

/-- `_semantic_keyword_ids` -/
def semanticKeywordIds (binding : IntentBinding) : List String :=
  textsUnder "project_keyword_id" (itemsAt binding.semanticTargetSnapshot "targets")

def schemaJson (schema : List (String × Nat)) : Json :=
  .dict (schema.map (fun slot =>
    (slot.1, .dict [("type", .str "string"), ("max_length", .int slot.2)])))

/-- The `snapshot` of `compile_intent_generation_context`. -/
def intentSnapshot (planId : PlanId) (plan : PagePlan) (facts : FactRow) (profile : DesignProfile)
    (schemas : List (String × List (String × Nat))) : Json :=
  .dict [("approved_page_plan", .dict (planFields planId plan ++ [("version", .int plan.version)])),
    ("frozen_sources", .dict [("fact_revision_id", idText facts.id),
      ("facts_hash", .str facts.factsHash), ("keyword_snapshot", .dict plan.keywordSnapshot),
      ("geo_snapshot", .dict plan.geoSnapshot),
      ("semantic_target", .dict plan.semanticTargetSnapshot),
      ("structure", (Json.get? plan.sourceRefs "site_structure").getD .null)]),
    ("confirmed_facts", .list (publicFactRows facts.values)),
    ("selected_keywords", .list (itemsAt plan.keywordSnapshot "items")),
    ("validated_geo", .list (itemsAt plan.geoSnapshot "items")),
    ("allowed_blocks", .list (schemas.map (fun e =>
      .dict [("id", .str e.1), ("slots", schemaJson e.2)]))),
    ("resolved_design_profile", .dict profile.resolved),
    ("policy", .dict [("noindex_default", .bool true), ("all_output_visible", .bool true)])]

/-- `IntentGenerationContext`; the slots that are allowed have no texts to redact. -/
structure IntentContext where
  binding : SourceBinding
  intent : IntentBinding
  deterministic : Deterministic
  allowed : Dict (List (String × Nat))
  factKeys : List String

/-- `compile_intent_generation_context`; an error is an exception, with its text. -/
def compileIntentContext (reads : Reads) (planId : PlanId) (plan : PagePlan) :
    Except String IntentContext :=
  if plan.state ≠ .approved ∨ plan.factRevisionId = none then
    .error "Approve the PagePlan before intent generation"
  else
    match planFacts reads plan, reads.design with
    | none, _ => .error "PagePlan confirmed facts are unavailable"
    | _, none => .error "Approve a design profile before intent generation"
    | some facts, some profile =>
      if plan.kitKey ∉ profile.allowedKits then
        .error "Approved PagePlan kit is not allowed by the design profile"
      else
        match deterministicDraft env reads.domain plan facts.toFacts (some profile.snapshot) with
        | .error e => .error e.detail
        | .ok deterministic =>
          let types := deterministic.page.blocks.map (·.type)
          if ∃ required ∈ profile.requiredBlocks, required ∉ types then
            .error "Approved PagePlan omits required design-profile blocks"
          else
            match types.mapM (fun blockType =>
                (blockSlotSchema env.package.loadKit plan.kitKey blockType).map
                  (fun schema => (blockType, schema))) with
            | .error _ => .error "Curated block catalog changed"
            | .ok schemas =>
              match safeProviderContext env.classes
                  (intentSnapshot planId plan facts profile schemas) with
              | .error _ => .error "Intent generation context is unsafe"
              | .ok snapshot =>
                let intent : IntentBinding :=
                  ⟨plan.semanticTargetSnapshot, profile.snapshot.profileHash,
                    profile.revisionId, plan.kitKey⟩
                .ok ⟨{ bindingOf planId plan facts with intent := some intent }, intent,
                  deterministic, schemas, contextFactKeys snapshot⟩

/-- `create_intent_generation`: the run that is reserved, with the context of its envelope. -/
def reserveIntent (reads : Reads) (planId : PlanId) (model : String) (prompt : EffectivePrompt)
    (cost : Json) : Except HttpError (AIRun × IntentContext) :=
  match prepareDraftContext env reads planId model with
  | .error e => .error e
  | .ok context =>
    match compileIntentContext env reads planId context.plan with
    | .error _ => .error internalError
    | .ok compiled =>
      .ok ({ answeredRun .intentPageProposal .reserved context planId prompt .none
              ⟨cost, false⟩ with sourceBinding := some compiled.binding }, compiled)

/-- `intent_page_proposal_task`: the run with the answer, or after an error. -/
def executeIntent (run : AIRun) (compiled : IntentContext) (connection : ProviderConnection)
    (model : String) (answer : Option IntentProposal) (cost : Cost) : AIRun :=
  match answer.map (fun proposal =>
      validateIntentPageProposal env proposal compiled.binding.pagePlanId
        compiled.binding.planVersion compiled.allowed compiled.factKeys
        (semanticKeywordIds compiled.intent)) with
  | some (.ok proposal) => { run with
      status := if cost.exceeded then .failed else .pendingApproval
      providerId := some connection.providerId
      modelId := some model
      output := .proposal proposal
      costUsd := cost.usd }
  | _ => { run with status := .failed, costUsd := cost.usd }

/-- The actions that `decide_ai_run` knows, of those here. -/
def decidableKinds : List Kind := [.seoBrief, .blockSlotCopy, .intentPageProposal]

/-- `decide_ai_run` -/
def decideAiRun (run : AIRun) (decision : Decision) : Except HttpError AIRun :=
  if run.action ∉ decidableKinds then
    .error ⟨409, "This AI action has no approval decision endpoint"⟩
  else if run.status ≠ .pendingApproval then .error ⟨409, "AI run is not awaiting approval"⟩
  else
    .ok { run with
      operatorDecision := some decision
      status := match decision with
        | .approve => .approved
        | .reject => .rejected }

/-! ## Drafts -/

/-- The provider, the model and the prompt of a run. -/
def runFields (run : AIRun) : List (String × Json) :=
  [("provider_id", run.providerId.elim .null .str), ("model_id", run.modelId.elim .null .str),
    ("prompt_id", .str run.promptId), ("prompt_version", .str run.promptVersion),
    ("prompt_hash", .str run.promptHash)]

def textsJson (texts : List String) : Json := .list (texts.map .str)

def artDirectionJson (direction : ArtDirection) : Json :=
  .dict [("creative_direction", .str direction.creativeDirection),
    ("shot_list", textsJson direction.shotList),
    ("suggested_media_roles", textsJson direction.suggestedMediaRoles),
    ("alt_requirements", textsJson direction.altRequirements)]

/-- The plan and the facts of the run, if they are still those that it is bound to. -/
def boundSources (reads : Reads) (run : AIRun) (messages : String × String × String) :
    Except HttpError (PlanId × PagePlan × FactRow) :=
  match run.sourceBinding with
  | none => .error ⟨409, messages.1⟩
  | some binding =>
    match reads.plan binding.pagePlanId with
    | none => .error ⟨404, "Page plan not found"⟩
    | some plan =>
      if plan.state ≠ .approved ∨ plan.version ≠ binding.planVersion then
        .error ⟨409, messages.2.1⟩
      else
        match planFacts reads plan with
        | none => .error ⟨409, messages.2.2⟩
        | some facts =>
          if facts.id ≠ binding.factRevisionId ∨ facts.factsHash ≠ binding.factsHash then
            .error ⟨409, messages.2.2⟩
          else if reads.domain.getD "" = "" then
            .error ⟨409, "Set a project domain before creating a draft"⟩
          else .ok (binding.pagePlanId, plan, facts)

/-- The run is approved and has no draft yet. -/
def checkApproved (run : AIRun) (unapproved used : String) : Except HttpError Unit :=
  if run.status ≠ .approved ∨ run.operatorDecision ≠ some .approve then .error ⟨409, unapproved⟩
  else if run.pageDraftId.isSome then .error ⟨409, used⟩
  else .ok ()

/-- `create_draft_from_seo_brief` -/
def createDraftFromSeoBrief (reads : Reads) (runId : RunId) (run : AIRun) :
    Except HttpError Draft :=
  match checkApproved run "Approve the SEO brief first" "SEO brief already created a PageDraft",
    boundSources reads run ("SEO brief source snapshot is unavailable",
      "PagePlan changed; regenerate the SEO brief",
      "Confirmed facts changed; regenerate the SEO brief"), run.output with
  | .error e, _, _ => .error e
  | _, .error e, _ => .error e
  | .ok _, .ok (planId, plan, facts), .brief brief =>
    match validateSeoBrief brief plan.slug
        (textsUnder "keyword_id" (itemsAt plan.keywordSnapshot "items"))
        (factKeys facts.values), deterministicDraft env reads.domain plan facts.toFacts none with
    | .error _, _ => .error internalError
    | _, .error e => .error e
    | .ok brief, .ok deterministic =>
      .ok
        { route := .seoBrief
          pagePlanId := planId
          failed := false
          inputSnapshot :=
            { base := deterministic.snapshot
              generatorMeta := Json.merge deterministic.generatorMeta
                [("seo_brief_run_id", idText runId),
                  ("seo_brief_prompt_id", .str run.promptId),
                  ("seo_brief_prompt_version", .str run.promptVersion),
                  ("seo_brief_prompt_hash", .str run.promptHash),
                  ("seo_brief_provider_id", run.providerId.elim .null .str),
                  ("seo_brief_model_id", run.modelId.elim .null .str),
                  ("seo_brief_cost_usd", run.costUsd),
                  ("robots_recommendation", .str brief.robots.value)]
              seoBrief := some brief
              intentGeneration := none
              aiProvenance := runFields run ++ [("fact_keys", textsJson brief.factKeys)] }
          pageManifest :=
            { manifest := { deterministic.page with
                titleTemplate := brief.title
                h1Template := brief.h1
                metaDescriptionTemplate := brief.description }
              indexState := .noindex } }
  -- an empty brief does not pass the validation
  | .ok _, .ok _, _ => .error internalError

/-- `generate_ai_page_draft`: the run and its draft. -/
def generateAiPageDraft (reads : Reads) (planId : PlanId) (model : String)
    (prompt : EffectivePrompt) (answer : Option PageCopy) (tokens : Json × Json) (cost : Cost)
    (runId : RunId) : Except HttpError (AIRun × Draft) :=
  match prepareDraftContext env reads planId model, answer with
  | .error e, _ => .error e
  | _, none => .error invalidOutput
  | .ok context, some copy =>
    match validatePageCopy copy context.factKeys with
    | .error _ => .error invalidOutput
    | .ok copy =>
      let run := answeredRun .pageDraftCopy .completed context planId prompt (.copy copy) cost
      let generatorMeta := Json.merge context.deterministic.generatorMeta
        (runFields run ++ [("ai_run_id", idText runId), ("tokens_in", tokens.1),
          ("tokens_out", tokens.2), ("cost_usd", cost.usd),
          ("fact_keys", textsJson copy.factKeys)])
      .ok (run,
        { route := .pageDraftCopy
          pagePlanId := planId
          failed := cost.exceeded
          inputSnapshot :=
            { base := context.deterministic.snapshot
              generatorMeta := context.deterministic.generatorMeta
              seoBrief := none
              intentGeneration := none
              aiProvenance := generatorMeta }
          pageManifest :=
            { manifest := { context.deterministic.page with
                titleTemplate := copy.title
                h1Template := copy.h1
                metaDescriptionTemplate := copy.metaDescription
                uniqueCore := some copy.uniqueCore }
              indexState := .noindex } })

/-- `block_slot_values[block_id] = slots` -/
def setSlots (values : Dict (Dict (Option String))) (blockId : String)
    (slots : Dict (Option String)) : Dict (Dict (Option String)) :=
  match values with
  | [] => [(blockId, slots)]
  | (id, old) :: rest =>
    if id = blockId then (id, slots) :: rest else (id, old) :: setSlots rest blockId slots

/-- `create_draft_from_block_slot_proposal` -/
def createDraftFromBlockSlotProposal (reads : Reads) (runId : RunId) (run : AIRun) :
    Except HttpError Draft :=
  match checkApproved run "Approve the block slot proposal first"
      "Block slot proposal already created a PageDraft",
    boundSources reads run ("Block slot proposal source snapshot is unavailable",
      "PagePlan changed; regenerate the block slot proposal",
      "Confirmed facts changed; regenerate the block slot proposal"), run.output with
  | .error e, _, _ => .error e
  | _, .error e, _ => .error e
  | .ok _, .ok (planId, plan, facts), .slotCopy proposal =>
    let blockId := proposal.blockId
    if blockId ∉ selectedBlockIds plan then
      .error ⟨409, "Selected block changed; regenerate the block slot proposal"⟩
    else
      match (blockSlotSchema env.package.loadKit plan.kitKey blockId).toOption.bind (fun schema =>
          (validateBlockSlotCopy proposal blockId schema (factKeys facts.values)).toOption),
        deterministicDraft env reads.domain plan facts.toFacts none with
      | none, _ => .error ⟨409, "Block slot proposal is no longer valid"⟩
      | _, .error e => .error e
      | some output, .ok deterministic =>
        let generatorMeta := Json.merge deterministic.generatorMeta
          ([("block_slot_copy_run_id", idText runId), ("block_id", .str blockId)] ++
            runFields run ++
            [("cost_usd", run.costUsd), ("fact_keys", textsJson output.factKeys)])
        let core := output.slots.lookup "unique_core"
        .ok
          { route := .blockSlotCopy
            pagePlanId := planId
            failed := false
            inputSnapshot :=
              { base := deterministic.snapshot
                generatorMeta := generatorMeta
                seoBrief := none
                intentGeneration := none
                aiProvenance := [("fact_keys", textsJson output.factKeys),
                  ("block_slot_copy", .dict generatorMeta)] }
            pageManifest :=
              { manifest := { deterministic.page with
                  blockSlotValues :=
                    setSlots deterministic.page.blockSlotValues blockId output.slots
                  uniqueCore := core.elim deterministic.page.uniqueCore
                    (fun text => some (text.getD "")) }
                indexState := .noindex } }
  | .ok _, .ok _, _ =>
    .error ⟨409, "Selected block changed; regenerate the block slot proposal"⟩

/-- `materialize_intent_page_draft`, for a run without a draft -/
def materializeIntentPageDraft (reads : Reads) (runId : RunId) (run : AIRun) :
    Except HttpError Draft :=
  match run.sourceBinding with
  | none => .error ⟨409, "Intent proposal source binding is unavailable"⟩
  | some binding =>
    match reads.plan binding.pagePlanId with
    | none => .error ⟨404, "Page plan not found"⟩
    | some plan =>
      match compileIntentContext env reads binding.pagePlanId plan with
      | .error message => .error ⟨409, message⟩
      | .ok compiled =>
        if compiled.binding ≠ binding then
          .error ⟨409, "Frozen PagePlan or design profile changed; regenerate"⟩
        else
          match run.output with
          | .proposal answer =>
            match validateIntentPageProposal env answer binding.pagePlanId
                binding.planVersion compiled.allowed compiled.factKeys
                (semanticKeywordIds compiled.intent) with
            | .error _ => .error internalError
            | .ok proposal =>
              .ok
                { route := .intentPageProposal
                  pagePlanId := binding.pagePlanId
                  failed := false
                  inputSnapshot :=
                    { base := compiled.deterministic.snapshot
                      generatorMeta := Json.merge compiled.deterministic.generatorMeta
                        ([("intent_generation_run_id", idText runId)] ++
                          runFields run ++ [("cost_usd", run.costUsd),
                            ("art_direction", artDirectionJson proposal.artDirection),
                            ("warnings", textsJson proposal.warnings)])
                      seoBrief := none
                      intentGeneration := some proposal
                      aiProvenance :=
                        runFields run ++ [("fact_keys", textsJson proposal.factKeys)] }
                  pageManifest :=
                    { manifest := { compiled.deterministic.page with
                        titleTemplate := proposal.title
                        h1Template := proposal.h1
                        metaDescriptionTemplate := proposal.metaDescription
                        uniqueCore := some proposal.uniqueCore
                        blockSlotValues := proposal.blockSlots.foldl
                          (fun values e => setSlots values e.1 e.2)
                          compiled.deterministic.page.blockSlotValues }
                      indexState := .noindex } }
          | _ => .error internalError

end MegaPanel.AiContent
