import MegaPanel.Lib.Sha256
import MegaPanel.PagePlans.Catalog
import MegaPanel.PagePlans.Drafts
import MegaPanel.Redaction.Policy

set_option autoImplicit false

/-! # What a provider answers for a page

The facts that a provider is shown (`services/ai_data_policy.py`), the prompts, and the four kinds of
answers with the checks that they have to pass (`api/v1/ai_content.py` and
`services/intent_generation.py`). An answer is typed, as pydantic has accepted it. `str.lower` and
the blocks of a kit are parameters.
-/

namespace MegaPanel.AiContent

open MegaPanel.Lib MegaPanel.Lib.Text
open MegaPanel.PagePlans (Kit textAt)
open MegaPanel.PagePlans.Catalog (Package)
open MegaPanel.Redaction (CharClasses)
open MegaPanel.Rendering (Dict)
open MegaPanel.SiteStructure (PlanId)

structure Env where
  package : Package
  kits : String → Option Kit
  str : Json → String
  lower : String → String
  classes : CharClasses

variable (env : Env)

/-! ## Providers and prompts -/

/-- `ai_provider_connections`; a provider has a name of at least one character. -/
structure ProviderConnection where
  providerId : String
  modelIds : List String
  providerId_ne : providerId ≠ ""

/-- `PromptAsset`; `_HEADER` finds at least one character for each field. -/
structure PromptAsset where
  promptId : String
  version : String
  content : String
  promptId_ne : promptId ≠ ""
  version_ne : version ≠ ""

/-- `EffectivePrompt` -/
structure EffectivePrompt where
  promptId : String
  version : String
  contentHash : String

/-- An active row of the prompts. -/
structure PromptRevision where
  version : Nat
  baselineHash : String
  template : String

/-- `effective_prompt` -/
def effectivePrompt (baseline : PromptAsset) : Option PromptRevision → EffectivePrompt
  | none => ⟨baseline.promptId, baseline.version, Sha256.sha256Hex baseline.content⟩
  | some revision =>
    ⟨baseline.promptId, baseline.version ++ "+operator." ++ toString revision.version,
      Sha256.sha256Hex (baseline.content ++ "\n\n## Операторские инструкции\n" ++
        "Эти инструкции уточняют задачу, но не отменяют ограничения, схему ответа, " ++
        "проверку фактов, бюджет, human approval или server-side validation.\n\n" ++
        revision.template ++ "\n")⟩

/-- `active_prompt`; a revision of another baseline does not count. -/
def activePrompt (baseline : PromptAsset) (revision : Option PromptRevision) : EffectivePrompt :=
  effectivePrompt baseline (revision.filter (fun r =>
    decide (r.baselineHash = Sha256.sha256Hex baseline.content)))

/-! ## Facts for a provider -/

def itemsAt (entries : List (String × Json)) (key : String) : List Json :=
  match Json.get? entries key with
  | some (.list items) => items
  | _ => []

/-- The items that are texts. -/
def textItems (items : List Json) : List String :=
  items.filterMap (fun v => match v with
    | .str text => some text
    | _ => none)

def factRow (key value : String) : Json := .dict [("fact_key", .str key), ("value", .str value)]

/-- `public_fact_rows` -/
def publicFactRows (facts : List (String × Json)) : List Json :=
  let service := strip (textAt facts "service")
  let services := ((textItems (itemsAt facts "services" |>.take 30)).map strip).filter (· ≠ "")
  (if service = "" then [] else [factRow "service" service]) ++ services.map (factRow "services")

/-- The texts under a key in a list of dictionaries. -/
def textsUnder (key : String) (items : List Json) : List String :=
  items.filterMap (fun v => match v with
    | .dict entries =>
      match Json.get? entries key with
      | some (.str text) => some text
      | _ => none
    | _ => none)

/-- The fact keys of the context that the provider gets. -/
def contextFactKeys : Json → List String
  | .dict entries => textsUnder "fact_key" (itemsAt entries "confirmed_facts")
  | _ => []

/-- The fact keys of the confirmed facts. -/
def factKeys (facts : List (String × Json)) : List String :=
  textsUnder "fact_key" (publicFactRows facts)

/-! ## Answers and their validation -/

/-- `AIDraftTextOut` -/
structure PageCopy where
  title : String
  h1 : String
  metaDescription : String
  uniqueCore : String
  factKeys : List String

inductive Robots
  | index
  | noindex
  deriving DecidableEq

def Robots.value : Robots → String
  | .index => "index,follow"
  | .noindex => "noindex,follow"

/-- `SEOBriefOut` -/
structure SeoBrief where
  title : String
  description : String
  h1 : String
  canonicalPath : String
  robots : Robots
  keywordIds : List String
  factKeys : List String
  structuredDataTypes : List String
  uncertaintyNotes : List String

/-- `AIBlockSlotCopyOut` -/
structure BlockSlotCopy where
  blockId : String
  slots : Dict (Option String)
  factKeys : List String
  warnings : List String

structure SectionRationale where
  blockId : String
  visitorQuestion : String
  semanticTopics : List String

structure ArtDirection where
  creativeDirection : String
  shotList : List String
  suggestedMediaRoles : List String
  altRequirements : List String

/-- `IntentPageProposalOut` -/
structure IntentProposal where
  pagePlanId : PlanId
  planVersion : Nat
  title : String
  h1 : String
  metaDescription : String
  uniqueCore : String
  blockSlots : Dict (Dict (Option String))
  factKeys : List String
  semanticTargetProjectKeywordIds : List String
  sectionRationale : List SectionRationale
  artDirection : ArtDirection
  warnings : List String

def hasMarkup (text : String) : Bool :=
  text.toList.any (fun c => c == '<' || c == '>' || c == '{' || c == '}')

/-- A control character that is not one of `allowed`. -/
def hasControl (allowed : List Char) (text : String) : Bool :=
  text.toList.any (fun c => decide (c.toNat < 32) && !allowed.contains c)

/-- `_validate_page_copy` -/
def validatePageCopy (copy : PageCopy) (known : List String) : Except String PageCopy :=
  let texts := [copy.title, copy.h1, copy.metaDescription, copy.uniqueCore]
  if texts.any hasMarkup then
    .error "AI copy must be plain text without markup or placeholders"
  else if texts.any (hasControl ['\n', '\t']) then
    .error "AI copy contains control characters"
  else if copy.factKeys.any (!known.contains ·) then
    .error "AI copy references an unknown business fact"
  else .ok copy

/-- `_validate_seo_brief` -/
def validateSeoBrief (brief : SeoBrief) (planSlug : String) (keywordIds known : List String) :
    Except String SeoBrief :=
  let texts := [brief.title, brief.description, brief.h1] ++ brief.uncertaintyNotes
  if brief.canonicalPath ≠ planSlug then
    .error "SEO canonical path differs from the approved PagePlan"
  else if brief.keywordIds.any (!keywordIds.contains ·) then
    .error "SEO brief references an unselected keyword"
  else if brief.factKeys.any (!known.contains ·) then
    .error "SEO brief references an unconfirmed fact"
  else if brief.structuredDataTypes ≠ [] then
    .error "Structured data needs a separately approved evidence policy"
  else if brief.robots = .index ∧ brief.factKeys = [] then
    .error "Indexable SEO brief must cite confirmed facts"
  else if texts.any hasMarkup then
    .error "SEO brief must use plain text without markup or placeholders"
  else if texts.any (hasControl []) then .error "SEO brief contains control characters"
  else .ok brief

/-- The first check of `_validate_block_slot_copy` that a text fails. -/
def slotTextError (text : String) : Option String :=
  if strip text = "" then some "Block slot copy contains empty text"
  else if hasMarkup text then
    some "Block slot copy must be plain text without markup or placeholders"
  else if hasControl ['\n', '\t'] text then some "Block slot copy contains control characters"
  else none

/-- `_validate_block_slot_copy` -/
def validateBlockSlotCopy (proposal : BlockSlotCopy) (blockId : String)
    (slotSchema : List (String × Nat)) (known : List String) : Except String BlockSlotCopy :=
  let values := proposal.slots.filterMap (·.2)
  if proposal.blockId ≠ blockId then .error "Block slot copy targets a different block"
  else if ¬ (proposal.slots.map (·.1)).Perm (slotSchema.map (·.1)) then
    .error "Block slot copy does not match the server slot contract"
  else if proposal.factKeys.any (!known.contains ·) then
    .error "Block slot copy references an unknown business fact"
  else if values ≠ [] ∧ proposal.factKeys = [] then
    .error "Block slot copy requires confirmed fact provenance"
  else
    match (values ++ proposal.warnings).findSome? slotTextError with
    | some message => .error message
    | none =>
      if proposal.slots.any (fun e => e.2.any (fun text =>
          (slotSchema.lookup e.1).any (fun n => decide (n < text.length)))) then
        .error "Block slot copy exceeds the server slot length"
      else .ok proposal

/-- `_FORBIDDEN_TEXT` -/
def forbiddenText : List String :=
  ["<", ">", "\x7b", "\x7d", "javascript:", "http://", "https://"]

/-- `_FORBIDDEN_VISIBILITY_TERMS` -/
def forbiddenVisibilityTerms : List String :=
  ["cloaking", "user-agent", "crawler", "bot-only", "aria-hidden", "display:none",
    "visibility:hidden"]

/-- `token in text` -/
def hasToken (text token : String) : Bool := text.toList.tails.any (token.toList.isPrefixOf ·)

/-- `_plain_text`: the message of its error. -/
def plainTextError (field value : String) : Option String :=
  let lowered := env.lower value
  if strip value = "" ∨ forbiddenText.any (hasToken lowered) then
    some ("Intent proposal " ++ field ++ " must be visible plain text")
  else if forbiddenVisibilityTerms.any (hasToken lowered) then
    some ("Intent proposal " ++ field ++ " contains conditional or hidden-content behavior")
  else if hasControl ['\n', '\t'] value then
    some ("Intent proposal " ++ field ++ " contains control characters")
  else none

/-- The texts of one block in a proposal. -/
def blockSlotsError (allowed : Dict (List (String × Nat)))
    (e : String × Dict (Option String)) : Option String :=
  match allowed.lookup e.1 with
  | none => some "Intent proposal selected an unknown block"
  | some schema =>
    if e.2.any (fun slot => (schema.lookup slot.1).isNone) then
      some "Intent proposal selected an unsupported block slot"
    else
      e.2.findSome? (fun slot => slot.2.bind (fun text =>
        (plainTextError env ("block slot " ++ e.1 ++ "." ++ slot.1) text).or
          (if (schema.lookup slot.1).any (fun n => decide (n < text.length)) then
            some "Intent proposal exceeds a block slot length" else none)))

def rationaleError (allowed : Dict (List (String × Nat))) (part : SectionRationale) :
    Option String :=
  if (allowed.lookup part.blockId).isNone then
    some "Intent proposal rationale selected an unknown block"
  else (plainTextError env "section rationale" part.visitorQuestion).or
    (part.semanticTopics.findSome? (plainTextError env "semantic topic"))

/-- `validate_intent_page_proposal` -/
def validateIntentPageProposal (proposal : IntentProposal) (pagePlanId : PlanId)
    (planVersion : Nat) (allowed : Dict (List (String × Nat))) (known semanticIds : List String) :
    Except String IntentProposal :=
  if proposal.pagePlanId ≠ pagePlanId then .error "Intent proposal targets a different PagePlan"
  else if proposal.planVersion ≠ planVersion then
    .error "Intent proposal targets a stale PagePlan version"
  else if proposal.factKeys.any (!known.contains ·) then
    .error "Intent proposal references an unknown business fact"
  else if proposal.semanticTargetProjectKeywordIds.any (!semanticIds.contains ·) then
    .error "Intent proposal references an unselected semantic target"
  else
    let direction := proposal.artDirection
    let problem :=
      ([proposal.title, proposal.h1, proposal.metaDescription, proposal.uniqueCore].findSome?
          (plainTextError env "copy")).or
        ((proposal.blockSlots.findSome? (blockSlotsError env allowed)).or
          ((proposal.sectionRationale.findSome? (rationaleError env allowed)).or
            (([direction.creativeDirection] ++ direction.shotList ++ direction.altRequirements ++
              proposal.warnings).findSome? (plainTextError env "art direction"))))
    match problem with
    | some message => .error message
    | none => .ok proposal

end MegaPanel.AiContent
