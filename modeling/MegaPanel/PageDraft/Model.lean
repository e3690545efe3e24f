import MegaPanel.Lib.Sha256
import MegaPanel.Lib.Text
import MegaPanel.Lib.UnitOfWork
import MegaPanel.SiteManifest.Model

set_option autoImplicit false

/-! # Page drafts

The row of a page draft and what its routes do to it (`api/v1/projects.py`, and the routes of
`api/v1/ai_content.py` that create drafts). A draft is edited in state `draft`, checked,
submitted for review, and then applied to the site or rejected. Content, content hash, QA runs
and state are columns of one row.

`dumps page` is the JSON text of a page manifest,
`json.dumps(page.model_dump(mode="json"), ...)`. What `run_page_qa` answers, and what is read
of the rows of other tables (assets, author profiles, plan, facts, design profile, the site's
manifest), are inputs.
-/

namespace MegaPanel.PageDraft

open MegaPanel.Lib MegaPanel.Lib.Text
open MegaPanel.SiteManifest (Design Verdict QaOverride)

abbrev DraftId := Nat
abbrev AssetId := Nat

/-- A revision of an author profile. -/
abbrev RevisionId := Nat

/-! ## Page manifests -/

structure PageMedia where
  assetId : AssetId
  storedSha256 : String
  alt : String
  deriving DecidableEq

/-- `AuthorProfileSnapshot`, with the fields that are only compared as JSON text. -/
structure Author where
  revisionId : RevisionId
  portrait : PageMedia
  rest : String
  deriving DecidableEq

/-- `PageManifest`: the blocks are their types, and `rest` is the JSON text of the fields that
no route of a draft looks into. -/
structure PageManifest where
  slug : String
  titleTemplate : String
  h1Template : String
  metaDescriptionTemplate : String
  uniqueCore : Option String
  blocks : List String
  media : List PageMedia
  blockMedia : List (String × PageMedia)
  design : Option Design
  author : Option Author
  rest : String
  deriving DecidableEq

def PageMedia.isValid (m : PageMedia) : Bool :=
  Sha256.isSha256 m.storedSha256 && decide (1 ≤ m.alt.length) && decide (m.alt.length ≤ 255)

def PageManifest.assetIds (page : PageManifest) : List AssetId :=
  page.media.map (·.assetId) ++ page.blockMedia.map (·.2.assetId)
    ++ (page.author.map (·.portrait.assetId)).toList

/-- `PageManifest.model_validate`, on the fields that the routes write: the bounds of the fields
and `require_valid_media_placements`. -/
def PageManifest.isValid (page : PageManifest) : Bool :=
  page.media.all PageMedia.isValid && page.blockMedia.all (fun e => e.2.isValid)
    && decide (page.media.length ≤ 12) && decide (page.blockMedia.length ≤ 12)
    && decide page.blocks.Nodup && page.blockMedia.all (fun e => decide (e.1 ∈ page.blocks))
    && decide page.assetIds.Nodup && decide (page.assetIds.length ≤ 13)

/-- `{**entries, key: m}` -/
def setEntry (entries : List (String × PageMedia)) (key : String) (m : PageMedia) :
    List (String × PageMedia) :=
  if entries.any (fun e => e.1 = key) then
    entries.map (fun e => if e.1 = key then (key, m) else e)
  else entries ++ [(key, m)]

/-- `_draft_manifest_hash` -/
def draftManifestHash (dumps : PageManifest → String) (page : PageManifest) : String :=
  Sha256.sha256Hex (dumps page)

/-! ## Rows -/

/-- `page_drafts.state` -/
inductive DraftState
  | queued
  | draft
  | review
  | applied
  | rejected
  | failed
  deriving DecidableEq

/-- An entry of `page_drafts.qa_runs`. -/
structure QaRun where
  sourceHash : Option String
  verdict : Verdict
  findings : List String
  createdAt : Time
  deriving DecidableEq

/-- `PageDraft`: `pageManifest` is `none` when the stored manifest does not validate. -/
structure Draft where
  state : DraftState
  pageManifest : Option PageManifest
  contentHash : Option String
  qaRuns : List QaRun
  lastQaVerdict : Option Verdict
  qaOverride : Option QaOverride
  authorProfileRevisionId : Option RevisionId
  appliedBy : Option UserId
  failureMessage : Option String
  deriving DecidableEq

/-- The stored row after a flush of `current`, loaded as `loaded`. -/
def Draft.flush (loaded current stored : Draft) : Draft where
  state := writeCol loaded.state current.state stored.state
  pageManifest := writeCol loaded.pageManifest current.pageManifest stored.pageManifest
  contentHash := writeCol loaded.contentHash current.contentHash stored.contentHash
  qaRuns := writeCol loaded.qaRuns current.qaRuns stored.qaRuns
  lastQaVerdict := writeCol loaded.lastQaVerdict current.lastQaVerdict stored.lastQaVerdict
  qaOverride := writeCol loaded.qaOverride current.qaOverride stored.qaOverride
  authorProfileRevisionId := writeCol loaded.authorProfileRevisionId
    current.authorProfileRevisionId stored.authorProfileRevisionId
  appliedBy := writeCol loaded.appliedBy current.appliedBy stored.appliedBy
  failureMessage := writeCol loaded.failureMessage current.failureMessage stored.failureMessage

inductive Refusal
  | http (e : HttpError)
  /-- `PageManifest.model_validate` raises. -/
  | validationError
  deriving DecidableEq

/-! ## Creation -/

/-- Where a draft comes from. -/
inductive Origin
  /-- `_generate_approved_draft`, or the generation from intents. -/
  | generated
  /-- An SEO brief, or generated copy, which may have cost more than allowed. -/
  | copy (costExceeded : Bool)
  /-- Generated copy for the slots of a block; `slotText` joins the values of the slots. -/
  | blockSlots (slotText : String)
  deriving DecidableEq

/-- The texts that the routes of `ai_content.py` hash. -/
def copyTexts (page : PageManifest) : List String :=
  [page.titleTemplate, page.h1Template, page.metaDescriptionTemplate, page.uniqueCore.getD ""]

def Origin.contentHash (dumps : PageManifest → String) (page : PageManifest) : Origin → String
  | .generated => draftManifestHash dumps page
  -- these do not hash the manifest
  | .copy _ => Sha256.sha256Hex ("\n".intercalate (copyTexts page))
  | .blockSlots slotText => Sha256.sha256Hex ("\n".intercalate (copyTexts page ++ [slotText]))

/-- The row that is inserted. Hashing a manifest validates it; the other routes store whatever
they have. -/
def newDraft (dumps : PageManifest → String) (page : PageManifest) (origin : Origin) :
    Except Refusal Draft :=
  if origin = .generated ∧ page.isValid = false then .error .validationError
  else
    .ok
      { state := if origin = .copy true then .failed else .draft
        pageManifest := if page.isValid then some page else none
        contentHash := some (origin.contentHash dumps page)
        qaRuns := []
        lastQaVerdict := none
        qaOverride := none
        authorProfileRevisionId := none
        appliedBy := none
        failureMessage :=
          if origin = .copy true then
            some "Provider-reported usage exceeded the confirmed estimate limit"
          else none }

/-! ## Editing -/

/-- What is to be attached to a draft, with what looking it up gave: the asset and its stored
hash, or the author snapshot. -/
inductive Edit
  | media (asset : Except HttpError (AssetId × String)) (alt : String)
  | blockMedia (blockId : String) (asset : Except HttpError (AssetId × String)) (alt : String)
  | author (revisionId : RevisionId) (snapshot : Except HttpError Author)

/-- The refusal of an edit outside the state `draft`. -/
def Edit.closed : Edit → HttpError
  | .author .. => ⟨409, "Attach an author before submitting the draft for review"⟩
  | _ => ⟨409, "Attach media before submitting the draft for review"⟩

/-- The change to the manifest. -/
def Edit.change : Edit → Except HttpError (PageManifest → PageManifest)
  | .media asset alt => asset.map (fun (id, sha) page =>
    { page with media := page.media ++ [⟨id, sha, strip alt⟩] })
  | .blockMedia blockId asset alt => asset.map (fun (id, sha) page =>
    { page with blockMedia := setEntry page.blockMedia blockId ⟨id, sha, strip alt⟩ })
  | .author _ snapshot => snapshot.map (fun found page => { page with author := some found })

/-- `draft.author_profile_revision_id` after an edit. -/
def Edit.revision (stored : Option RevisionId) : Edit → Option RevisionId
  | .author revisionId _ => some revisionId
  | _ => stored

/-- `attach_draft_media`, `attach_draft_author` and `attach_draft_block_media`, on the locked
row. -/
def Draft.edit (dumps : PageManifest → String) (draft : Draft) (edit : Edit) :
    Except Refusal Draft :=
  if draft.state ≠ .draft then .error (.http edit.closed)
  else
    match edit.change with
    | .error e => .error (.http e)
    | .ok change =>
      match draft.pageManifest.map change with
      | none => .error .validationError
      | some page =>
        if page.isValid then
          .ok { draft with
            authorProfileRevisionId := edit.revision draft.authorProfileRevisionId
            pageManifest := some page
            contentHash := some (draftManifestHash dumps page)
            qaRuns := []
            lastQaVerdict := none
            qaOverride := none }
        else .error .validationError

/-! ## QA, submission and rejection -/

/-- What `run_page_qa` answers, and when. -/
structure QaResult where
  verdict : Verdict
  findings : List String
  createdAt : Time
  deriving DecidableEq

/-- `run_draft_qa` -/
def Draft.runQa (draft : Draft) (result : QaResult) : Except Refusal Draft :=
  if draft.state ≠ .draft ∧ draft.state ≠ .review then
    .error (.http ⟨409, "Only a candidate draft can be checked"⟩)
  else
    .ok { draft with
      qaRuns := draft.qaRuns ++
        [⟨draft.contentHash, result.verdict, result.findings, result.createdAt⟩]
      lastQaVerdict := some result.verdict }

/-- `_current_qa_run` -/
def Draft.currentQaRun (draft : Draft) : Option QaRun :=
  match draft.qaRuns.getLast?, draft.contentHash with
  | some latest, some contentHash =>
    if contentHash = "" then none
    else if latest.sourceHash ≠ some contentHash ∨ some latest.verdict ≠ draft.lastQaVerdict then
      none
    else some latest
  | _, _ => none

/-- `submit_draft_review` -/
def Draft.submitReview (draft : Draft) : Except Refusal Draft :=
  if draft.state ≠ .draft ∨ draft.currentQaRun = none then
    .error (.http ⟨409, "Run QA for the current draft content before review"⟩)
  else .ok { draft with state := .review }

/-- The reason `reject_page_draft` stores. -/
def rejectionMessage (reason : Option String) : Except Refusal String :=
  let message := strip (reason.getD "")
  if message = "" then .error (.http ⟨400, "Provide a rejection reason"⟩) else .ok message

/-- `reject_page_draft`. A message that is longer than its column fails in the database. -/
def Draft.reject (draft : Draft) (message : String) : Except Refusal Draft :=
  if draft.state ≠ .draft ∧ draft.state ≠ .review then
    .error (.http ⟨409, "Only a candidate draft can be rejected"⟩)
  else if 512 < message.length then .error (.http ⟨500, "Internal Server Error"⟩)
  else .ok { draft with state := .rejected, failureMessage := some message }

/-! ## Application -/

/-- What `apply_page_draft` reads of other rows: whether the branding is valid, the plan (`none`
for no plan, then whether it is approved and has a fact revision), the facts, the domain, the
snapshot of the page's author, the hash of the design profile, and the manifest of the site. -/
structure ApplyContext where
  brandingValid : Bool
  plan : Option Bool
  factsConfirmed : Bool
  domainSet : Bool
  author : Except HttpError Author
  designHash : Option String
  site : Option (Option Design × List PageManifest)

/-- The checks of the state and of the QA result. -/
def Draft.applyGate (draft : Draft) (override : Option QaOverride) : Except HttpError Unit :=
  if draft.state ≠ .review then .error ⟨409, "Submit the draft for review first"⟩
  else if draft.currentQaRun = none then
    .error ⟨409, "Run QA for the current draft content before apply"⟩
  else if draft.lastQaVerdict = some .block then .error ⟨409, "Resolve blocking QA findings"⟩
  else if draft.lastQaVerdict = some .warn ∧ override = none then
    .error ⟨409, "Provide an audited warning override"⟩
  else if draft.lastQaVerdict = none then .error ⟨409, "Run QA before apply"⟩
  else .ok ()

/-- The checks of the plan and its facts. -/
def ApplyContext.planGate (ctx : ApplyContext) : Except HttpError Unit :=
  match ctx.plan with
  | none => .error ⟨404, "Page plan not found"⟩
  | some false => .error ⟨409, "Approve the page plan first"⟩
  | some true =>
    if !ctx.factsConfirmed then .error ⟨409, "Plan fact revision is unavailable"⟩
    else if !ctx.domainSet then .error ⟨409, "Set a project domain before apply"⟩
    else .ok ()

/-- The author bound to the draft is the one in the page, and has not changed. -/
def Draft.authorGate (draft : Draft) (ctx : ApplyContext) (page : PageManifest) :
    Except HttpError Unit :=
  match page.author with
  | some author =>
    if draft.authorProfileRevisionId ≠ some author.revisionId then
      .error ⟨409, "Author binding does not match the page artifact"⟩
    else
      match ctx.author with
      | .error e => .error e
      | .ok current =>
        if current ≠ author then
          .error ⟨409, "Author profile or portrait changed; attach it in a new draft"⟩
        else .ok ()
  | none =>
    if draft.authorProfileRevisionId.isSome then
      .error ⟨409, "Author binding is missing from the page artifact"⟩
    else .ok ()

def ApplyContext.designGate (ctx : ApplyContext) (page : PageManifest) : Except HttpError Unit :=
  match page.design with
  | none => .ok ()
  | some design =>
    if design.profileHash ≠ ctx.designHash then
      .error ⟨409, "Design profile changed; regenerate this PageDraft"⟩
    else
      match ctx.site with
      | some (some siteDesign, _) =>
        if siteDesign.profileHash ≠ design.profileHash then
          .error ⟨409, "Applied site uses another approved design profile"⟩
        else .ok ()
      | _ => .ok ()

/-- All checks of `apply_page_draft`, and the page that goes to the site. -/
def Draft.applyChecks (draft : Draft) (override : Option QaOverride) (ctx : ApplyContext) :
    Except Refusal PageManifest :=
  if !ctx.brandingValid then .error (.http ⟨409, "Project branding is invalid"⟩)
  else
    match draft.applyGate override, ctx.planGate with
    | .error e, _ => .error (.http e)
    | .ok _, .error e => .error (.http e)
    | .ok _, .ok _ =>
      match draft.pageManifest with
      | none => .error .validationError
      | some page =>
        match draft.authorGate ctx page, ctx.designGate page with
        | .error e, _ => .error (.http e)
        | .ok _, .error e => .error (.http e)
        | .ok _, .ok _ => .ok page

/-- The pages of the manifest that is written to the site. -/
def ApplyContext.sitePages (ctx : ApplyContext) (page : PageManifest) : List PageManifest :=
  match ctx.site with
  | some (_, pages) => pages.filter (fun existing => existing.slug ≠ page.slug) ++ [page]
  | none => [page]

def Draft.markApplied (draft : Draft) (override : Option QaOverride) (user : UserId) : Draft :=
  { draft with
    state := .applied
    appliedBy := some user
    qaOverride := override.or draft.qaOverride }

end MegaPanel.PageDraft
