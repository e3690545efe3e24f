import MegaPanel.Basic
import MegaPanel.Lib.JsonValue
import MegaPanel.Lib.Run
import MegaPanel.Lib.Sha256
import MegaPanel.Lib.Table
import MegaPanel.Lib.UnitOfWork

set_option autoImplicit false

/-! # Site structure revisions

The requests of `api/v1/site_structure.py` on one revision of a project. A request reads the
revision, does its checks, changes the copy it has read, and writes the columns that differ from
what it has read when it commits.

* The edit locks the row when it reads it and keeps the lock to its end. The other requests read
  without a lock; their `UPDATE` waits until no other request holds it.
* A trigger refuses an `UPDATE` of an approved row that changes one of the columns it lists
  (`frozen`); the columns of the materialization are not among them.
* A materialization reads the page plans one statement after the other. Two plans of one slug
  with the same version cannot be inserted. What else happens to the plans of the project is up to
  other requests.

The structure is `{"pages": [...]}`; what pydantic checks field by field is left out. The semantic
collection, the competitor evidence, the facts and the selections that a request reads besides are
inputs, and so are the kits of the block library.
-/

namespace MegaPanel.SiteStructure

open MegaPanel.Lib

abbrev CollectionId := Nat
abbrev EvidenceId := Nat
abbrev RevisionId := Nat
abbrev PlanId := Nat
abbrev RequestId := Nat

/-! ## Structures -/

/-- `SiteStructureHeadingIn` -/
structure Heading where
  level : String
  text : String
  deriving DecidableEq

/-- `SiteStructurePageIn` -/
structure Page where
  key : String
  parentKey : Option String
  slug : String
  title : String
  metaDescription : String
  h1 : String
  headingOutline : List Heading
  objective : String
  intent : Option String
  kitKey : String
  blockIds : List String
  riskNotes : Option String
  deriving DecidableEq

def strings (items : List String) : Json := .list (items.map .str)

def optional (s : Option String) : Json := s.elim .null .str

def headingsJson (headings : List Heading) : Json :=
  .list (headings.map (fun h => .dict [("level", .str h.level), ("text", .str h.text)]))

/-- `item.model_dump(mode="json")` -/
def Page.toJson (page : Page) : Json :=
  .dict [("key", .str page.key), ("parent_key", optional page.parentKey), ("slug", .str page.slug),
    ("title", .str page.title), ("meta_description", .str page.metaDescription),
    ("h1", .str page.h1), ("heading_outline", headingsJson page.headingOutline),
    ("objective", .str page.objective), ("intent", optional page.intent),
    ("kit_key", .str page.kitKey), ("block_ids", strings page.blockIds),
    ("risk_notes", optional page.riskNotes)]

/-- `_hash` -/
def hashJson (value : Json) : String := Sha256.sha256Hex (Json.dumpsCompact value)

/-- The hash of the structure `{"pages": pages}`. -/
def structureHash (pages : List Page) : String :=
  hashJson (.dict [("pages", .list (pages.map Page.toJson))])

/-- The `while` loop over the parents of a page: it comes back to a page. -/
def hasParentCycle (parents : List (String × Option String)) :
    Nat → List String → Option String → Bool
  | _, _, none => false
  | 0, _, some _ => true
  | fuel + 1, visited, some current =>
    decide (current ∈ visited) || hasParentCycle parents fuel (current :: visited)
      ((parents.find? (fun p => p.1 = current)).bind (·.2))

/-- `validate_site_structure_tree`; `none` is success. -/
def validateTree (pages : List Page) (evidenceIds : List EvidenceId) : Option String :=
  let parents := pages.map (fun page => (page.key, page.parentKey))
  if ¬ (pages.map (·.key)).Nodup then some "Site structure contains duplicate page keys"
  else if ¬ (pages.map (·.slug)).Nodup then some "Site structure contains duplicate page slugs"
  else if ¬ evidenceIds.Nodup then some "Site structure contains duplicate evidence"
  else if parents.any (fun p => p.2.any (fun key => decide (key ∉ pages.map (·.key)))) then
    some "Site structure references an unknown parent page"
  else if parents.any (fun p => hasParentCycle parents (pages.length + 1) [] (some p.1)) then
    some "Site structure contains a parent cycle"
  else none

/-! ## Rows -/

inductive State
  | draft
  | review
  | approved
  | rejected
  deriving DecidableEq

/-- `site_structure_revisions` -/
structure Revision where
  version : Nat
  state : State
  semanticCollectionId : CollectionId
  evidenceIds : List EvidenceId
  pages : List Page
  structureHash : String
  sourceSnapshot : List (String × Json)
  sourceSnapshotHash : Option String
  submittedAt : Option Time
  reviewedAt : Option Time
  reviewedBy : Option UserId
  decisionReason : Option String
  materializedAt : Option Time
  materializedPagePlanIds : List PlanId
  deriving DecidableEq

/-- `prevent_approved_site_structure_mutation`: the trigger raises. -/
def frozen (old new : Revision) : Bool :=
  decide (old.state = .approved) &&
    (decide (new.version ≠ old.version) || decide (new.state ≠ old.state)
      || decide (new.semanticCollectionId ≠ old.semanticCollectionId)
      || decide (new.evidenceIds ≠ old.evidenceIds) || decide (new.pages ≠ old.pages)
      || decide (new.structureHash ≠ old.structureHash)
      || decide (new.sourceSnapshot ≠ old.sourceSnapshot)
      || decide (new.sourceSnapshotHash ≠ old.sourceSnapshotHash)
      || decide (new.submittedAt ≠ old.submittedAt) || decide (new.reviewedAt ≠ old.reviewedAt)
      || decide (new.reviewedBy ≠ old.reviewedBy)
      || decide (new.decisionReason ≠ old.decisionReason))

/-- The row after a flush: of the columns that a request can change, those it has changed. -/
def Revision.flush (loaded current stored : Revision) : Revision where
  version := stored.version
  state := writeCol loaded.state current.state stored.state
  semanticCollectionId := writeCol loaded.semanticCollectionId current.semanticCollectionId
    stored.semanticCollectionId
  evidenceIds := writeCol loaded.evidenceIds current.evidenceIds stored.evidenceIds
  pages := writeCol loaded.pages current.pages stored.pages
  structureHash := writeCol loaded.structureHash current.structureHash stored.structureHash
  sourceSnapshot := writeCol loaded.sourceSnapshot current.sourceSnapshot stored.sourceSnapshot
  sourceSnapshotHash := writeCol loaded.sourceSnapshotHash current.sourceSnapshotHash
    stored.sourceSnapshotHash
  submittedAt := writeCol loaded.submittedAt current.submittedAt stored.submittedAt
  reviewedAt := writeCol loaded.reviewedAt current.reviewedAt stored.reviewedAt
  reviewedBy := writeCol loaded.reviewedBy current.reviewedBy stored.reviewedBy
  decisionReason := writeCol loaded.decisionReason current.decisionReason stored.decisionReason
  materializedAt := writeCol loaded.materializedAt current.materializedAt stored.materializedAt
  materializedPagePlanIds := writeCol loaded.materializedPagePlanIds
    current.materializedPagePlanIds stored.materializedPagePlanIds

inductive PlanState
  | draft
  | review
  | approved
  | rejected
  deriving DecidableEq

/-- `source_refs` of a plan made from a structure. -/
structure SourceRefs where
  siteStructureRevisionId : RevisionId
  siteStructureVersion : Nat
  pageKey : String
  parentKey : Option String
  title : String
  metaDescription : String
  h1 : String
  headingOutline : List Heading
  deriving DecidableEq

/-- `page_plans` of the project; other plans may come from elsewhere. -/
structure PagePlan where
  supersedesId : Option PlanId
  version : Nat
  state : PlanState
  slug : String
  objective : String
  intent : Option String
  riskNotes : Option String
  kitKey : String
  blocks : List String
  sourceRefs : Option SourceRefs
  deriving DecidableEq

/-- `_page_plan_from_structure` -/
def pagePlanFromStructure (id : RevisionId) (revision : Revision) (page : Page)
    (existing : Option (PlanId × PagePlan)) : PagePlan where
  supersedesId := existing.map (·.1)
  version := existing.elim 1 (fun e => e.2.version + 1)
  state := .draft
  slug := page.slug
  objective := page.objective
  intent := page.intent
  riskNotes := page.riskNotes
  kitKey := page.kitKey
  blocks := page.blockIds
  sourceRefs := some ⟨id, revision.version, page.key, page.parentKey, page.title,
    page.metaDescription, page.h1, page.headingOutline⟩

/-! ## The requests -/

/-- `SiteStructureRevisionUpdate` -/
structure Update where
  semanticCollectionId : CollectionId
  evidenceIds : List EvidenceId
  pages : List Page
  expectedStructureHash : String

/-- What an edit reads besides: whether the collection is approved, the approved evidence among
that of the body, and the blocks of each kit. -/
structure UpdateContext where
  collectionApproved : Bool
  evidence : List EvidenceId
  kits : List (String × List String)

/-- `_validated_sources` and `_validate_catalog_pages` -/
def validateBody (body : Update) (ctx : UpdateContext) : Except HttpError Unit :=
  let blocks (page : Page) := (ctx.kits.find? (fun k => k.1 = page.kitKey)).map (·.2)
  if ctx.collectionApproved = false then .error ⟨409, "Select an approved semantic collection"⟩
  else if ctx.evidence.length ≠ body.evidenceIds.length then
    .error ⟨409, "Select approved project competitor evidence"⟩
  else
    body.pages.forM (fun page =>
      match blocks page with
      | none => .error ⟨422, "Site structure references an unknown kit"⟩
      | some known =>
        if page.blockIds.any (fun block => decide (block ∉ known)) then
          .error ⟨422, "Site structure references an unknown block"⟩
        else .ok ())

/-- `update_structure_revision`; a body without pages is not a request. -/
def updateRevision (revision : Revision) (body : Update) (ctx : UpdateContext) :
    Except HttpError Revision :=
  if revision.state ≠ .draft then .error ⟨409, "Only draft site structures can be edited"⟩
  else if body.expectedStructureHash ≠ revision.structureHash then
    .error ⟨409, "Site structure changed; reload before saving edits"⟩
  else
    (validateBody body ctx).map (fun _ => { revision with
      semanticCollectionId := body.semanticCollectionId
      evidenceIds := ctx.evidence
      pages := body.pages
      structureHash := structureHash body.pages })

/-- What a submission reads besides: the collection with its version, if it is approved. -/
structure SubmitContext where
  factRevisionId : String
  factsHash : String
  keywords : Json
  geo : Json
  blockers : List String
  collectionVersion : Option Nat

/-- The snapshot of a submission, before the one that the revision has. -/
def submissionEntries (revision : Revision) (ctx : SubmitContext) (version : Nat) :
    List (String × Json) :=
  [("fact_revision_id", .str ctx.factRevisionId), ("facts_hash", .str ctx.factsHash),
    ("semantic_collection_id", .int revision.semanticCollectionId),
    ("semantic_collection_version", .int version), ("keyword_snapshot", ctx.keywords),
    ("geo_snapshot", ctx.geo), ("evidence_ids", .list (revision.evidenceIds.map (fun i => .int i))),
    ("structure_hash", .str revision.structureHash)]

/-- `submit_structure_revision` -/
def submitRevision (revision : Revision) (ctx : SubmitContext) (now : Time) :
    Except HttpError Revision :=
  if revision.state ≠ .draft then .error ⟨409, "Only draft site structures can be submitted"⟩
  else if ctx.blockers ≠ [] then .error ⟨409, ", ".intercalate ctx.blockers⟩
  else
    match ctx.collectionVersion with
    | none => .error ⟨409, "The structure semantic collection is no longer approved"⟩
    | some version =>
      let snapshot := Json.merge (submissionEntries revision ctx version) revision.sourceSnapshot
      .ok { revision with
        sourceSnapshot := snapshot
        sourceSnapshotHash := some (hashJson (.dict snapshot))
        state := .review
        submittedAt := some now }

/-- `body.reason.strip() if body.reason else None` -/
def stripReason (reason : Option String) : Option String :=
  reason.bind (fun text => if text = "" then none else some (Text.strip text))

/-- `approve_structure_revision` -/
def approveRevision (revision : Revision) (user : UserId) (reason : Option String) (now : Time) :
    Except HttpError Revision :=
  if revision.state ≠ .review then .error ⟨409, "Only structures under review can be approved"⟩
  else .ok { revision with
    state := .approved
    reviewedAt := some now
    reviewedBy := some user
    decisionReason := stripReason reason }

/-- `reject_structure_revision` -/
def rejectRevision (revision : Revision) (user : UserId) (reason : Option String) (now : Time) :
    Except HttpError Revision :=
  if reason.all (fun text => decide (Text.strip text = "")) then
    .error ⟨400, "Provide a rejection reason"⟩
  else if revision.state ≠ .review then
    .error ⟨409, "Only structures under review can be rejected"⟩
  else .ok { revision with
    state := .rejected
    reviewedAt := some now
    reviewedBy := some user
    decisionReason := reason.map Text.strip }

/-- The checks of `materialize_structure_revision` -/
def checkMaterializable (revision : Revision) : Except HttpError Unit :=
  if revision.state ≠ .approved then
    .error ⟨409, "Approve the site structure before materialization"⟩
  else if revision.materializedPagePlanIds ≠ [] then
    .error ⟨409, "This site structure has already been materialized"⟩
  else .ok ()

/-! ## Steps -/

inductive Work
  /-- The edit holds the lock of the row. -/
  | update (current : Revision)
  | submit (current : Revision)
  | approve (current : Revision)
  | reject (current : Revision)
  /-- The pages whose plans are still to be read, and the plans made for the others. -/
  | materialize (todo : List Page) (plans : List PagePlan)
  deriving DecidableEq

/-- A request between its read of the revision and its commit. -/
structure Pending where
  loaded : Revision
  work : Work
  deriving DecidableEq

structure World where
  row : Revision
  lock : Option RequestId
  plans : Table PlanId PagePlan
  pending : Table RequestId Pending

inductive Request
  | update (body : Update) (ctx : UpdateContext)
  | submit (ctx : SubmitContext) (now : Time)
  | approve (user : UserId) (reason : Option String) (now : Time)
  | reject (user : UserId) (reason : Option String) (now : Time)
  | materialize

inductive Action
  | start (rid : RequestId) (request : Request)
  /-- A materialization reads the plans of its next page. -/
  | readPlan (rid : RequestId)
  /-- The ids and the time are those of a materialization. -/
  | commit (rid : RequestId) (ids : List PlanId) (now : Time)
  | abort (rid : RequestId)
  /-- Another request inserts, changes or deletes a plan. -/
  | plan (id : PlanId) (plan : Option PagePlan)

/-- `ORDER BY version DESC LIMIT 1` among the plans of a slug. -/
def World.latestPlan (w : World) (slug : String) : Option (PlanId × PagePlan) :=
  (w.plans.rows.filter (fun r => decide (r.2.slug = slug))).argmax (fun r => r.2.version)

/-- `uq_page_plan_project_slug_version`, against the rows of other ids. -/
def World.isFree (w : World) (id : PlanId) (plan : PagePlan) : Bool :=
  w.plans.rows.all (fun r =>
    decide (r.1 = id) || decide ((r.2.slug, r.2.version) ≠ (plan.slug, plan.version)))

/-- A request has done its reads and its checks. -/
def Request.start (revision : Revision) : Request → Except HttpError Work
  | .update body ctx => (updateRevision revision body ctx).map .update
  | .submit ctx now => (submitRevision revision ctx now).map .submit
  | .approve user reason now => (approveRevision revision user reason now).map .approve
  | .reject user reason now => (rejectRevision revision user reason now).map .reject
  | .materialize => (checkMaterializable revision).map (fun _ => .materialize revision.pages [])

/-- Whether a request locks the row when it reads it, and whether its body is one of a request. -/
def Request.isUpdate : Request → Bool
  | .update .. => true
  | _ => false

def Request.isValid : Request → Bool
  | .update body _ =>
    decide (body.pages ≠ []) && (validateTree body.pages body.evidenceIds).isNone
  | _ => true

def World.setPending (w : World) (rid : RequestId) (p : Pending) : World :=
  { w with pending := w.pending.set rid p }

/-- The end of a transaction. -/
def World.close (w : World) (rid : RequestId) : World :=
  { w with
    pending := w.pending.erase rid
    lock := if w.lock = some rid then none else w.lock }

/-- The copy of the revision that a request writes, and the plans it inserts. -/
def Pending.written (p : Pending) (ids : List PlanId) (now : Time) : Revision :=
  match p.work with
  | .update current | .submit current | .approve current | .reject current => current
  | .materialize _ _ => { p.loaded with
      materializedAt := some now
      materializedPagePlanIds := ids }

def Pending.inserted (p : Pending) (ids : List PlanId) : List (PlanId × PagePlan) :=
  match p.work with
  | .materialize _ plans => ids.zip plans
  | _ => []

/-- A materialization has made its plans, their ids are new and their versions are free. -/
def World.canInsert (w : World) (p : Pending) (ids : List PlanId) : Bool :=
  match p.work with
  | .materialize todo plans =>
    decide (todo = []) && decide (ids.length = plans.length) && decide ids.Nodup
      && ids.all (fun id => (w.plans.get id).isNone)
      && (ids.zip plans).all (fun r => w.isFree r.1 r.2)
      && decide (plans.map (fun plan => (plan.slug, plan.version))).Nodup
  | _ => true

/-- The next page of a materialization. -/
def World.readPlan (w : World) (id : RevisionId) (p : Pending) : Option Pending :=
  match p.work with
  | .materialize (page :: todo) plans =>
    let existing := w.latestPlan page.slug
    if existing.any (fun e => decide (e.2.state = .draft ∨ e.2.state = .review)) then none
    else some { p with
      work := .materialize todo (plans ++ [pagePlanFromStructure id p.loaded page existing]) }
  | _ => none

/-- `id` is that of the revision. -/
def step (id : RevisionId) (w : World) : Action → Option World
  | .start rid request =>
    if w.pending.get rid = none ∧ request.isValid = true
        ∧ (request.isUpdate = true → w.lock = none) then
      match request.start w.row with
      | .ok work => some { (w.setPending rid ⟨w.row, work⟩) with
          lock := if request.isUpdate = true then some rid else w.lock }
      | .error _ => none
    else none
  | .readPlan rid => (w.pending.get rid).bind (fun p =>
    (w.readPlan id p).map (fun p' => w.setPending rid p'))
  | .commit rid ids now => (w.pending.get rid).bind (fun p =>
    let row := Revision.flush p.loaded (p.written ids now) w.row
    if (w.lock = none ∨ w.lock = some rid) ∧ w.canInsert p ids = true ∧ frozen w.row row = false
    then some (World.close { w with row := row, plans := w.plans.insertAll (p.inserted ids) } rid)
    else none)
  | .abort rid => (w.pending.get rid).map (fun _ => w.close rid)
  | .plan pid plan =>
    match plan with
    | none => some { w with plans := w.plans.erase pid }
    | some plan =>
      if w.isFree pid plan then some { w with plans := w.plans.set pid plan } else none

/-- The world when the revision has been created, from the pages of a request or of an AI run. -/
structure Created (w : World) : Prop where
  pages : w.row.pages ≠ []
  structureHash : w.row.structureHash = structureHash w.row.pages
  state : w.row.state = .draft
  sourceSnapshot : w.row.sourceSnapshot = [] ∨ ∃ v, w.row.sourceSnapshot = [("ai_import", v)]
  materialized : w.row.materializedPagePlanIds = []
  lock : w.lock = none
  pending : ∀ rid, w.pending.get rid = none

end MegaPanel.SiteStructure
