import MegaPanel.Candidate.Input
import MegaPanel.IndexSchedule.Model
import MegaPanel.Lib.Table
import MegaPanel.Lib.UnitOfWork
import MegaPanel.PageDraft.Model

set_option autoImplicit false

/-! # Where an index state comes from

The rows between the QA of a draft and the index state of a published page: promotions,
schedules of promotions, candidate builds and the pages of the site (`api/v1/projects.py`,
`api/v1/index_schedules.py`, `services/index_schedule.py`). A promotion is created for an
applied draft with a passing QA run. A candidate build freezes which pages are indexed, by a
promotion or by the page's present row. The build stores what became of it, and a publication or
a rollback writes that into the rows of the pages (`_reconcile_site_page_projection`).

One site and its project are modelled. `dumps` is the JSON text of a draft's manifest; a page of
the site carries its own text. When a batch of a schedule is due is left open, as is which of the
drafts with the right content a query returns first.
-/

namespace MegaPanel.Provenance

open MegaPanel.Lib MegaPanel.Lib.Text MegaPanel.Candidate
open MegaPanel.IndexSchedule (BuildStatus ItemState ScheduleId)
open MegaPanel.PageDraft (Draft DraftId)

/-! ## Rows -/

/-- The columns of `sites` that a publication writes. -/
structure SiteRow where
  buildHash : Option String
  previousBuildHash : Option String
  publishState : PagePublishState
  deriving DecidableEq

/-- A row of `page_index_promotions` with its `page_draft_id`. -/
structure PromotionRow where
  draftId : DraftId
  promotion : PageIndexPromotion

/-- The `reason` of a request body. -/
abbrev RequestReason := { reason : String // 10 ≤ reason.length ∧ reason.length ≤ 2000 }

/-- `index_promotion_schedule_items`; the route that inserts an item takes both hashes from one
draft. -/
structure ScheduleItem where
  draftId : DraftId
  slug : String
  sourceHash : String
  qaSourceHash : String
  batchNumber : Nat
  state : ItemState
  qa_source : qaSourceHash = sourceHash

structure Schedule where
  reason : RequestReason
  items : List ScheduleItem

/-- `site_builds` -/
structure Build where
  status : BuildStatus
  inputSnapshot : Snapshot
  buildHash : Option String
  manifestSnapshot : SiteManifest
  pageMetadata : Option (List Json)
  firstPublishedAt : Option Time

/-- The database of one site. `manifest` is `none` when the stored one does not validate. -/
structure Db where
  siteId : SiteId
  projectId : ProjectId
  tenantId : TenantId
  manifest : Option SiteManifest
  site : SiteRow
  pages : Table String SitePage
  drafts : DraftId → Option Draft
  promotions : List PromotionRow
  schedules : ScheduleId → Option Schedule
  builds : Table BuildId Build

/-! ## Promotions -/

/-- The draft is applied with this content and has a current QA run that passed. -/
def vets (draft : Draft) (slug sourceHash : String) : Bool :=
  decide (draft.state = .applied) && decide (draft.contentHash = some sourceHash)
    && draft.pageManifest.any (fun page => decide (page.slug = slug))
    && draft.currentQaRun.isSome && decide (draft.lastQaVerdict = some .pass)

/-- `PageIndexPromotionIn` -/
structure PromotionRequest where
  slug : String
  reason : RequestReason
  confirmed : Bool

/-- `create_index_promotion`; `draftId` is the draft that its query finds first. -/
def createIndexPromotion (db : Db) (body : PromotionRequest) (draftId : DraftId) (id : Uuid)
    (now : DateTime) : Except Raised PromotionRow :=
  if !body.confirmed then
    .error (.httpError 400 ["Explicit index promotion confirmation is required"])
  else
    match db.manifest with
    | none => .error (.validationError "SiteManifest")
    | some manifest =>
      match manifest.pages.find? (fun page => page.slug = body.slug) with
      | none => .error (.httpError 404 ["Current project page not found"])
      | some page =>
        if (db.drafts draftId).any (vets · body.slug (draftManifestHash page)) then
          .ok
            { draftId := draftId
              promotion :=
                { id := id
                  siteId := db.siteId
                  projectId := db.projectId
                  slug := body.slug
                  sourceHash := draftManifestHash page
                  qaSourceHash := draftManifestHash page
                  reason := strip body.reason.1
                  decidedAt := now
                  qa_source := rfl
                  admitted := ⟨body.reason.1, body.reason.2.1, body.reason.2.2, .inl rfl⟩ } }
        else
          .error (.httpError 409
            ["Run passing QA for the current page content before index promotion"])

/-! ## Schedules -/

/-- The draft and its manifest have this content hash, and the draft vets it. -/
def vetsManifest (dumps : PageDraft.PageManifest → String) (draft : Draft)
    (slug sourceHash : String) : Bool :=
  vets draft slug sourceHash
    && decide (draft.pageManifest.map (PageDraft.draftManifestHash dumps) = some sourceHash)

/-- The item of one page of a new schedule: the entry `_eligible_drafts` has for it when
`draftId` is the draft with the content of the page. -/
def scheduleItem (dumps : PageDraft.PageManifest → String) (db : Db) (manifest : SiteManifest)
    (batchNumber : Nat) (slug : String) (draftId : DraftId) : Option ScheduleItem :=
  -- the last page with the slug that has a draft
  (manifest.pages.reverse.find? (fun page => decide (page.slug = slug)
      && (db.drafts draftId).any (vetsManifest dumps · slug (draftManifestHash page)))).map
    (fun page =>
      { draftId := draftId
        slug := slug
        sourceHash := draftManifestHash page
        qaSourceHash := draftManifestHash page
        batchNumber := batchNumber
        state := .planned
        qa_source := rfl })

/-- `create_index_schedule`, for pages with the drafts chosen for them. -/
def createIndexSchedule (dumps : PageDraft.PageManifest → String) (db : Db)
    (reason : RequestReason) (batchSize : Nat) (pages : List (String × DraftId)) :
    Option Schedule :=
  db.manifest.bind (fun manifest =>
    (pages.zipIdx.mapM (fun page =>
      scheduleItem dumps db manifest (page.2 / batchSize + 1) page.1.1 page.1.2)).map
        (fun items => ⟨reason, items⟩))

/-- The checks of `_validate_batch` on one item. -/
def itemCurrent (dumps : PageDraft.PageManifest → String) (db : Db) (manifest : SiteManifest)
    (item : ScheduleItem) : Bool :=
  (dictGet (manifest.pages.map (fun page => (page.slug, page))) item.slug).any
      (fun page => decide (draftManifestHash page = item.sourceHash))
    && (db.drafts item.draftId).any (vetsManifest dumps · item.slug item.qaSourceHash)

/-- The planned items of a batch. -/
def Schedule.batch (schedule : Schedule) (batchNumber : Nat) : List ScheduleItem :=
  schedule.items.filter (fun item =>
    decide (item.state = .planned) && decide (item.batchNumber = batchNumber))

/-- The promotions a sweep inserts for a batch; `ids` are their new identifiers. -/
def batchPromotions (db : Db) (schedule : Schedule) (items : List ScheduleItem) (ids : Nat → Uuid)
    (now : DateTime) : List PromotionRow :=
  items.zipIdx.map (fun (item, index) =>
    { draftId := item.draftId
      promotion :=
        { id := ids index
          siteId := db.siteId
          projectId := db.projectId
          slug := item.slug
          sourceHash := item.sourceHash
          qaSourceHash := item.qaSourceHash
          reason := scheduleReasonPrefix ++ strip schedule.reason.1
          decidedAt := now
          qa_source := item.qa_source
          admitted := ⟨schedule.reason.1, schedule.reason.2.1, schedule.reason.2.2, .inr rfl⟩ } })

def ScheduleItem.prepare (batchNumber : Nat) (item : ScheduleItem) : ScheduleItem :=
  if item.state = .planned ∧ item.batchNumber = batchNumber then { item with state := .prepared }
  else item

def Schedule.prepare (schedule : Schedule) (batchNumber : Nat) : Schedule :=
  { schedule with items := schedule.items.map (·.prepare batchNumber) }

/-! ## Builds -/

/-- The row that is inserted for a candidate. -/
def queuedBuild (snapshot : Snapshot) : Build where
  status := .queued
  inputSnapshot := snapshot
  buildHash := none
  manifestSnapshot := snapshot.manifest
  pageMetadata := none
  firstPublishedAt := none

/-- The end of `run_queued_candidate_build`: the build of the frozen input, with the hash of the
release and the metadata of its pages. -/
def finishBuild (db : Db) (build : Build) (render : PageManifest → String) (htmlSitemap : String)
    (buildHash : String) : Except Raised Build :=
  let snapshot := build.inputSnapshot
  if snapshot.manifest.siteId ≠ db.siteId ∨ snapshot.manifest.tenantId ≠ db.tenantId then
    .error (.valueError "snapshot_scope")
  else
    match Candidate.build render htmlSitemap snapshot.manifest snapshot.indexStates with
    | .error raised => .error raised
    | .ok result =>
      match pageMetadataFromCandidateResult result snapshot with
      | .error raised => .error raised
      | .ok metadata =>
        .ok { build with
          status := .ready
          buildHash := some buildHash
          manifestSnapshot := snapshot.manifest
          pageMetadata := some metadata }

/-- `_selected_build_projection` -/
def selectedBuildProjection (db : Db) (build : Build) :
    Except Raised (SiteManifest × List (String × Json)) :=
  let manifest := build.manifestSnapshot
  if manifest.siteId ≠ db.siteId ∨ manifest.tenantId ≠ db.tenantId then
    .error (.valueError "Selected build manifest snapshot does not belong to this site")
  else
    match build.pageMetadata with
    | none => .error (.valueError "Selected build has no immutable page metadata snapshot")
    | some metadata =>
      match validatePageMetadataSnapshot (.list metadata)
          (some (manifest.pages.map PageManifest.slug)) with
      | .error raised => .error raised
      | .ok bySlug => .ok (manifest, bySlug)

/-! ## Pages -/

def readText : Json → Option String
  | .str s => some s
  | _ => none

def readIndexState (v : Json) : IndexState :=
  if isText v (fun s => decide (s = "indexed")) then .indexed
  else if isText v (fun s => decide (s = "queued")) then .queued
  else .noindex

def readBool : Json → Bool
  | .bool b => b
  | _ => false

def readNat : Json → Nat
  | .int n => n.toNat
  | _ => 0

/-- The row of a page of the selected build, by the metadata of that page. -/
def projectPage (page : PageManifest) (metadata : List (String × Json)) : SitePage where
  slug := page.slug
  publishState := .published
  indexState := readIndexState (field metadata "index_state")
  indexSourceHash :=
    if isText (field metadata "index_state") (fun s => decide (s = "indexed")) then
      readText (field metadata "source_hash")
    else none
  promotedAt := (readText (field metadata "promoted_at")).bind fromisoformat
  manifest := some page
  thin := readBool (field metadata "thin")
  contentChars := readNat (field metadata "content_chars")

/-- The row of a page that the selected build does not have. -/
def archivePage (row : SitePage) : SitePage :=
  { row with
    publishState := .archived
    indexState := .noindex
    indexSourceHash := none
    promotedAt := none }

/-- The rows for the pages of the selected build. -/
def projection (manifest : SiteManifest) (bySlug : List (String × Json)) :
    Except Raised (List (String × SitePage)) :=
  manifest.pages.mapM (fun page =>
    match dictGet bySlug page.slug with
    | some (.dict metadata) => .ok (page.slug, projectPage page metadata)
    | some _ => .error .typeError
    | none => .error (.keyError page.slug))

/-- The stored row after a flush of `current`, loaded as `loaded`. -/
def flushPage (loaded current stored : SitePage) : SitePage where
  slug := stored.slug
  publishState := writeCol loaded.publishState current.publishState stored.publishState
  indexState := writeCol loaded.indexState current.indexState stored.indexState
  indexSourceHash := writeCol loaded.indexSourceHash current.indexSourceHash stored.indexSourceHash
  promotedAt := writeCol loaded.promotedAt current.promotedAt stored.promotedAt
  manifest := writeCol loaded.manifest current.manifest stored.manifest
  thin := writeCol loaded.thin current.thin stored.thin
  contentChars := writeCol loaded.contentChars current.contentChars stored.contentChars

def SiteRow.flush (loaded current stored : SiteRow) : SiteRow where
  buildHash := writeCol loaded.buildHash current.buildHash stored.buildHash
  previousBuildHash :=
    writeCol loaded.previousBuildHash current.previousBuildHash stored.previousBuildHash
  publishState := writeCol loaded.publishState current.publishState stored.publishState

/-- `_reconcile_site_page_projection` and its flush: `read` are the rows it has read, `targets`
the rows for the selected build. Inserting a slug that is there by now violates the unique
constraint. -/
def reconcile (read targets : List (String × SitePage)) (pages : Table String SitePage) :
    Option (Table String SitePage) :=
  let added := targets.filter (fun e => (dictGet read e.1).isNone)
  if (added.map (·.1)).Nodup ∧ added.all (fun e => (pages.get e.1).isNone) = true then
    some ((pages.mapRows (fun slug row =>
      match dictGet read slug with
      | some copy => flushPage copy ((dictGet targets slug).getD (archivePage copy)) row
      | none => row)).insertAll added)
  else none

/-- `publish_site` on one page. -/
def setPublishState (state : PagePublishState) (row : SitePage) : SitePage :=
  { row with
    publishState := state
    indexState := if state = .archived then .noindex else row.indexState }

end MegaPanel.Provenance
