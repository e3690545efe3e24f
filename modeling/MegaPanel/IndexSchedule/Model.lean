import MegaPanel.Basic
import MegaPanel.Lib.Table

set_option autoImplicit false

/-! # Index promotion schedules

The rows the schedule sweep reads and writes (`services/index_schedule.py`), and the route
that creates a schedule (`api/v1/index_schedules.py`).

A schedule divides its pages into numbered batches. All items of a batch are prepared
together: they share one candidate build, whose identifier is stored on each of them. Page
contents enter only through their hashes; a stored manifest is the list of its pages, or
`none` when it does not validate.
-/

namespace MegaPanel.IndexSchedule

open MegaPanel.Lib

abbrev ScheduleId := Nat
abbrev DraftId := Nat
abbrev PromotionId := Nat

/-! ## Rows -/

/-- `index_promotion_schedules.state` -/
inductive ScheduleState
  | draft
  | review
  | active
  | paused
  | completed
  | cancelled
  deriving DecidableEq

/-- `index_promotion_schedule_items.state` -/
inductive ItemState
  | planned
  | prepared
  | stale
  | cancelled
  deriving DecidableEq

/-- `site_builds.status` -/
inductive BuildStatus
  | queued
  | running
  | ready
  | failed
  deriving DecidableEq

structure Schedule where
  tenantId : TenantId
  projectId : ProjectId
  siteId : SiteId
  state : ScheduleState
  reason : String
  startsAt : Time
  createdAt : Time
  intervalHours : Nat
  batchSize : Nat
  createdBy : Option UserId
  approvedBy : Option UserId
  pausedAt : Option Time
  completedAt : Option Time
  deriving DecidableEq

structure Item where
  draftId : DraftId
  slug : String
  sourceHash : String
  qaSourceHash : String
  batchNumber : Nat
  plannedAt : Time
  state : ItemState
  promotionId : Option PromotionId
  candidateBuildId : Option BuildId
  preparedAt : Option Time
  staleReason : Option String
  deriving DecidableEq

/-- The columns of a build the sweep reads or writes. -/
structure Build where
  tenantId : TenantId
  projectId : Option ProjectId
  siteId : SiteId
  status : BuildStatus
  previousBuildHash : Option String
  requestedBy : Option UserId
  queuePriority : Nat
  lastEnqueuedAt : Option Time
  firstPublishedAt : Option Time
  deriving DecidableEq

/-- A row of `page_index_promotions`. -/
structure Promotion where
  tenantId : TenantId
  siteId : SiteId
  projectId : ProjectId
  draftId : DraftId
  slug : String
  sourceHash : String
  qaSourceHash : String
  reason : String
  decidedBy : Option UserId
  decidedAt : Time
  deriving DecidableEq

/-- A page of a validated manifest, with the hash of its content. -/
structure Page where
  slug : String
  hash : String
  deriving DecidableEq

/-- A site: `pages` is `none` when the stored manifest does not validate, `authorsCurrent`
says that the author profiles in it match their approved revisions. -/
structure Site where
  tenantId : TenantId
  projectId : Option ProjectId
  buildHash : Option String
  pages : Option (List Page)
  authorsCurrent : Bool
  deriving DecidableEq

/-- A page draft. `page` is its stored manifest: the hash, and the slug if it validates;
`currentQa` says whether `_current_qa_run` finds a run. -/
structure Draft where
  tenantId : TenantId
  projectId : ProjectId
  applied : Bool
  contentHash : Option String
  page : Option (String × Option String)
  currentQa : Bool
  qaPassed : Bool
  deriving DecidableEq

/-- The database. `nextBuild` and `nextPromotion` supply fresh identifiers. -/
structure Db where
  schedules : Table ScheduleId Schedule
  items : ScheduleId → List Item
  builds : Table BuildId Build
  promotions : List (PromotionId × Promotion)
  drafts : DraftId → Option Draft
  projects : ProjectId → Option TenantId
  sites : SiteId → Option Site
  nextBuild : BuildId
  nextPromotion : PromotionId

/-- Fresh identifiers are fresh, and a candidate build on an item is a row of the build
table (a foreign key). -/
structure Db.Wf (db : Db) : Prop where
  build_lt : ∀ id, (db.builds.get id).isSome → id < db.nextBuild
  candidate : ∀ sid item id, item ∈ db.items sid → item.candidateBuildId = some id →
    (db.builds.get id).isSome

/-! ## Creating a schedule -/

/-- What the route knows about one page of the request. -/
structure EligiblePage where
  slug : String
  draftId : DraftId
  sourceHash : String
  contentHash : String
  deriving DecidableEq

def hours (n : Nat) : Time := seconds (n * 3600)

/-- The items `create_index_schedule` inserts, in the order of the request. -/
def scheduleItems (startsAt : Time) (intervalHours batchSize : Nat) (pages : List EligiblePage) :
    List Item :=
  pages.zipIdx.map (fun (page, index) =>
    let batchNumber := index / batchSize + 1
    { draftId := page.draftId
      slug := page.slug
      sourceHash := page.sourceHash
      qaSourceHash := page.contentHash
      batchNumber := batchNumber
      plannedAt := startsAt + hours (intervalHours * (batchNumber - 1))
      state := .planned
      promotionId := none
      candidateBuildId := none
      preparedAt := none
      staleReason := none })

end MegaPanel.IndexSchedule
