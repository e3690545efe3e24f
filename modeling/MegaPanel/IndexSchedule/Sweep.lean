import MegaPanel.IndexSchedule.Model

set_option autoImplicit false

/-! # The schedule sweep

`prepare_due_index_schedule_batches`: select at most `limit` active schedules, and for each
of them either do nothing, mark it completed, pause it, or prepare its next due batch. An
exception anywhere rolls the whole sweep back; the result is then `none`.
-/

namespace MegaPanel.IndexSchedule

open MegaPanel.Lib

/-! ## Checks -/

/-- The candidate builds recorded on the items of the batches before `nextBatch`. -/
def candidateIds (items : List Item) (nextBatch : Nat) : List BuildId :=
  (items.filter (fun item => item.batchNumber < nextBatch)).filterMap (·.candidateBuildId)

/-- `_prior_batches_are_published` -/
def priorBatchesArePublished (builds : Table BuildId Build) (items : List Item)
    (nextBatch : Nat) : Bool :=
  let buildIds := candidateIds items nextBatch
  if buildIds = [] then true
  else
    let rows := builds.selectIn buildIds
    rows.length = buildIds.length && rows.all (fun r => r.2.firstPublishedAt.isSome)

/-- `_site_has_pending_candidate` -/
def siteHasPendingCandidate (builds : Table BuildId Build) (siteId : SiteId) : Bool :=
  builds.rows.any (fun r => r.2.siteId = siteId && (r.2.status = .queued || r.2.status = .running))

/-- The checks of `_validate_batch` on one item: `none` is an exception, `some none` a
current item. -/
def checkItem (db : Db) (schedule : Schedule) (pages : List Page) (item : Item) :
    Option (Option String) :=
  -- in a dictionary of pages by slug the last one wins
  match pages.reverse.find? (fun page => page.slug = item.slug) with
  | none => some (some "content_changed")
  | some page =>
    if page.hash ≠ item.sourceHash then some (some "content_changed")
    else
      match db.drafts item.draftId with
      | none => some (some "qa_or_draft_changed")
      | some draft =>
        match draft.page with
        | none => some (some "qa_or_draft_changed")
        | some (hash, slug) =>
          if draft.tenantId ≠ schedule.tenantId ∨ draft.projectId ≠ schedule.projectId
              ∨ !draft.applied ∨ draft.contentHash ≠ some item.qaSourceHash
              ∨ hash ≠ item.qaSourceHash ∨ !draft.currentQa ∨ !draft.qaPassed then
            some (some "qa_or_draft_changed")
          else
            slug.map (fun slug =>
              if slug ≠ item.slug then some "qa_or_draft_changed" else none)

/-- The first stale reason of the items of a batch. -/
def checkItems (db : Db) (schedule : Schedule) (pages : List Page) :
    List Item → Option (Option String)
  | [] => some none
  | item :: rest =>
    match checkItem db schedule pages item with
    | none => none
    | some (some reason) => some (some reason)
    | some none => checkItems db schedule pages rest

/-- `_validate_batch` -/
def validateBatch (db : Db) (schedule : Schedule) (items : List Item) :
    Option (Option String) :=
  match db.projects schedule.projectId, db.sites schedule.siteId with
  | some projectTenant, some site =>
    if projectTenant ≠ schedule.tenantId ∨ site.tenantId ≠ schedule.tenantId
        ∨ (site.projectId ≠ none ∧ site.projectId ≠ some schedule.projectId) then
      some (some "scope_changed")
    else
      match site.pages with
      | none => none
      | some pages => checkItems db schedule pages items
  | _, _ => some (some "scope_changed")

/-! ## One schedule -/

/-- What the sweep reports about a batch it prepared. -/
structure Prepared where
  scheduleId : ScheduleId
  batchNumber : Nat
  buildId : BuildId
  deriving DecidableEq

def Item.due (now : Time) (item : Item) : Bool := item.state = .planned && item.plannedAt ≤ now

/-- The planned items whose time has come. -/
def plannedItems (now : Time) (items : List Item) : List Item := items.filter (·.due now)

/-- `min(item.batch_number for item in planned)`, `none` for no items. -/
def minBatch (items : List Item) : Option Nat := (items.map (·.batchNumber)).min?

/-- `max(item.batch_number for item in items)` -/
def maxBatch (items : List Item) : Nat := (items.map (·.batchNumber)).foldl max 0

/-- The items of the batch the sweep is at. -/
def batchItems (now : Time) (items : List Item) (batchNumber : Nat) : List Item :=
  (plannedItems now items).filter (fun item => item.batchNumber = batchNumber)

def Item.inBatch (now : Time) (batchNumber : Nat) (item : Item) : Bool :=
  item.due now && item.batchNumber = batchNumber

/-- `_pause_stale_schedule` -/
def pauseStaleSchedule (now : Time) (db : Db) (id : ScheduleId) (schedule : Schedule)
    (batchNumber : Nat) (reason : String) : Db :=
  { db with
    schedules := db.schedules.set id { schedule with state := .paused, pausedAt := some now }
    items := Function.update db.items id ((db.items id).map (fun item =>
      if item.inBatch now batchNumber then { item with state := .stale, staleReason := some reason }
      else item)) }

/-- The promotions of a batch, with their identifiers. -/
def batchPromotions (now : Time) (schedule : Schedule) (next : PromotionId) (batch : List Item) :
    List (PromotionId × Promotion) :=
  batch.zipIdx.map (fun (item, index) =>
    (next + index,
      { tenantId := schedule.tenantId
        siteId := schedule.siteId
        projectId := schedule.projectId
        draftId := item.draftId
        slug := item.slug
        sourceHash := item.sourceHash
        qaSourceHash := item.qaSourceHash
        reason := "План постепенной индексации: " ++ schedule.reason
        decidedBy := schedule.approvedBy
        decidedAt := now }))

/-- The candidate build of a batch. -/
def batchBuild (now : Time) (schedule : Schedule) (site : Site) : Build where
  tenantId := site.tenantId
  projectId := some schedule.projectId
  siteId := schedule.siteId
  status := .queued
  previousBuildHash := site.buildHash
  requestedBy := schedule.createdBy
  queuePriority := 25
  lastEnqueuedAt := some now
  firstPublishedAt := none

/-- The rows written for a current batch; `none` when `_freeze_candidate_build_input` refuses
the site's author profiles. -/
def prepareBatch (now : Time) (db : Db) (id : ScheduleId) (schedule : Schedule)
    (batchNumber : Nat) : Option (Db × Option Prepared) :=
  match db.sites schedule.siteId with
  | none => none
  | some site =>
    if !site.authorsCurrent then none
    else
      let promotions := batchPromotions now schedule db.nextPromotion
        (batchItems now (db.items id) batchNumber)
      some
        ({ db with
            builds := db.builds.set db.nextBuild (batchBuild now schedule site)
            promotions := db.promotions ++ promotions
            items := Function.update db.items id ((db.items id).map (fun item =>
              if item.inBatch now batchNumber then
                { item with
                  state := .prepared
                  candidateBuildId := some db.nextBuild
                  preparedAt := some now
                  promotionId := (promotions.find? (fun p => p.2.slug = item.slug)).map (·.1) }
              else item))
            nextBuild := db.nextBuild + 1
            nextPromotion := db.nextPromotion + promotions.length },
          some { scheduleId := id, batchNumber := batchNumber, buildId := db.nextBuild })

def completeSchedule (now : Time) (db : Db) (id : ScheduleId) (schedule : Schedule) : Db :=
  { db with
    schedules := db.schedules.set id
      { schedule with state := .completed, completedAt := some now } }

/-- The body of the sweep's loop. -/
def sweepSchedule (now : Time) (db : Db) (id : ScheduleId) : Option (Db × Option Prepared) :=
  match db.schedules.get id with
  | none => some (db, none)
  | some schedule =>
    let items := db.items id
    match minBatch (plannedItems now items) with
    | none =>
      if items ≠ [] ∧ items.all (fun item => item.state = .prepared) = true
          ∧ priorBatchesArePublished db.builds items (maxBatch items + 1) = true then
        some (completeSchedule now db id schedule, none)
      else some (db, none)
    | some batchNumber =>
      if !priorBatchesArePublished db.builds items batchNumber then some (db, none)
      else if siteHasPendingCandidate db.builds schedule.siteId then some (db, none)
      else
        match validateBatch db schedule (batchItems now items batchNumber) with
        | none => none
        | some (some reason) =>
          some (pauseStaleSchedule now db id schedule batchNumber reason, none)
        | some none => prepareBatch now db id schedule batchNumber

/-! ## The sweep -/

def sweepLoop (now : Time) : List ScheduleId → Db → List Prepared → Option (Db × List Prepared)
  | [], db, prepared => some (db, prepared)
  | id :: rest, db, prepared =>
    match sweepSchedule now db id with
    | none => none
    | some (db, one) => sweepLoop now rest db (prepared ++ one.toList)

/-- The active schedules no other transaction holds, in the order of the selection. -/
def activeSchedules (locked : List ScheduleId) (db : Db) : List ScheduleId :=
  ((db.schedules.rows.filter (fun r => r.2.state = .active && !decide (r.1 ∈ locked))).insertionSort
    (fun a b => a.2.startsAt < b.2.startsAt ∨
      (a.2.startsAt = b.2.startsAt ∧ a.2.createdAt ≤ b.2.createdAt))).map (·.1)

/-- The schedules one sweep examines: the limit applies to all active schedules. -/
def examined (locked : List ScheduleId) (limit : Nat) (db : Db) : List ScheduleId :=
  (activeSchedules locked db).take limit

def prepareDueIndexScheduleBatches (now : Time) (locked : List ScheduleId) (limit : Nat)
    (db : Db) : Option (Db × List Prepared) :=
  sweepLoop now (examined locked limit db) db []

end MegaPanel.IndexSchedule
