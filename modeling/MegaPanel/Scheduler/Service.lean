import MegaPanel.Scheduler.Model

set_option autoImplicit false

/-! # The scheduler service

The operations of `services/scheduler.py`, each as a function of the database and of the
instant `now` at which it runs. An operation that reads a row through a session which may
have loaded it before takes that session's copy as an argument: `none` is a session that has
not loaded the row. Refused operations return the text of the `ValueError`.
-/

namespace MegaPanel.Scheduler

open MegaPanel.Lib MegaPanel.Lib.Sha256

/-! ## The event log -/

def appendSchedulerAttempt (db : Db) (key : JobKey) (job : Job) (event : EventType)
    (safeCode : Option String) : Db :=
  let sequence :=
    ((db.attempts.filter (fun a => a.job = key)).map (·.sequence)).foldl max 0 + 1
  { db with
    attempts := db.attempts ++
      [{ job := key, tenantId := job.tenantId, projectId := job.projectId, siteId := job.siteId,
         sequence := sequence, attempt := job.attemptCount, eventType := event,
         safeCode := safeCode }] }

/-! ## Creating jobs -/

/-- The column defaults of a new job row. -/
def newJob (now : Time) (id : Nat) (source : Source) : Job where
  id := id
  tenantId := source.tenantId
  projectId := source.projectId
  siteId := none
  sourceHash := source.frozenHash
  sourceVersion := some 1
  state := .queued
  priority := 50
  notBefore := none
  eligibleAt := now
  firstEligibleAt := now
  queuedAt := now
  attemptCount := 0
  leaseId := none
  leasedAt := none
  leaseExpiresAt := none
  startedAt := none
  finishedAt := none
  pausedAt := none
  cancelledAt := none
  cancelRequestedAt := none
  failureCode := none
  requestedBy := source.requestedBy

/-- The common part of the three creators: return the job that is there if `same` says that
it is the job of this source, insert `job` if there is none. -/
def bindJob (db : Db) (copy : Option Job) (key : JobKey) (same : Job → Bool) (job : Job) :
    Except String Db :=
  match lockedRead copy (db.jobs.get key) with
  | some existing =>
    if same existing then .ok db else .error "Scheduler job source identity mismatch"
  | none =>
    .ok (appendSchedulerAttempt { db with jobs := db.jobs.set key job } key job .queued none)

def createSiteBuildJob (now : Time) (db : Db) (copy : Option Job) (id : Nat)
    (source : SourceId) (build : Source) : Except String Db :=
  if build.projectId.isNone || build.snapshotVersion != 1 || build.frozenHash.isNone then
    .error "Only frozen project candidate builds can be scheduled"
  else
    bindJob db copy (.siteBuild, source)
      (fun existing =>
        existing.tenantId == build.tenantId && existing.projectId == build.projectId
          && existing.siteId == build.siteId && existing.sourceHash == build.frozenHash)
      { newJob now id build with
        siteId := build.siteId
        sourceVersion := some build.snapshotVersion
        priority := build.queuePriority
        notBefore := build.notBefore }

def createBukvarixKeywordJob (now : Time) (db : Db) (id : Nat) (source : SourceId)
    (run : Source) : Except String Db :=
  if run.status ≠ .queued || run.frozenHash.isNone then
    .error "Only queued Bukvarix runs with a frozen seed snapshot can be scheduled"
  else
    bindJob db none (.bukvarixKeyword, source)
      (fun existing =>
        existing.tenantId == run.tenantId && existing.projectId == run.projectId
          && existing.sourceHash == run.frozenHash)
      (newJob now id run)

def competitorCrawlSourceHash (crawl : Source) : Option String := crawl.frozen.map sha256Hex

def createCompetitorCrawlJob (now : Time) (db : Db) (id : Nat) (source : SourceId)
    (crawl : Source) : Except String Db :=
  if crawl.status ≠ .queued || crawl.projectId.isNone then
    .error "Only queued project crawls can be scheduled"
  else
    bindJob db none (.competitorCrawl, source)
      (fun existing =>
        existing.tenantId == crawl.tenantId && existing.projectId == crawl.projectId
          && existing.sourceHash == competitorCrawlSourceHash crawl)
      { newJob now id crawl with sourceHash := competitorCrawlSourceHash crawl }

/-- The in-memory effect of a manual retry on a job instance. -/
def Job.requeue (now : Time) (build : Source) (job : Job) : Job :=
  { job with
    state := .queued
    priority := build.queuePriority
    notBefore := build.notBefore
    eligibleAt := now
    queuedAt := now
    finishedAt := none
    failureCode := none
    leaseId := none
    leasedAt := none
    leaseExpiresAt := none }

def requeueSiteBuildJob (now : Time) (db : Db) (copy : Option Job) (id : Nat)
    (source : SourceId) (build : Source) : Except String Db :=
  let key : JobKey := (.siteBuild, source)
  match createSiteBuildJob now db copy id source build with
  | .error message => .error message
  | .ok db' =>
    match db'.jobs.get key with
    | none => .ok db'
    | some row =>
      -- the instance `create_site_build_job` returned: the loaded one, or a new one
      let job := (lockedRead copy (db.jobs.get key)).getD row
      if job.state = .queued then .ok db'
      else if job.state = .failed ∨ job.state = .cancelled ∨ job.state = .paused then
        let next := job.requeue now build
        .ok (appendSchedulerAttempt
          { db' with jobs := db'.jobs.set key (Job.flush job next row) }
          key next .queued (some "manual_retry"))
      else .error "Scheduler job is not retryable"

/-! ## Lease recovery -/

/-- `_expire_pending_wakeups` -/
def expirePendingWakeups (db : Db) (key : JobKey) (job : Job) : Db :=
  match job.leaseId with
  | none => db
  | some lease =>
    match db.wakeups.get (key, lease) with
    | some wakeup =>
      if wakeup.state = .pending then
        { db with wakeups := db.wakeups.set (key, lease) { wakeup with state := .expired } }
      else db
    | none => db

/-- The selection of the recovery sweep. -/
def Job.leaseExpired (now : Time) (job : Job) : Bool :=
  job.state.isActive &&
    match job.leaseExpiresAt with
    | none => false
    | some expires => expires < now

/-- What recovery does to a job and to its source, `none` when the source row is missing. -/
def recoverPair (now : Time) (work : WorkType) (job : Job) (source : Option Source) :
    Job × Option Source :=
  let release (job : Job) : Job :=
    { job with
      finishedAt := if job.state = .queued then job.finishedAt else some now
      leaseId := none
      leaseExpiresAt := none }
  if job.state = .cancelRequested ∨ source.any (fun s => s.status = .cancelled) then
    (release { job with state := .cancelled, cancelledAt := some now, failureCode := none },
      source.map (fun s =>
        if s.status.isOpen && work ≠ .siteBuild then { s with status := .cancelled } else s))
  else if source.any (fun s => s.status.isSuccess) then
    (release { job with state := .succeeded, failureCode := none }, source)
  else if job.state = .leased ∧ source.any (fun s => s.status = .queued) then
    (release { job with state := .queued, eligibleAt := now, queuedAt := now,
                        failureCode := none }, source)
  else
    (release { job with state := .failed, failureCode := some "worker_timeout" },
      source.map (fun s =>
        if s.status.isOpen then
          { s with
            status := .failed
            failureCode := some "worker_timeout"
            completedAt := some now
            leaseExpiresAt := if work = .siteBuild then none else s.leaseExpiresAt }
        else s))

/-- `if source: source.status = ...`: store the source row if there is one. -/
def setSource (sources : Table JobKey Source) (key : JobKey) : Option Source → Table JobKey Source
  | none => sources
  | some s => sources.set key s

/-- The recovery sweep at one job; `locked` says which rows another transaction holds. -/
def recoverJob (now : Time) (locked : List JobKey) (db : Db) (key : JobKey) : Db :=
  match db.jobs.get key with
  | none => db
  | some job =>
    if job.leaseExpired now && !decide (key ∈ locked) then
      let db := expirePendingWakeups db key job
      let (job', source') := recoverPair now key.1 job (db.sources.get key)
      appendSchedulerAttempt
        { db with
          jobs := db.jobs.set key job'
          sources := setSource db.sources key source' }
        key job' .leaseExpired (some "worker_timeout")
    else db

def recoverExpiredSchedulerLeases (now : Time) (locked : List JobKey) (db : Db) : Db :=
  db.jobs.keys.foldl (recoverJob now locked) db

/-! ## Dispatch -/

/-- `_active_slots` -/
def activeSlots (db : Db) : Nat :=
  (db.jobs.rows.filter (fun r => r.2.state.isActive)).length
    + (db.sources.rows.filter (fun r => r.2.status = .running &&
        !(db.jobs.get r.1).any (fun job => job.state.isActive))).length

/-- The free slots of one dispatch, `max(0, min(limit, _MAX_CONCURRENCY - active))`. -/
def freeSlots (limit : Nat) (db : Db) : Nat := min limit (maxConcurrency - activeSlots db)

def Job.due (now : Time) (job : Job) : Bool :=
  job.state = .queued && job.eligibleAt ≤ now && job.notBefore.all (· ≤ now)

def Job.projectKey (job : Job) : Option ProjectKey := job.projectId.map (fun p => (job.tenantId, p))

/-- `least(100, priority + floor(age in hours))` -/
def effectivePriority (now : Time) (job : Job) : Int :=
  min 100 ((job.priority : Int) + ((now : Int) - job.firstEligibleAt) / (seconds 3600 : Nat))

/-- `ORDER BY effective_priority DESC, first_eligible_at, id` -/
def precedes (now : Time) (a b : Job) : Bool :=
  effectivePriority now b < effectivePriority now a ||
    (effectivePriority now a = effectivePriority now b &&
      (a.firstEligibleAt < b.firstEligibleAt ||
        (a.firstEligibleAt = b.firstEligibleAt && a.id < b.id)))

/-- The first row in the dispatch order. -/
def firstDue (now : Time) (rows : List (JobKey × Job)) : Option (JobKey × Job) :=
  rows.foldl (fun best r =>
    match best with
    | none => some r
    | some b => if precedes now r.2 b.2 then some r else some b) none

/-- The due job of a project that `FOR UPDATE SKIP LOCKED LIMIT 1` returns. -/
def dueJobOf (now : Time) (locked : List JobKey) (db : Db) (project : ProjectKey) :
    Option (JobKey × Job) :=
  firstDue now (db.jobs.rows.filter (fun r =>
    r.2.due now && r.2.projectKey = some project && !decide (r.1 ∈ locked)))

/-- The projects with due work. -/
def projectKeys (now : Time) (db : Db) : List ProjectKey :=
  ((db.jobs.rows.filter (fun r => r.2.due now)).filterMap (fun r => r.2.projectKey)).dedup

/-- The project turns the dispatch loads: those of the projects with due work. -/
def loadedTurns (db : Db) (keys : List ProjectKey) : List (ProjectKey × ProjectTurn) :=
  db.turns.rows.filter (fun r => r.1.2 ∈ keys.map (·.2))

/-- The sort key `(turns[key].dispatch_turn if key in turns else -1, str(key[1]))`. -/
def turnRank (db : Db) (key : ProjectKey) : Int × ProjectId :=
  (match db.turns.get key with
    | some turn => (turn.dispatchTurn : Int)
    | none => -1, key.2)

def orderedKeys (db : Db) (keys : List ProjectKey) : List ProjectKey :=
  keys.insertionSort (fun a b =>
    (turnRank db a).1 < (turnRank db b).1 ∨
      ((turnRank db a).1 = (turnRank db b).1 ∧ (turnRank db a).2 ≤ (turnRank db b).2))

/-- The in-memory effect of a dispatch on a job instance. -/
def Job.lease (now : Time) (lease : LeaseId) (job : Job) : Job :=
  { job with
    state := .leased
    attemptCount := job.attemptCount + 1
    leaseId := some lease
    leasedAt := some now
    leaseExpiresAt := some (now + leaseDuration)
    failureCode := none }

/-- The locals of the dispatch loop. -/
structure Dispatch where
  db : Db
  nextLease : LeaseId
  nextTurn : Nat
  activeKeys : List (Option ProjectKey)
  selected : List JobKey

/-- Lease the job `(key, job)` of `project`, with a fresh lease identifier. -/
def Dispatch.take (now : Time) (project : ProjectKey) (key : JobKey) (job : Job) (d : Dispatch) :
    Dispatch :=
  let job' := job.lease now d.nextLease
  let db := appendSchedulerAttempt { d.db with jobs := d.db.jobs.set key job' } key job' .claimed none
  { db := { db with
      wakeups := db.wakeups.set (key, d.nextLease)
        { tenantId := job.tenantId, state := .pending, attemptCount := 0, availableAt := now,
          publishedAt := none }
      turns := db.turns.set project
        { dispatchTurn := d.nextTurn + 1, lastDispatchedAt := some now } }
    nextLease := d.nextLease + 1
    nextTurn := d.nextTurn + 1
    activeKeys := some project :: d.activeKeys
    selected := d.selected ++ [key] }

def dispatchLoop (now : Time) (slots : Nat) (locked : List JobKey) :
    List ProjectKey → Dispatch → Dispatch
  | [], d => d
  | project :: rest, d =>
    if d.selected.length ≥ slots then d
    else if some project ∈ d.activeKeys then dispatchLoop now slots locked rest d
    else
      match dueJobOf now locked d.db project with
      | none => dispatchLoop now slots locked rest d
      | some (key, job) => dispatchLoop now slots locked rest (d.take now project key job)

/-- The part of `dispatch_due_jobs` after the capacity count: `slots` is what the count left
free. The transaction-scoped advisory lock lets only one dispatch be between the two. -/
def dispatchDueJobs (now : Time) (slots : Nat) (locked : List JobKey) (nextLease : LeaseId)
    (db : Db) : Dispatch :=
  let keys := projectKeys now db
  dispatchLoop now slots locked (orderedKeys db keys)
    { db := db
      nextLease := nextLease
      nextTurn := ((loadedTurns db keys).map (·.2.dispatchTurn)).foldl max 0
      activeKeys := (db.jobs.rows.filter (fun r => r.2.state.isActive)).map (·.2.projectKey)
      selected := [] }

/-! ## The outbox -/

/-- `publish_pending_wakeups` at one wakeup; `sent` says whether the queue accepted the
message. The second component is the message, if one was sent. -/
def publishWakeup (now : Time) (db : Db) (key : JobKey) (lease : LeaseId) (sent : Bool) :
    Db × Option (JobKey × LeaseId) :=
  match db.wakeups.get (key, lease) with
  | none => (db, none)
  | some wakeup =>
    if wakeup.state ≠ .pending then (db, none)
    else
      let store (w : Wakeup) : Db := { db with wakeups := db.wakeups.set (key, lease) w }
      let current := (db.jobs.get key).any (fun job =>
        job.tenantId = wakeup.tenantId && job.state = .leased && job.leaseId = some lease
          && job.leaseExpiresAt.any (now < ·))
      match current, db.jobs.get key with
      | true, some job =>
        if sent then
          (appendSchedulerAttempt
            (store { wakeup with state := .published, publishedAt := some now })
            key job .wakePublished none, some (key, lease))
        else
          (store { wakeup with
            attemptCount := wakeup.attemptCount + 1
            availableAt := now + seconds 30 }, none)
      | _, _ => (store { wakeup with state := .expired }, none)

/-! ## Claiming and completing -/

/-- `_source_status`: the frozen identity check, and the status if it passes. -/
def sourceStatus (db : Db) (key : JobKey) (job : Job) : Option SourceStatus × Option String :=
  match db.sources.get key with
  | none => (none, some "source_missing")
  | some source =>
    match key.1 with
    | .siteBuild =>
      match source.frozen with
      | none => (none, some "source_missing")
      | some text =>
        if source.tenantId ≠ job.tenantId ∨ source.projectId ≠ job.projectId
            ∨ source.siteId ≠ job.siteId ∨ some source.snapshotVersion ≠ job.sourceVersion
            ∨ source.frozenHash ≠ job.sourceHash ∨ some (sha256Hex text) ≠ job.sourceHash then
          (none, some "source_mismatch")
        else (some source.status, none)
    | .bukvarixKeyword =>
      if source.tenantId ≠ job.tenantId ∨ source.projectId ≠ job.projectId
          ∨ source.frozenHash ≠ job.sourceHash
          ∨ source.frozen.map sha256Hex ≠ job.sourceHash then
        (none, some "source_mismatch")
      else (some source.status, none)
    | .competitorCrawl =>
      if source.tenantId ≠ job.tenantId ∨ source.projectId ≠ job.projectId
          ∨ competitorCrawlSourceHash source ≠ job.sourceHash then
        (none, some "source_mismatch")
      else (some source.status, none)

/-- The `status` entry of a result. -/
inductive ResultStatus
  | source (status : SourceStatus)
  | missing
  | staleLease
  deriving DecidableEq

/-- The result a worker hands to `complete_execution`. -/
structure Result where
  status : ResultStatus
  errorCode : Option String
  deriving DecidableEq

/-- What `complete_execution` returns. -/
inductive Answer
  | result (result : Result)
  | staleLease (key : JobKey)
  deriving DecidableEq

def ResultStatus.isSuccess : ResultStatus → Bool
  | .source status => status.isSuccess
  | _ => false

/-- `_SAFE_CODE.fullmatch` -/
def isSafeCode (code : String) : Bool :=
  1 ≤ code.length && code.length ≤ 64 &&
    code.toList.all (fun c => ('a' ≤ c && c ≤ 'z') || ('0' ≤ c && c ≤ '9') || c = '_')

/-- `str(result.get("error_code") or "source_execution_failed")`, made safe. -/
def failureCodeOf (result : Result) : String :=
  let proposed := match result.errorCode with
    | some code => if code = "" then "source_execution_failed" else code
    | none => "source_execution_failed"
  if isSafeCode proposed then proposed else "source_execution_failed"

/-- The in-memory effect of a completion on a job instance, with the event it logs. -/
def Job.complete (now : Time) (result : Result) (job : Job) : Job × EventType × Option String :=
  let close (job : Job) : Job :=
    { job with finishedAt := some now, leaseId := none, leaseExpiresAt := none }
  if job.state = .cancelRequested ∨ result.status = .source .cancelled then
    (close { job with state := .cancelled, cancelledAt := some now }, .cancelled, none)
  else if result.status.isSuccess then
    (close { job with state := .succeeded, failureCode := none }, .succeeded, none)
  else
    (close { job with state := .failed, failureCode := some (failureCodeOf result) }, .failed,
      some (failureCodeOf result))

def completeExecution (now : Time) (db : Db) (copy : Option Job) (key : JobKey)
    (lease : LeaseId) (result : Result) : Db × Answer :=
  match db.jobs.get key with
  | none => (db, .staleLease key)
  | some row =>
    let job := copy.getD row
    if job.holds lease then
      let (job', event, code) := job.complete now result
      (appendSchedulerAttempt { db with jobs := db.jobs.set key (Job.flush job job' row) }
        key job' event code, .result result)
    else (db, .staleLease key)

/-- The in-memory effect of a successful claim on a job instance. -/
def Job.start (now : Time) (job : Job) : Job :=
  { job with
    state := .running
    startedAt := some now
    leaseExpiresAt := some (now + leaseDuration) }

/-- The checks of `claim_execution` before it looks at the source. -/
def Job.claimable (now : Time) (lease : LeaseId) (job : Job) : Bool :=
  job.state = .leased && job.leaseId = some lease && job.leaseExpiresAt.any (now < ·)

/-- The result `claim_execution` completes a job with when its source cannot be started. -/
def unstartableResult (status : Option SourceStatus) (error : Option String) : Result where
  status := .source (status.getD .failed)
  errorCode := some (error.getD "source_not_queued")

/-- `claim_execution` in a fresh session: the job as started, or `none`. -/
def claimExecution (now : Time) (db : Db) (key : JobKey) (lease : LeaseId) : Db × Option Job :=
  match db.jobs.get key with
  | none => (db, none)
  | some job =>
    if job.claimable now lease then
      match sourceStatus db key job with
      | (some .queued, none) =>
        let job' := job.start now
        (appendSchedulerAttempt { db with jobs := db.jobs.set key job' } key job' .started none,
          some job')
      | (status, error) =>
        ((completeExecution now db (some job) key lease (unstartableResult status error)).1,
          none)
    else (db, none)

/-! ## Operator transitions -/

/-- The in-memory effect of a pause on a job instance. -/
def Job.pause (now : Time) (job : Job) : Job :=
  { job with state := .paused, pausedAt := some now }

def pauseJob (now : Time) (db : Db) (key : JobKey) (job : Job) : Except String Db :=
  if job.state ≠ .queued then .error "Only queued scheduled work can be paused"
  else .ok (appendSchedulerAttempt { db with jobs := db.jobs.set key (job.pause now) } key
    (job.pause now) .paused none)

/-- The in-memory effect of a resume on a job instance. -/
def Job.resume (now : Time) (job : Job) : Job :=
  { job with state := .queued, eligibleAt := now, queuedAt := now, pausedAt := none }

def resumeJob (now : Time) (db : Db) (key : JobKey) (job : Job) : Except String Db :=
  if job.state ≠ .paused then .error "Only paused scheduled work can be resumed"
  else .ok (appendSchedulerAttempt { db with jobs := db.jobs.set key (job.resume now) } key
    (job.resume now) .resumed none)

/-- The in-memory effect of a cancellation on a source instance. A site build has no
cancelled state: it fails with a code of its own, unless it is running, which
`cancel_job` refuses. -/
def Source.cancel (now : Time) (work : WorkType) (running : Bool) (source : Source) : Source :=
  if running then { source with status := .cancelled, cancelledAt := some now }
  else
    match work with
    | .siteBuild =>
      { source with
        status := .failed
        failureCode := some "cancelled_by_operator"
        completedAt := some now
        leaseExpiresAt := none }
    | .bukvarixKeyword => { source with status := .cancelled, completedAt := some now }
    | .competitorCrawl => { source with status := .cancelled, cancelledAt := some now }

/-- The in-memory effect of a cancellation on a job instance. -/
def Job.cancel (now : Time) (job : Job) : Job :=
  if job.state = .running then
    { job with state := .cancelRequested, cancelRequestedAt := some now }
  else
    { job with
      state := .cancelled
      cancelledAt := some now
      finishedAt := some now
      leaseId := none
      leaseExpiresAt := none }

/-- `cancel_job` on a job row its caller has locked. `copy` is the caller's instance of the
source; `amend` is what the caller still writes to that instance before it commits. -/
def cancelJob (now : Time) (db : Db) (key : JobKey) (job : Job) (copy : Option Source)
    (amend : Source → Source) : Except String Db :=
  if job.state ≠ .queued ∧ job.state ≠ .paused ∧ job.state ≠ .leased ∧ job.state ≠ .running then
    .error "Scheduled work cannot be cancelled in its current state"
  else if job.state = .running ∧ key.1 ≠ .competitorCrawl then
    .error "An active build or Bukvarix request cannot be interrupted"
  else
    match db.sources.get key with
    | none => .error "Source work is no longer cancellable"
    | some row =>
      let source := copy.getD row
      if !source.status.isOpen then .error "Source work is no longer cancellable"
      else
        let running : Bool := job.state = .running
        let source' := amend (source.cancel now key.1 running)
        let db := if running then db else expirePendingWakeups db key job
        .ok (appendSchedulerAttempt
          { db with
            jobs := db.jobs.set key (job.cancel now)
            sources := db.sources.set key (Source.flush source source' row) }
          key (job.cancel now) (if running then .cancelRequested else .cancelled) none)

end MegaPanel.Scheduler
