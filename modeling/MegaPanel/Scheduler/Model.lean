import MegaPanel.Basic
import MegaPanel.Lib.Table
import MegaPanel.Lib.UnitOfWork
import MegaPanel.Lib.Sha256

set_option autoImplicit false

/-! # The scheduler's tables

The rows of `scheduler_jobs`, `scheduler_attempts`, `scheduler_wakeups` and
`scheduler_project_turns`, and the three kinds of source work a job runs: candidate builds
(`site_builds`), Bukvarix keyword runs and competitor crawls.

The unique constraint on `(work_type, source_id)` makes the pair a key of the job table, and
the model uses it as the primary key (`JobKey`); the source of a job is the row under the
same key. The three source tables share one row type: a crawl's `error_code` and
`finished_at` are `failureCode` and `completedAt` here.
-/

namespace MegaPanel.Scheduler

open MegaPanel.Lib

/-! ## Rows -/

inductive WorkType
  | bukvarixKeyword
  | competitorCrawl
  | siteBuild
  deriving DecidableEq

/-- `scheduler_jobs.state` -/
inductive JobState
  | queued
  | leased
  | running
  | cancelRequested
  | paused
  | succeeded
  | failed
  | cancelled
  deriving DecidableEq

/-- The status column of the three source tables. -/
inductive SourceStatus
  | queued
  | running
  | ready
  | completed
  | done
  | partlyDone
  | blocked
  | failed
  | cancelled
  deriving DecidableEq

/-- `_EVENTS` -/
inductive EventType
  | queued
  | claimed
  | wakePublished
  | started
  | leaseExpired
  | paused
  | resumed
  | cancelRequested
  | cancelled
  | succeeded
  | failed
  deriving DecidableEq

abbrev SourceId := Nat
abbrev LeaseId := Nat

/-- `(work_type, source_id)` -/
abbrev JobKey := WorkType × SourceId

instance : LawfulBEq JobKey := inferInstance
instance : LawfulBEq (JobKey × LeaseId) := inferInstance

/-- `(tenant_id, project_id)` -/
abbrev ProjectKey := TenantId × ProjectId

/-- A row of `scheduler_jobs`. -/
structure Job where
  id : Nat
  tenantId : TenantId
  projectId : Option ProjectId
  siteId : Option SiteId
  sourceHash : Option String
  sourceVersion : Option Nat
  state : JobState
  priority : Nat
  notBefore : Option Time
  eligibleAt : Time
  firstEligibleAt : Time
  queuedAt : Time
  attemptCount : Nat
  leaseId : Option LeaseId
  leasedAt : Option Time
  leaseExpiresAt : Option Time
  startedAt : Option Time
  finishedAt : Option Time
  pausedAt : Option Time
  cancelledAt : Option Time
  cancelRequestedAt : Option Time
  failureCode : Option String
  requestedBy : Option UserId
  deriving DecidableEq

/-- A source row. `frozen` is the canonical JSON text of the frozen input: `input_snapshot`
of a build (`none` when it is null or empty), `seed_snapshot` of a Bukvarix run, the object
`competitor_crawl_source_hash` hashes for a crawl. `frozenHash` is the hash stored beside
it; a crawl stores none. -/
structure Source where
  tenantId : TenantId
  projectId : Option ProjectId
  siteId : Option SiteId
  frozen : Option String
  frozenHash : Option String
  snapshotVersion : Nat
  queuePriority : Nat
  notBefore : Option Time
  requestedBy : Option UserId
  status : SourceStatus
  failureCode : Option String
  attemptCount : Nat
  startedAt : Option Time
  completedAt : Option Time
  leaseExpiresAt : Option Time
  cancelledAt : Option Time
  deriving DecidableEq

/-- A row of `scheduler_attempts`, the event log. -/
structure Attempt where
  job : JobKey
  tenantId : TenantId
  projectId : Option ProjectId
  siteId : Option SiteId
  sequence : Nat
  attempt : Nat
  eventType : EventType
  safeCode : Option String
  deriving DecidableEq

inductive WakeupState
  | pending
  | published
  | expired
  deriving DecidableEq

/-- A row of `scheduler_wakeups`, keyed by its unique pair of job and lease. -/
structure Wakeup where
  tenantId : TenantId
  state : WakeupState
  attemptCount : Nat
  availableAt : Time
  publishedAt : Option Time
  deriving DecidableEq

/-- A row of `scheduler_project_turns`. -/
structure ProjectTurn where
  dispatchTurn : Nat
  lastDispatchedAt : Option Time
  deriving DecidableEq

/-- The database. -/
structure Db where
  jobs : Table JobKey Job
  sources : Table JobKey Source
  wakeups : Table (JobKey × LeaseId) Wakeup
  turns : Table ProjectKey ProjectTurn
  attempts : List Attempt

/-! ## Constants and row predicates -/

/-- `_LEASE_SECONDS` -/
def leaseDuration : Time := seconds (10 * 60)

/-- `_MAX_CONCURRENCY` -/
def maxConcurrency : Nat := 1

/-- `state in ("leased", "running", "cancel_requested")` -/
def JobState.isActive : JobState → Bool
  | .leased | .running | .cancelRequested => true
  | _ => false

/-- `state in ("succeeded", "failed", "cancelled")`: nothing is left to run. -/
def JobState.isTerminal : JobState → Bool
  | .succeeded | .failed | .cancelled => true
  | _ => false

theorem JobState.isTerminal_not_active {state : JobState} (h : state.isTerminal = true) :
    state.isActive = false := by
  cases state <;> first | rfl | cases h

/-- `status in {"queued", "running"}` -/
def SourceStatus.isOpen : SourceStatus → Bool
  | .queued | .running => true
  | _ => false

/-- `status in {"ready", "completed", "done", "partial"}` -/
def SourceStatus.isSuccess : SourceStatus → Bool
  | .ready | .completed | .done | .partlyDone => true
  | _ => false

/-- The row carries the lease `lease` in an active state. -/
def Job.holds (job : Job) (lease : LeaseId) : Bool :=
  job.leaseId == some lease && job.state.isActive

theorem Job.holds_iff {job : Job} {lease : LeaseId} :
    job.holds lease = true ↔ job.leaseId = some lease ∧ job.state.isActive = true := by
  simp [Job.holds]

/-- Write the columns of a loaded job that changed since it was read. -/
def Job.flush (loaded current stored : Job) : Job where
  id := writeCol loaded.id current.id stored.id
  tenantId := writeCol loaded.tenantId current.tenantId stored.tenantId
  projectId := writeCol loaded.projectId current.projectId stored.projectId
  siteId := writeCol loaded.siteId current.siteId stored.siteId
  sourceHash := writeCol loaded.sourceHash current.sourceHash stored.sourceHash
  sourceVersion := writeCol loaded.sourceVersion current.sourceVersion stored.sourceVersion
  state := writeCol loaded.state current.state stored.state
  priority := writeCol loaded.priority current.priority stored.priority
  notBefore := writeCol loaded.notBefore current.notBefore stored.notBefore
  eligibleAt := writeCol loaded.eligibleAt current.eligibleAt stored.eligibleAt
  firstEligibleAt :=
    writeCol loaded.firstEligibleAt current.firstEligibleAt stored.firstEligibleAt
  queuedAt := writeCol loaded.queuedAt current.queuedAt stored.queuedAt
  attemptCount := writeCol loaded.attemptCount current.attemptCount stored.attemptCount
  leaseId := writeCol loaded.leaseId current.leaseId stored.leaseId
  leasedAt := writeCol loaded.leasedAt current.leasedAt stored.leasedAt
  leaseExpiresAt := writeCol loaded.leaseExpiresAt current.leaseExpiresAt stored.leaseExpiresAt
  startedAt := writeCol loaded.startedAt current.startedAt stored.startedAt
  finishedAt := writeCol loaded.finishedAt current.finishedAt stored.finishedAt
  pausedAt := writeCol loaded.pausedAt current.pausedAt stored.pausedAt
  cancelledAt := writeCol loaded.cancelledAt current.cancelledAt stored.cancelledAt
  cancelRequestedAt :=
    writeCol loaded.cancelRequestedAt current.cancelRequestedAt stored.cancelRequestedAt
  failureCode := writeCol loaded.failureCode current.failureCode stored.failureCode
  requestedBy := writeCol loaded.requestedBy current.requestedBy stored.requestedBy

/-- A session whose copy is the stored row writes exactly what it holds. -/
@[simp] theorem Job.flush_stored (loaded current : Job) :
    Job.flush loaded current loaded = current := by
  simp [Job.flush]

/-- Write the columns of a loaded source that changed since it was read. -/
def Source.flush (loaded current stored : Source) : Source where
  tenantId := writeCol loaded.tenantId current.tenantId stored.tenantId
  projectId := writeCol loaded.projectId current.projectId stored.projectId
  siteId := writeCol loaded.siteId current.siteId stored.siteId
  frozen := writeCol loaded.frozen current.frozen stored.frozen
  frozenHash := writeCol loaded.frozenHash current.frozenHash stored.frozenHash
  snapshotVersion :=
    writeCol loaded.snapshotVersion current.snapshotVersion stored.snapshotVersion
  queuePriority := writeCol loaded.queuePriority current.queuePriority stored.queuePriority
  notBefore := writeCol loaded.notBefore current.notBefore stored.notBefore
  requestedBy := writeCol loaded.requestedBy current.requestedBy stored.requestedBy
  status := writeCol loaded.status current.status stored.status
  failureCode := writeCol loaded.failureCode current.failureCode stored.failureCode
  attemptCount := writeCol loaded.attemptCount current.attemptCount stored.attemptCount
  startedAt := writeCol loaded.startedAt current.startedAt stored.startedAt
  completedAt := writeCol loaded.completedAt current.completedAt stored.completedAt
  leaseExpiresAt := writeCol loaded.leaseExpiresAt current.leaseExpiresAt stored.leaseExpiresAt
  cancelledAt := writeCol loaded.cancelledAt current.cancelledAt stored.cancelledAt

@[simp] theorem Source.flush_stored (loaded current : Source) :
    Source.flush loaded current loaded = current := by
  simp [Source.flush]

end MegaPanel.Scheduler
