import MegaPanel.Scheduler.Service

set_option autoImplicit false

/-! # Source work

What a worker does between `claim_execution` and `complete_execution`, cut where its
transactions are cut: `run_queued_candidate_build`, `run_bukvarix_keyword_run` and
`run_competitor_crawl` each begin with a transaction that marks the source running and end
with one that records the outcome. The two kinds of source differ in the end:

* a candidate build re-checks its lease under the job's row lock
  (`_current_candidate_lease`), through the job instance its session loaded when it claimed;
* a Bukvarix run and a crawl read the status of their row again without a lock, and write
  the outcome in a later statement (`Outcome.written`, `Source.finishRun`).

The instance of the source that `_source_status` loads during the claim is referenced by
nobody once it returns, and an identity map holds its instances weakly: the first
transaction of the source work reads the stored row. The job instance stays referenced.
-/

namespace MegaPanel.Scheduler

open MegaPanel.Lib

/-! ## Starting -/

/-- A source refused at its start. -/
def Source.reject (now : Time) (work : WorkType) (code : String) (source : Source) : Source :=
  { source with
    status := .failed
    failureCode := some code
    completedAt := some now
    leaseExpiresAt := if work = .siteBuild then none else source.leaseExpiresAt }

/-- A source marked running. -/
def Source.markRunning (now : Time) (work : WorkType) (source : Source) : Source :=
  match work with
  | .siteBuild =>
    { source with
      status := .running
      attemptCount := source.attemptCount + 1
      startedAt := some now
      completedAt := none
      failureCode := none
      leaseExpiresAt := some (now + seconds 600) }
  | .bukvarixKeyword =>
    { source with status := .running, startedAt := some now, failureCode := none }
  | .competitorCrawl => { source with status := .running, startedAt := some now }

/-- Why a queued source cannot run. `valid` stands for the checks on rows outside the model:
the project and site of a build, the provider mode and the shape of a Bukvarix snapshot. -/
def Source.invalid (work : WorkType) (valid : Bool) (source : Source) : Option String :=
  match work with
  | .siteBuild =>
    if source.frozen.isNone || source.snapshotVersion ≠ 1 || source.projectId.isNone then
      some "snapshot_invalid"
    else if valid then none else some "tenant_scope_violation"
  | .bukvarixKeyword => if valid then none else some "invalid_snapshot"
  | .competitorCrawl => none

/-- The first transaction of the source work. The result is `none` when the work goes on. -/
def startSource (now : Time) (work : WorkType) (valid : Bool) :
    Option Source → Option Source × Option Result
  | none => (none, some { status := .missing, errorCode := none })
  | some source =>
    if source.status ≠ .queued then
      (some source, some { status := .source source.status, errorCode := none })
    else
      match source.invalid work valid with
      | some code =>
        (some (source.reject now work code),
          some { status := .source .failed, errorCode := some code })
      | none => (some (source.markRunning now work), none)

/-! ## Finishing -/

/-- How the work itself went. `raisedLate` is an exception after the build's status was set
to ready in memory, for instance by the release gate or the event log. -/
inductive Outcome
  | ready
  | raised
  | raisedLate
  | completed
  | failed (code : String)
  | done
  | partlyDone
  | blocked
  | crawlerFailed
  deriving DecidableEq

/-- The kind of work that can end so. -/
def Outcome.work : Outcome → WorkType
  | .ready | .raised | .raisedLate => .siteBuild
  | .completed | .failed _ => .bukvarixKeyword
  | .done | .partlyDone | .blocked | .crawlerFailed => .competitorCrawl

/-- What an outcome of a Bukvarix run or a crawl writes to the status and code columns. -/
def Outcome.written : Outcome → SourceStatus × Option String
  | .ready => (.ready, none)
  | .raised | .raisedLate => (.failed, some "build_execution_failed")
  | .completed => (.completed, none)
  | .failed code => (.failed, some code)
  | .done => (.done, none)
  | .partlyDone => (.partlyDone, none)
  | .blocked => (.blocked, some "ssrf_blocked")
  | .crawlerFailed => (.failed, some "crawler_failed")

/-- No outcome leaves a source queued or running. -/
theorem Outcome.written_closed (outcome : Outcome) : outcome.written.1.isOpen = false := by
  cases outcome <;> rfl

/-- `_current_candidate_lease`: `job` is what the locking read hands back, `build` the
refreshed build row. -/
def currentCandidateLease (now : Time) (job : Option Job) (lease : LeaseId)
    (build : Option Source) : Bool :=
  job.any (fun j =>
    j.leaseId = some lease && j.state = .running && j.leaseExpiresAt.any (now < ·))
    && build.any (fun b => b.status = .running)

/-- A build as the last transaction of the work leaves it. -/
def Source.finishBuild (now : Time) (status : SourceStatus) (code : Option String)
    (build : Source) : Source :=
  { build with
    status := status
    failureCode := code <|> build.failureCode
    completedAt := some now
    leaseExpiresAt := none }

/-- The last transaction of a candidate build. The result is `none` when the build answers
`stale_lease`: then nothing is committed yet and the job's row stays locked. -/
def finishBuild (now : Time) (db : Db) (key : JobKey) (copy : Job) (lease : LeaseId)
    (outcome : Outcome) : Db × Option Result :=
  match db.sources.get key with
  | none => (db, none)
  | some build =>
    if currentCandidateLease now (lockedRead (some copy) (db.jobs.get key)) lease
        (some build) then
      let store (status : SourceStatus) (code : Option String) : Db :=
        { db with sources := db.sources.set key (build.finishBuild now status code) }
      match outcome with
      | .ready => (store .ready none, some { status := .source .ready, errorCode := none })
      -- the second lease check flushes the ready row and then finds it not running
      | .raisedLate => (store .ready none, none)
      | _ =>
        (store .failed (some "build_execution_failed"),
          some { status := .source .failed, errorCode := some "build_execution_failed" })
    else (db, none)

/-- A Bukvarix run or a crawl as the last transaction of the work leaves it. -/
def Source.finishRun (now : Time) (status : SourceStatus) (code : Option String)
    (run : Source) : Source :=
  { run with
    status := status
    failureCode := code <|> run.failureCode
    completedAt := some now }

/-- The result of a Bukvarix run or a crawl; a crawl does not report its code. -/
def runResult (work : WorkType) (status : SourceStatus) (code : Option String) : Result where
  status := .source status
  errorCode := if work = .competitorCrawl then none else code

/-- What a build answers when its lease check fails. -/
def staleResult : Result where
  status := .staleLease
  errorCode := none

/-! ## Legacy sweeps

Before the scheduler owned them, sources were run by direct messages. Three sweeps recover
what those left behind; each skips every source that has a job. -/

/-- The common part of the three sweeps, at one source. -/
def sweepLegacySource (work : WorkType) (stale : Source → Bool) (amend : Source → Source)
    (db : Db) (key : JobKey) : Db :=
  match db.sources.get key with
  | none => db
  | some source =>
    if key.1 = work && (db.jobs.get key).isNone && source.status = .running
        && stale source then
      { db with sources := db.sources.set key (amend source) }
    else db

def sweepLegacy (work : WorkType) (stale : Source → Bool) (amend : Source → Source)
    (db : Db) : Db :=
  db.sources.keys.foldl (sweepLegacySource work stale amend) db

def expireStaleSiteBuilds (now : Time) (db : Db) : Db :=
  sweepLegacy .siteBuild (fun s => s.leaseExpiresAt.any (· < now))
    (fun s => { s with
      status := .failed
      failureCode := some "worker_timeout"
      completedAt := some now
      leaseExpiresAt := none }) db

def recoverStaleBukvarixKeywordRuns (now : Time) (db : Db) : Db :=
  sweepLegacy .bukvarixKeyword (fun s => s.startedAt.any (· + seconds 600 < now))
    (fun s => { s with
      status := .queued
      startedAt := none
      completedAt := none
      failureCode := none }) db

def recoverLegacyCompetitorCrawls (now : Time) (db : Db) : Db :=
  sweepLegacy .competitorCrawl (fun s => s.startedAt.any (· + seconds 600 < now))
    (fun s => { s with
      status := .failed
      failureCode := some "worker_timeout"
      completedAt := some now }) db

/-! ## Routes that create and retry work -/

/-- What a route knows about new work: the frozen text and the operator's choices. -/
structure Request where
  tenantId : TenantId
  projectId : Option ProjectId
  siteId : Option SiteId
  text : String
  queuePriority : Nat
  notBefore : Option Time
  requestedBy : Option UserId
  deriving DecidableEq

/-- The source row a route inserts. -/
def newSource (work : WorkType) (request : Request) : Source where
  tenantId := request.tenantId
  projectId := request.projectId
  siteId := request.siteId
  frozen := some request.text
  frozenHash := if work = .competitorCrawl then none else some (Sha256.sha256Hex request.text)
  snapshotVersion := 1
  queuePriority := request.queuePriority
  notBefore := request.notBefore
  requestedBy := request.requestedBy
  status := .queued
  failureCode := none
  attemptCount := 0
  startedAt := none
  completedAt := none
  leaseExpiresAt := none
  cancelledAt := none

/-- Insert a source and its job in one transaction. -/
def createWork (now : Time) (db : Db) (key : JobKey) (id : Nat) (request : Request) :
    Except String Db :=
  let source := newSource key.1 request
  let db := { db with sources := db.sources.set key source }
  match key.1 with
  | .siteBuild => createSiteBuildJob now db none id key.2 source
  | .bukvarixKeyword => createBukvarixKeywordJob now db id key.2 source
  | .competitorCrawl => createCompetitorCrawlJob now db id key.2 source

/-- A failed build as the retry route queues it again. -/
def Source.retry (now : Time) (build : Source) : Source :=
  { build with
    status := .queued
    failureCode := none
    startedAt := none
    completedAt := none
    leaseExpiresAt := none
    notBefore := some now }

/-- `retry_project_build`; `copy` is the job instance its session has loaded already. -/
def retryProjectBuild (now : Time) (db : Db) (copy : Option Job) (id : Nat)
    (source : SourceId) : Except String Db :=
  match db.sources.get (.siteBuild, source) with
  | none => .error "Select a failed candidate build"
  | some build =>
    if build.status ≠ .failed then .error "Select a failed candidate build"
    else if build.frozen.isNone || build.snapshotVersion ≠ 1 then
      .error "Legacy build has no retryable frozen snapshot"
    else
      requeueSiteBuildJob now
        { db with sources := db.sources.set (.siteBuild, source) (build.retry now) }
        copy id source (build.retry now)

end MegaPanel.Scheduler
