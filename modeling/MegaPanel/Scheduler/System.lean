import MegaPanel.Lib.Run
import MegaPanel.Scheduler.Worker

set_option autoImplicit false

/-! # The scheduler as a transition system

The parties are the sweep (recovery, dispatch, publication of wakeups), the workers, the
operators and the clock; they share the database and a queue of messages. One action is one
transaction, or one statement of a transaction where another party can come between:

* a dispatch counts the free slots and selects jobs in two statements, under an advisory
  lock (`dispatching`);
* publishing a wakeup can stop after the message was sent and before the commit;
* a message may be delivered any number of times, at any later time, and never expires;
* a worker's session (`Worker`) lives from its claim to its completion or its death, and
  keeps the job instance it loaded when it claimed;
* two routes read a row without a lock and lock another later in the same session: the
  scheduled-work retry holds a job instance, the crawl cancellation a crawl instance.

A refused request is an action without a successor: its transaction is rolled back.
-/

namespace MegaPanel.Scheduler

open MegaPanel.Lib

/-! ## Sessions and the world -/

abbrev SessionId := Nat

/-- Where a worker stands. -/
inductive Phase
  | claimed
  | started
  | writing (status : SourceStatus) (code : Option String)
  | returned (result : Result)
  deriving DecidableEq

/-- A worker executing `scheduler_execute_task`; `copy` is its job instance. -/
structure Worker where
  key : JobKey
  lease : LeaseId
  copy : Job
  phase : Phase
  deriving DecidableEq

/-- A session that outlives one transaction. -/
inductive Session
  | worker (worker : Worker)
  | retry (key : JobKey) (copy : Job)
  | crawlCancel (key : JobKey) (copy : Source)
  deriving DecidableEq

structure World where
  db : Db
  now : Time
  sessions : SessionId → Option Session
  messages : List (JobKey × LeaseId)
  dispatching : Option Nat
  nextLease : LeaseId

/-- How publishing a wakeup went; `crashed` is after the message was sent. -/
inductive Delivery
  | sent
  | refused
  | crashed
  deriving DecidableEq

inductive Action
  | tick (elapsed : Time)
  | create (key : JobKey) (id : Nat) (request : Request)
  | dispatchBegin (limit : Nat)
  | dispatchCommit (locked : List JobKey)
  | dispatchAbort
  | publish (key : JobKey) (lease : LeaseId) (delivery : Delivery)
  | claim (sid : SessionId) (key : JobKey) (lease : LeaseId)
  | start (sid : SessionId) (valid : Bool)
  | finish (sid : SessionId) (outcome : Outcome)
  | write (sid : SessionId)
  | complete (sid : SessionId)
  | die (sid : SessionId)
  | recover (locked : List JobKey)
  | expireBuilds
  | recoverRuns
  | recoverCrawls
  | pause (key : JobKey)
  | resume (key : JobKey)
  | cancel (key : JobKey)
  | crawlRead (sid : SessionId) (source : SourceId)
  | crawlCancel (sid : SessionId)
  | retry (source : SourceId) (id : Nat)
  | retryRead (sid : SessionId) (source : SourceId)
  | retryCommit (sid : SessionId) (id : Nat)
  deriving DecidableEq

/-! ## Access to sessions -/

/-- The session an action acts in, if it acts in one. -/
def Action.session : Action → Option SessionId
  | .claim sid _ _ | .start sid _ | .finish sid _ | .write sid | .complete sid | .die sid
  | .crawlRead sid _ | .crawlCancel sid | .retryRead sid _ | .retryCommit sid _ => some sid
  | _ => none

def World.worker (w : World) (sid : SessionId) : Option Worker :=
  match w.sessions sid with
  | some (.worker k) => some k
  | _ => none

theorem World.worker_eq_some {w : World} {sid : SessionId} {k : Worker} :
    w.worker sid = some k ↔ w.sessions sid = some (.worker k) := by
  unfold World.worker
  split <;> simp_all

def World.setSession (w : World) (sid : SessionId) (session : Option Session) : World :=
  { w with sessions := Function.update w.sessions sid session }

@[simp] theorem World.setSession_db (w : World) (sid : SessionId) (session : Option Session) :
    (w.setSession sid session).db = w.db := rfl

@[simp] theorem World.setSession_nextLease (w : World) (sid : SessionId)
    (session : Option Session) : (w.setSession sid session).nextLease = w.nextLease := rfl

theorem World.setSession_sessions (w : World) (sid s : SessionId) (session : Option Session) :
    (w.setSession sid session).sessions s = if s = sid then session else w.sessions s :=
  Function.update_apply ..

/-! ## Steps -/

/-- The message an interrupted or successful publication has sent. -/
def sentMessage (now : Time) (db : Db) (key : JobKey) (lease : LeaseId) :
    List (JobKey × LeaseId) :=
  (publishWakeup now db key lease true).2.toList

def stepPublish (w : World) (key : JobKey) (lease : LeaseId) : Delivery → World
  | .sent =>
    { w with
      db := (publishWakeup w.now w.db key lease true).1
      messages := w.messages ++ sentMessage w.now w.db key lease }
  | .refused => { w with db := (publishWakeup w.now w.db key lease false).1 }
  | .crashed => { w with messages := w.messages ++ sentMessage w.now w.db key lease }

def stepClaim (w : World) (sid : SessionId) (key : JobKey) (lease : LeaseId) : Option World :=
  if (w.sessions sid).isNone && decide ((key, lease) ∈ w.messages) then
    match claimExecution w.now w.db key lease with
    | (db, none) => some { w with db := db }
    | (db, some job) =>
      some ({ w with db := db }.setSession sid
        (some (.worker { key := key, lease := lease, copy := job, phase := .claimed })))
  else none

def stepStart (w : World) (sid : SessionId) (k : Worker) (valid : Bool) : Option World :=
  if k.phase = .claimed then
    let (source, result) := startSource w.now k.key.1 valid (w.db.sources.get k.key)
    let phase : Phase := match result with
      | some r => .returned r
      | none => .started
    some ({ w with db := { w.db with sources := setSource w.db.sources k.key source } }.setSession
      sid (some (.worker { k with phase := phase })))
  else none

/-- The last transaction of a build. A build that answers `stale_lease` goes on to
`complete_execution` inside that transaction. -/
def stepFinishBuild (w : World) (sid : SessionId) (k : Worker) (outcome : Outcome) : World :=
  match finishBuild w.now w.db k.key k.copy k.lease outcome with
  | (db, some result) =>
    { w with db := db }.setSession sid (some (.worker { k with phase := .returned result }))
  | (db, none) =>
    { w with db := (completeExecution w.now db (some k.copy) k.key k.lease staleResult).1 }.setSession
      sid none

/-- The last read of a Bukvarix run or a crawl. -/
def stepFinishRun (w : World) (sid : SessionId) (k : Worker) (outcome : Outcome) : World :=
  let status := (w.db.sources.get k.key).map (·.status)
  let phase : Phase :=
    if status = some .running then .writing outcome.written.1 outcome.written.2
    else .returned
      { status := match status with
          | some s => .source s
          | none => .missing
        errorCode := none }
  w.setSession sid (some (.worker { k with phase := phase }))

def stepFinish (w : World) (sid : SessionId) (k : Worker) (outcome : Outcome) : Option World :=
  if k.phase = .started ∧ outcome.work = k.key.1 then
    if k.key.1 = .siteBuild then some (stepFinishBuild w sid k outcome)
    else some (stepFinishRun w sid k outcome)
  else none

def stepWrite (w : World) (sid : SessionId) (k : Worker) : Option World :=
  match k.phase with
  | .writing status code =>
    let source := (w.db.sources.get k.key).map (Source.finishRun w.now status code)
    some ({ w with db := { w.db with sources := setSource w.db.sources k.key source } }.setSession
      sid (some (.worker { k with phase := .returned (runResult k.key.1 status code) })))
  | _ => none

def stepComplete (w : World) (sid : SessionId) (k : Worker) : Option World :=
  match k.phase with
  | .returned result =>
    some ({ w with
      db := (completeExecution w.now w.db (some k.copy) k.key k.lease result).1 }.setSession sid none)
  | _ => none

/-- What `cancel_domain_crawl` writes on its crawl besides the cancellation. -/
def Source.noteCancellation (crawl : Source) : Source :=
  { crawl with failureCode := some "cancelled_by_operator" }

/-- `cancel_domain_crawl` from the job lock on. A crawl without a job is cancelled directly,
through the same instance. -/
def cancelDomainCrawl (now : Time) (db : Db) (key : JobKey) (copy : Source) : Except String Db :=
  match db.jobs.get key, db.sources.get key with
  | some job, _ => cancelJob now db key job (some copy) Source.noteCancellation
  | none, none => .error "Only active crawls can be cancelled"
  | none, some row =>
    if !copy.status.isOpen then .error "Only active crawls can be cancelled"
    else
      let next : Source := { copy with status := .cancelled, cancelledAt := some now }
      .ok { db with sources := db.sources.set key (Source.flush copy next.noteCancellation row) }

/-- Commit a request that may be refused. -/
def World.commit (w : World) : Except String Db → Option World
  | .ok db => some { w with db := db }
  | .error _ => none

theorem World.commit_eq_some {w t : World} {r : Except String Db} :
    w.commit r = some t ↔ ∃ db, r = .ok db ∧ t = { w with db := db } := by
  cases r with
  | error e => simp [World.commit]
  | ok db => simp [World.commit, eq_comm]

def step (w : World) : Action → Option World
  | .tick elapsed => some { w with now := w.now + elapsed }
  | .create key id request =>
    if (w.db.sources.get key).isSome then none
    else w.commit (createWork w.now w.db key id request)
  | .dispatchBegin limit =>
    if w.dispatching.isSome then none
    else some { w with dispatching := some (freeSlots limit w.db) }
  | .dispatchCommit locked =>
    w.dispatching.map (fun slots =>
      let d := dispatchDueJobs w.now slots locked w.nextLease w.db
      { w with db := d.db, nextLease := d.nextLease, dispatching := none })
  | .dispatchAbort => some { w with dispatching := none }
  | .publish key lease delivery => some (stepPublish w key lease delivery)
  | .claim sid key lease => stepClaim w sid key lease
  | .start sid valid => (w.worker sid).bind (stepStart w sid · valid)
  | .finish sid outcome => (w.worker sid).bind (stepFinish w sid · outcome)
  | .write sid => (w.worker sid).bind (stepWrite w sid)
  | .complete sid => (w.worker sid).bind (stepComplete w sid)
  | .die sid => some (w.setSession sid none)
  | .recover locked => some { w with db := recoverExpiredSchedulerLeases w.now locked w.db }
  | .expireBuilds => some { w with db := expireStaleSiteBuilds w.now w.db }
  | .recoverRuns => some { w with db := recoverStaleBukvarixKeywordRuns w.now w.db }
  | .recoverCrawls => some { w with db := recoverLegacyCompetitorCrawls w.now w.db }
  | .pause key => (w.db.jobs.get key).bind (fun job => w.commit (pauseJob w.now w.db key job))
  | .resume key => (w.db.jobs.get key).bind (fun job => w.commit (resumeJob w.now w.db key job))
  | .cancel key =>
    (w.db.jobs.get key).bind (fun job => w.commit (cancelJob w.now w.db key job none id))
  | .crawlRead sid source =>
    if (w.sessions sid).isSome then none
    else (w.db.sources.get (.competitorCrawl, source)).map (fun s =>
      w.setSession sid (some (.crawlCancel (.competitorCrawl, source) s)))
  | .crawlCancel sid =>
    match w.sessions sid with
    | some (.crawlCancel key copy) =>
      (w.setSession sid none).commit (cancelDomainCrawl w.now w.db key copy)
    | _ => none
  | .retry source id => w.commit (retryProjectBuild w.now w.db none id source)
  | .retryRead sid source =>
    if (w.sessions sid).isSome then none
    else (w.db.jobs.get (.siteBuild, source)).bind (fun job =>
      if job.state = .failed then
        some (w.setSession sid (some (.retry (.siteBuild, source) job)))
      else none)
  | .retryCommit sid id =>
    match w.sessions sid with
    | some (.retry key copy) =>
      (w.setSession sid none).commit (retryProjectBuild w.now w.db (some copy) id key.2)
    | _ => none

/-! ## Initial states -/

/-- The stored hash of a source is the hash of its stored input, as every route stores it. -/
def Source.Intact (work : WorkType) (source : Source) : Prop :=
  work ≠ .competitorCrawl → ∀ text, source.frozen = some text →
    source.frozenHash = some (Sha256.sha256Hex text)

/-- Before the scheduler: no jobs, no sessions, no messages; sources may be left over from
earlier releases. -/
structure Init (w : World) : Prop where
  jobs : w.db.jobs = Table.empty
  sessions : ∀ sid, w.sessions sid = none
  messages : w.messages = []
  dispatching : w.dispatching = none
  intact : ∀ key source, w.db.sources.get key = some source → source.Intact key.1

/-! ## Runs from a fresh installation -/

/-- The world of a fresh installation. -/
def World.fresh : World where
  db := { jobs := .empty, sources := .empty, wakeups := .empty, turns := .empty, attempts := [] }
  now := 0
  sessions := fun _ => none
  messages := []
  dispatching := none
  nextLease := 0

theorem World.fresh_init : Init World.fresh where
  jobs := rfl
  sessions := fun _ => rfl
  messages := rfl
  dispatching := rfl
  intact := fun _ _ h => by cases h

/-- A request for a candidate build of site 7. -/
def buildRequest : Request where
  tenantId := 1
  projectId := some 3
  siteId := some 7
  text := "{}"
  queuePriority := 50
  notBefore := none
  requestedBy := none

/-- One attempt at the build 0 by the session `sid` under the lease `lease`, up to the end of
the work itself. -/
def attempt (sid : SessionId) (lease : LeaseId) (outcome : Outcome) : List Action :=
  [.dispatchBegin 1, .dispatchCommit [], .publish (.siteBuild, 0) lease .sent,
   .claim sid (.siteBuild, 0) lease, .start sid true, .finish sid outcome]

/-- A build attempt fails; two operators retry it; one of them has read the failed job and
commits only when the second attempt has recorded its failed build. -/
def twoRetries : List Action :=
  .create (.siteBuild, 0) 0 buildRequest :: attempt 1 0 .raised ++
    [.complete 1, .retryRead 2 0, .retry 0 1] ++ attempt 3 1 .raised ++ [.retryCommit 2 2]

end MegaPanel.Scheduler
