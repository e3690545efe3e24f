import MegaPanel.AiBudget.Model

set_option autoImplicit false

/-! # Runs that a worker executes

The life of the rows of `ai_runs` with the actions `architecture.site-map` and
`content.intent-page-proposal`: the request that reserves a run and hands its id to the queue
(`propose_architecture`, `create_intent_generation`), the two tasks of `worker.py` and the decision
of an operator (`decide_ai_run`). The budget of a reservation is the subject of
`AiBudget/Model.lean`.

* A request works on the row that it has inserted, without a lock. The call of the queue may raise
  although the queue has taken the id. Then `propose_architecture` marks the run as failed;
  `create_intent_generation` leaves it as it is.
* The queue delivers an id any number of times and as late as it likes. A task locks the row to take
  the run and commits; it has no lock while the provider answers.
* A decision reads, checks and writes under the lock of the row.

Of a row the columns are kept that these parts compare or that say how the run ended. What the
proposal contains, the names of provider and model and the audit are left out.
-/

namespace MegaPanel.AiRuns

open MegaPanel.Lib
open MegaPanel.AiBudget (RunId SessionId Kind Job Usage Answer usagePayload actualCost)

inductive Status
  | reserved
  | running
  | pendingApproval
  | failed
  | approved
  | rejected
  deriving DecidableEq

inductive Decision
  | approve
  | reject
  deriving DecidableEq

/-- `ai_runs`; the job and `envelopeTenant` are the frozen `execution_envelope`. -/
structure AIRun where
  tenantId : TenantId
  envelopeTenant : TenantId
  job : Job
  status : Status
  usage : Option (ℕ × ℕ)
  costUsd : Option ℚ
  errorCode : Option String
  operatorDecision : Option Decision
  deriving DecidableEq

/-- The row after a flush. -/
def AIRun.flush (loaded current stored : AIRun) : AIRun := { stored with
  status := writeCol loaded.status current.status stored.status
  usage := writeCol loaded.usage current.usage stored.usage
  costUsd := writeCol loaded.costUsd current.costUsd stored.costUsd
  errorCode := writeCol loaded.errorCode current.errorCode stored.errorCode
  operatorDecision :=
    writeCol loaded.operatorDecision current.operatorDecision stored.operatorDecision }

/-- The run that `_reserve_ai_run` inserts. -/
def reservedRun (tenantId envelopeTenant : TenantId) (job : Job) : AIRun where
  tenantId := tenantId
  envelopeTenant := envelopeTenant
  job := job
  status := .reserved
  usage := none
  costUsd := some job.estimatedCost
  errorCode := some "budget_reserved"
  operatorDecision := none

/-- What `propose_architecture` makes of its run when the queue raises. -/
def queueFailed (run : AIRun) : AIRun :=
  { run with status := .failed, errorCode := some "queue_unavailable" }

/-! ## The tasks -/

/-- `float(run.cost_usd or 0.0)` -/
def AIRun.estimatedCost (run : AIRun) : ℚ := run.costUsd.getD 0

/-- What a run is charged. -/
def AIRun.charge (run : AIRun) (usage : Option Usage) : ℚ :=
  max run.estimatedCost (actualCost usage run.job.pricing run.estimatedCost)

/-- The end of a run without a proposal. -/
def AIRun.fail (run : AIRun) (code : String) (usage : Option Usage) : AIRun := { run with
  status := .failed
  errorCode := some code
  usage := usagePayload usage
  costUsd := some (run.charge usage) }

/-- The end of a run through another exception. -/
def AIRun.crash (run : AIRun) : AIRun := { run with
  status := .failed
  errorCode := some "provider_execution_failed"
  costUsd := some run.estimatedCost }

/-- What a task can raise before it calls the provider. -/
inductive Refusal
  /-- A `ValueError` or `TypeError`. -/
  | invalid
  /-- Another exception, such as that of a connection which is not there or not enabled. -/
  | unavailable

/-- The run after a refusal; the tasks differ in how they report another tenant. -/
def refusedRun (run : AIRun) (refusal : Refusal) : AIRun :=
  if run.envelopeTenant ≠ run.tenantId then
    if run.job.kind = .siteMap then
      { run with status := .failed, errorCode := some "tenant_scope_violation" }
    else run.fail "invalid_ai_output" none
  else
    match refusal with
    | .invalid => run.fail "invalid_ai_output" none
    | .unavailable => run.crash

/-- The answer is a proposal within the limit of the envelope. -/
def AIRun.accepts (run : AIRun) : Answer → Bool
  | .valid usage => decide (run.charge (some usage) ≤ run.job.maxCost)
  | _ => false

/-- The run after the call of the provider. -/
def executedRun (run : AIRun) (answer : Answer) : AIRun :=
  match answer with
  | .valid usage => { run with
      status := if run.accepts answer = true then .pendingApproval else .failed
      usage := usagePayload (some usage)
      costUsd := some (run.charge (some usage))
      errorCode := if run.accepts answer = false then some "actual_cost_exceeded_limit"
        else if usage.known = false then some "usage_unavailable" else none }
  | .providerError code usage => run.fail code usage
  | .invalid usage => run.fail "invalid_ai_output" usage
  | .crash => run.crash

/-! ## The decision -/

/-- The actions that `decide_ai_run` knows. -/
def decidableKinds : List Kind :=
  [.siteMap, .seoBrief, .blockSlotCopy, .intentPageProposal, .cityHierarchy]

/-- `decide_ai_run`; `run` is the row under its lock. -/
def decideAiRun (tenantId : TenantId) (decision : Decision) (run : Option AIRun) :
    Except HttpError AIRun :=
  match run.filter (fun r => decide (r.tenantId = tenantId)) with
  | none => .error ⟨404, "AI run not found"⟩
  | some r =>
    if r.job.kind ∉ decidableKinds then
      .error ⟨409, "This AI action has no approval decision endpoint"⟩
    else if r.status ≠ .pendingApproval then .error ⟨409, "AI run is not awaiting approval"⟩
    else
      .ok { r with
        operatorDecision := some decision
        status := match decision with
          | .approve => .approved
          | .reject => .rejected }

/-! ## Steps -/

/-- A session between two of its commits. -/
inductive Session
  /-- A request has committed its run and calls the queue. -/
  | enqueueing (id : RunId) (loaded : AIRun)
  /-- A task has taken the run. -/
  | taken (id : RunId) (loaded : AIRun)
  /-- A task waits for the provider. -/
  | calling (id : RunId) (loaded : AIRun)
  deriving DecidableEq

structure State where
  runs : Table RunId AIRun
  queue : List RunId
  sessions : Table SessionId Session

inductive Action
  | reserve (sid : SessionId) (id : RunId) (tenantId envelopeTenant : TenantId) (job : Job)
  /-- The queue takes the id of the run. -/
  | accept (sid : SessionId)
  | enqueued (sid : SessionId)
  /-- The call of the queue raises. -/
  | enqueueRaised (sid : SessionId)
  /-- A message is delivered; other messages with its id stay possible. -/
  | take (sid : SessionId) (id : RunId)
  | refuse (sid : SessionId) (refusal : Refusal)
  | callProvider (sid : SessionId)
  | finish (sid : SessionId) (answer : Answer)
  | decide (id : RunId) (tenantId : TenantId) (decision : Decision)
  /-- The process of a session ends before its next commit. -/
  | crash (sid : SessionId)

def State.endSession (st : State) (sid : SessionId) : State :=
  { st with sessions := st.sessions.erase sid }

/-- A session commits its copy of the run and ends. -/
def State.write (st : State) (sid : SessionId) (id : RunId) (loaded current : AIRun) :
    Option State :=
  (st.runs.get id).map (fun row =>
    State.endSession { st with runs := st.runs.set id (AIRun.flush loaded current row) } sid)

/-- The run that a task has taken: `reserved` under the lock, `running` after the commit. -/
def takenRun (row : AIRun) : AIRun := { row with status := .running, errorCode := none }

def step (st : State) : Action → Option State
  | .reserve sid id tenantId envelopeTenant job =>
    if st.sessions.get sid = none ∧ st.runs.get id = none ∧ job.kind.isQueued = true then
      let run := reservedRun tenantId envelopeTenant job
      some { st with
        runs := st.runs.set id run
        sessions := st.sessions.set sid (.enqueueing id run) }
    else none
  | .accept sid => (st.sessions.get sid).bind (fun
      | .enqueueing id _ => some { st with queue := id :: st.queue }
      | _ => none)
  | .enqueued sid => (st.sessions.get sid).bind (fun
      | .enqueueing _ _ => some (st.endSession sid)
      | _ => none)
  | .enqueueRaised sid => (st.sessions.get sid).bind (fun
      | .enqueueing id loaded =>
        if loaded.job.kind = .siteMap then st.write sid id loaded (queueFailed loaded)
        else some (st.endSession sid)
      | _ => none)
  | .take sid id =>
    if st.sessions.get sid = none ∧ id ∈ st.queue then
      (st.runs.get id).bind (fun row =>
        if row.status = .reserved then
          some { st with
            runs := st.runs.set id (takenRun row)
            sessions := st.sessions.set sid (.taken id (takenRun row)) }
        else some st)
    else none
  | .refuse sid refusal => (st.sessions.get sid).bind (fun
      | .taken id loaded => st.write sid id loaded (refusedRun loaded refusal)
      | _ => none)
  | .callProvider sid => (st.sessions.get sid).bind (fun
      | .taken id loaded =>
        if loaded.envelopeTenant = loaded.tenantId then
          some { st with sessions := st.sessions.set sid (.calling id loaded) }
        else none
      | _ => none)
  | .finish sid answer => (st.sessions.get sid).bind (fun
      | .calling id loaded => st.write sid id loaded (executedRun loaded answer)
      | _ => none)
  | .decide id tenantId decision =>
    (decideAiRun tenantId decision (st.runs.get id)).toOption.map (fun run =>
      { st with runs := st.runs.set id run })
  | .crash sid => (st.sessions.get sid).map (fun _ => st.endSession sid)

/-- The calls of the provider, by run. -/
def providerCalls (st : State) : Action → List RunId
  | .callProvider sid =>
    match st.sessions.get sid with
    | some (.taken id _) => [id]
    | _ => []
  | _ => []

/-- No run has been reserved. -/
def start : State := ⟨.empty, [], .empty⟩

end MegaPanel.AiRuns
