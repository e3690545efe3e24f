import MegaPanel.Basic
import MegaPanel.Lib.Run
import MegaPanel.Lib.Totals
import MegaPanel.Lib.UnitOfWork

set_option autoImplicit false

/-! # The AI budget of a tenant

The generation requests of one tenant: the check and the reservation of
`services/ai_budget.py` and `_reserve_ai_run`, and the ways in which a run comes to its end.

* A reservation takes an advisory lock, reads the sum of the costs for the day, then for the month,
  and inserts a run that costs its estimate. The lock goes with the commit.
* Four kinds of requests (`Kind.isQueued = false`) call the provider themselves. An answer replaces
  the reservation by a run with the actual cost, in one transaction; an error changes the
  reservation. Neither takes the lock.
* The other two leave their run to a worker. It takes a run that is `reserved`, and charges the
  estimate at least.

Costs are rational numbers, and every row stays in both windows. The answers of the providers are
inputs. Of a run the columns are kept that decide about its cost. Drafts that come with a run, the
operator's decision and the audit are left out; where they make a transaction fail, it aborts.
-/

namespace MegaPanel.AiBudget

open MegaPanel.Lib

abbrev RunId := Nat
abbrev SessionId := Nat

/-! ## Settings and runs -/

/-- The settings; the limits are not negative. -/
structure Settings where
  aiDisabled : Bool
  aiDailyBudgetUsd : ℚ
  aiMonthlyBudgetUsd : ℚ
  daily_nonneg : 0 ≤ aiDailyBudgetUsd
  monthly_nonneg : 0 ≤ aiMonthlyBudgetUsd

/-- The `action` of a run. -/
inductive Kind
  | cityHierarchy
  | seoBrief
  | pageDraftCopy
  | blockSlotCopy
  | siteMap
  | intentPageProposal
  deriving DecidableEq

/-- A worker executes the run. -/
def Kind.isQueued : Kind → Bool
  | .siteMap | .intentPageProposal => true
  | _ => false

inductive Status
  | reserved
  | running
  | failed
  | pendingApproval
  | completed
  deriving DecidableEq

structure Pricing where
  inputPriceUsdPerMillion : ℚ
  outputPriceUsdPerMillion : ℚ
  deriving DecidableEq

/-- `Usage` -/
structure Usage where
  known : Bool
  inputTokens : ℕ
  outputTokens : ℕ
  deriving DecidableEq

/-- What a request fixes before it reserves. A queued run has it in its `execution_envelope`. -/
structure Job where
  kind : Kind
  estimatedCost : ℚ
  maxCost : ℚ
  pricing : Pricing
  deriving DecidableEq

/-- `ai_runs` -/
structure AIRun where
  job : Job
  status : Status
  usage : Option (ℕ × ℕ)
  costUsd : Option ℚ
  errorCode : Option String
  deriving DecidableEq

/-- The row after a flush. -/
def AIRun.flush (loaded current stored : AIRun) : AIRun := { stored with
  status := writeCol loaded.status current.status stored.status
  usage := writeCol loaded.usage current.usage stored.usage
  costUsd := writeCol loaded.costUsd current.costUsd stored.costUsd
  errorCode := writeCol loaded.errorCode current.errorCode stored.errorCode }

/-- What a row adds to the sum; rows without a cost are not selected. -/
def AIRun.counted (run : AIRun) : ℚ := run.costUsd.getD 0

/-- The run that `_reserve_ai_run` inserts. -/
def reservedRun (job : Job) : AIRun where
  job := job
  status := .reserved
  usage := none
  costUsd := some job.estimatedCost
  errorCode := some "budget_reserved"

/-! ## The end of a run -/

/-- `_usage_payload` -/
def usagePayload (usage : Option Usage) : Option (ℕ × ℕ) :=
  (usage.filter (·.known)).map (fun u => (u.inputTokens, u.outputTokens))

/-- `_actual_cost` -/
def actualCost (usage : Option Usage) (pricing : Pricing) (estimatedCost : ℚ) : ℚ :=
  match usage.filter (·.known) with
  | none => estimatedCost
  | some u => (u.inputTokens * pricing.inputPriceUsdPerMillion
      + u.outputTokens * pricing.outputPriceUsdPerMillion) / 1000000

/-- What comes of the call of the provider. -/
inductive Answer
  | valid (usage : Usage)
  /-- `ProviderError` -/
  | providerError (code : String) (usage : Option Usage)
  /-- The answer, if there is one, does not pass the validation. -/
  | invalid (usage : Option Usage)
  /-- Another exception. -/
  | crash
  deriving DecidableEq

/-- The reservation that a request changes after an error. -/
def failReservation (run : AIRun) (code : String) (usage : Option Usage) : AIRun := { run with
  status := .failed
  errorCode := some code
  usage := usagePayload usage
  costUsd := some (actualCost usage run.job.pricing run.job.estimatedCost) }

/-- The run that replaces the reservation. A draft is completed with its run, and a hierarchy does
not record that the usage is unknown. -/
def replacingRun (job : Job) (usage : Usage) : AIRun :=
  let cost := actualCost (some usage) job.pricing job.estimatedCost
  { job := job
    status := if cost > job.maxCost then .failed
      else if job.kind = .pageDraftCopy then .completed else .pendingApproval
    usage := usagePayload (some usage)
    costUsd := some cost
    errorCode := if cost > job.maxCost then some "actual_cost_exceeded_limit"
      else if usage.known = false ∧ job.kind ≠ .cityHierarchy then some "usage_unavailable"
      else none }

/-- `architecture_proposal_task` and `intent_page_proposal_task`: the run after the call. -/
def executedRun (run : AIRun) (answer : Answer) : AIRun :=
  let estimated := run.costUsd.getD 0
  let charge (usage : Option Usage) := max estimated (actualCost usage run.job.pricing estimated)
  match answer with
  | .valid usage =>
    let cost := charge (some usage)
    { run with
      status := if cost > run.job.maxCost then .failed else .pendingApproval
      usage := usagePayload (some usage)
      costUsd := some cost
      errorCode := if cost > run.job.maxCost then some "actual_cost_exceeded_limit"
        else if usage.known = false then some "usage_unavailable" else none }
  | .providerError code usage => { run with
      status := .failed
      usage := usagePayload usage
      costUsd := some (charge usage)
      errorCode := some code }
  | .invalid usage => { run with
      status := .failed
      usage := usagePayload usage
      costUsd := some (charge usage)
      errorCode := some "invalid_ai_output" }
  | .crash => { run with
      status := .failed
      costUsd := some estimated
      errorCode := some "provider_execution_failed" }

/-! ## Steps -/

/-- A session between two of its statements. -/
inductive Session
  /-- The advisory lock is held from here on. -/
  | locked (job : Job)
  | checkedDaily (job : Job) (daily : ℚ)
  | checked (job : Job) (daily monthly : ℚ)
  /-- The provider is asked by the request. -/
  | generating (id : RunId) (loaded : AIRun)
  | enqueueing (id : RunId) (loaded : AIRun)
  /-- The provider is asked by a worker. -/
  | executing (id : RunId) (loaded : AIRun)
  deriving DecidableEq

structure World where
  runs : Table RunId AIRun
  /-- The ids that have been drawn; `uuid4` does not repeat one. -/
  drawn : List RunId
  lock : Option SessionId
  queue : List RunId
  sessions : Table SessionId Session

inductive Action
  | start (sid : SessionId) (job : Job)
  | checkDaily (sid : SessionId)
  | checkMonthly (sid : SessionId)
  | reserve (sid : SessionId) (id : RunId)
  | enqueue (sid : SessionId)
  /-- The request ends; the run is marked if the queue did not take it. -/
  | enqueued (sid : SessionId) (failed : Bool)
  /-- A request has its answer; `id` is that of the run which replaces the reservation. -/
  | answer (sid : SessionId) (answer : Answer) (id : RunId)
  | take (sid : SessionId) (id : RunId)
  | execute (sid : SessionId) (answer : Answer)
  | abort (sid : SessionId)

/-- `coalesce(sum(cost_usd), 0)` of the rows in the window. -/
def World.spent (w : World) : ℚ := w.runs.total AIRun.counted

/-- One of the two comparisons of `enforce_ai_budget`. -/
def checkLimit (code : String) (limit total estimatedCost : ℚ) : Except HttpError Unit :=
  if total + estimatedCost > limit then .error ⟨429, code⟩ else .ok ()

/-- `enforce_ai_budget` up to the second sum. -/
def enforceDaily (settings : Settings) (total estimatedCost : ℚ) : Except HttpError Unit :=
  if settings.aiDisabled = true then .error ⟨503, "ai_disabled"⟩
  else checkLimit "ai_daily_budget_exceeded" settings.aiDailyBudgetUsd total estimatedCost

def enforceMonthly (settings : Settings) (total estimatedCost : ℚ) : Except HttpError Unit :=
  checkLimit "ai_monthly_budget_exceeded" settings.aiMonthlyBudgetUsd total estimatedCost

def World.setSession (w : World) (sid : SessionId) (s : Session) : World :=
  { w with sessions := w.sessions.set sid s }

/-- The end of a session, and of the lock if it has it. -/
def World.endSession (w : World) (sid : SessionId) : World := { w with
  sessions := w.sessions.erase sid
  lock := if w.lock = some sid then none else w.lock }

/-- The session writes its copy of a run and ends. -/
def World.write (w : World) (sid : SessionId) (id : RunId) (loaded current : AIRun) :
    Option World :=
  (w.runs.get id).map (fun row =>
    World.endSession { w with runs := w.runs.set id (AIRun.flush loaded current row) } sid)

/-- After the commit of a reservation the request calls the provider, or the queue. -/
def reservedSession (id : RunId) (job : Job) : Session :=
  if job.kind.isQueued = true then .enqueueing id (reservedRun job)
  else .generating id (reservedRun job)

def step (settings : Settings) (w : World) : Action → Option World
  | .start sid job =>
    if w.sessions.get sid = none ∧ w.lock = none then
      some { w.setSession sid (.locked job) with lock := some sid }
    else none
  | .checkDaily sid => (w.sessions.get sid).bind (fun
      | .locked job =>
        match enforceDaily settings w.spent job.estimatedCost with
        | .ok _ => some (w.setSession sid (.checkedDaily job w.spent))
        | .error _ => none
      | _ => none)
  | .checkMonthly sid => (w.sessions.get sid).bind (fun
      | .checkedDaily job daily =>
        match enforceMonthly settings w.spent job.estimatedCost with
        | .ok _ => some (w.setSession sid (.checked job daily w.spent))
        | .error _ => none
      | _ => none)
  | .reserve sid id => (w.sessions.get sid).bind (fun
      | .checked job _ _ =>
        if id ∈ w.drawn then none
        else some { w with
          runs := w.runs.set id (reservedRun job)
          drawn := id :: w.drawn
          lock := none
          sessions := w.sessions.set sid (reservedSession id job) }
      | _ => none)
  | .enqueue sid => (w.sessions.get sid).bind (fun
      | .enqueueing id _ => some { w with queue := w.queue ++ [id] }
      | _ => none)
  | .enqueued sid failed => (w.sessions.get sid).bind (fun
      | .enqueueing id loaded =>
        if failed = true ∧ loaded.job.kind = .siteMap then
          w.write sid id loaded
            { loaded with status := .failed, errorCode := some "queue_unavailable" }
        else some (w.endSession sid)
      | _ => none)
  | .answer sid answer newId => (w.sessions.get sid).bind (fun
      | .generating id loaded =>
        match answer with
        | .valid usage =>
          if newId ∈ w.drawn then none
          else some (World.endSession { w with
            runs := (w.runs.erase id).set newId (replacingRun loaded.job usage)
            drawn := newId :: w.drawn } sid)
        | .providerError code usage => w.write sid id loaded (failReservation loaded code usage)
        | .invalid usage => w.write sid id loaded (failReservation loaded "invalid_ai_output" usage)
        | .crash => some (w.endSession sid)
      | _ => none)
  | .take sid id =>
    if w.sessions.get sid = none ∧ id ∈ w.queue then
      (w.runs.get id).bind (fun row =>
        if row.status = .reserved then
          let run := { row with status := .running, errorCode := none }
          some { w with
            runs := w.runs.set id run
            sessions := w.sessions.set sid (.executing id run) }
        else none)
    else none
  | .execute sid answer => (w.sessions.get sid).bind (fun
      | .executing id loaded => w.write sid id loaded (executedRun loaded answer)
      | _ => none)
  | .abort sid => (w.sessions.get sid).map (fun _ => w.endSession sid)

/-- No run has been reserved. -/
def World.start : World := ⟨Table.empty, [], none, [], Table.empty⟩

end MegaPanel.AiBudget
