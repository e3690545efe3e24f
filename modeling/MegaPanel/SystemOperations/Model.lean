import MegaPanel.Basic
import MegaPanel.Lib.Run
import MegaPanel.Lib.Table
import MegaPanel.Lib.UnitOfWork

set_option autoImplicit false

/-! # System operations

The operations that `api/v1/system.py` hands to GitHub Actions, and the four writers of their rows.

* The dispatching request inserts the row, reads it again after the commit, calls GitHub, and then
  writes `queued` or `failure`.
* The webhook locks the row while its status is active, asks GitHub for the run, and writes its
  outcome. It keeps the lock up to its commit.
* A poll reads rows without a lock, asks GitHub about each active one, and commits after each. The
  copies of the later rows are the ones it has read at the beginning.

The answers of GitHub are inputs, so is which webhooks have a valid signature, and the tenants'
alerts and the audit are left out. `uq_system_operations_one_active_per_tenant` refuses a statement
after which two rows of a tenant are active. It also is what decides when two requests have found
no active operation; the look-up before the insert is one step with it here.
-/

namespace MegaPanel.SystemOperations

open MegaPanel.Lib

abbrev OperationId := Nat
abbrev SessionId := Nat

/-! ## Rows -/

inductive Status
  | requested
  | queued
  | inProgress
  | success
  | failure
  | cancelled
  | unknown
  deriving DecidableEq

/-- `ACTIVE_STATUSES` -/
def Status.isActive : Status → Bool
  | .requested | .queued | .inProgress => true
  | _ => false

/-- `TERMINAL_STATUSES` -/
def Status.isTerminal : Status → Bool
  | .success | .failure | .cancelled => true
  | _ => false

/-- `FINAL_STATUSES` -/
def Status.isFinal (status : Status) : Bool := status.isTerminal || decide (status = .unknown)

theorem Status.not_terminal_of_active {status : Status} (h : status.isActive = true) :
    status.isTerminal = false := by
  cases status <;> first | rfl | cases h

/-- `system_operations` -/
structure Operation where
  tenantId : TenantId
  kind : String
  action : String
  releaseSha : Option String
  snapshotId : Option String
  requestId : String
  workflow : String
  workflowRunId : Option Int
  workflowUrl : Option String
  status : Status
  errorCode : Option String
  completedAt : Option Time
  deriving DecidableEq

/-- The row after a flush: of the columns that are changed after the insert, those that the
session has changed. -/
def Operation.flush (loaded current stored : Operation) : Operation := { stored with
  workflowRunId := writeCol loaded.workflowRunId current.workflowRunId stored.workflowRunId
  workflowUrl := writeCol loaded.workflowUrl current.workflowUrl stored.workflowUrl
  status := writeCol loaded.status current.status stored.status
  errorCode := writeCol loaded.errorCode current.errorCode stored.errorCode
  completedAt := writeCol loaded.completedAt current.completedAt stored.completedAt }

/-! ## Answers of GitHub -/

/-- `WorkflowRun`, of which the workflow path, the event and the title have been compared. -/
structure WorkflowRun where
  runId : Int
  url : Option String
  status : String
  conclusion : Option String
  deriving DecidableEq

/-- `operation_status` -/
def operationStatus : Option WorkflowRun → Status
  | none => .queued
  | some run =>
    if run.status ∈ ["queued", "requested", "waiting", "pending"] then .queued
    else if run.status = "in_progress" then .inProgress
    else if run.status ≠ "completed" then .unknown
    else if run.conclusion = some "success" then .success
    else if run.conclusion = some "cancelled" then .cancelled
    else .failure

/-- The errors after which a poll gives the operation up. -/
def configurationErrors : List String :=
  ["github_control_not_configured", "github_repository_invalid", "github_api_url_invalid"]

/-- `_refresh_operation`: an active operation as it is changed in memory. -/
def refreshOperation (operation : Operation) (result : Except String (Option WorkflowRun))
    (now : Time) : Operation :=
  match result with
  | .error code =>
    if code ∈ configurationErrors then
      { operation with errorCode := some code, status := .unknown, completedAt := some now }
    else { operation with errorCode := some code }
  | .ok run =>
    let next := operationStatus run
    { operation with
      status := next
      errorCode := none
      workflowRunId := run.elim operation.workflowRunId (fun r => some r.runId)
      workflowUrl := run.elim operation.workflowUrl (fun r => r.url)
      completedAt :=
        if next.isFinal = true ∧ operation.completedAt = none then some now
        else operation.completedAt }

/-- `_mark_queued` -/
def markQueued (operation : Operation) : Operation := { operation with status := .queued }

/-- `_dispatch_failure` -/
def dispatchFailure (operation : Operation) (code : String) (now : Time) : Operation :=
  { operation with status := .failure, errorCode := some code, completedAt := some now }

/-- What `github_workflow_run_webhook` makes of an operation; a run that is not over is left to
another delivery. -/
def completeOperation (operation : Operation) (run : WorkflowRun) (now : Time) :
    Option Operation :=
  let next := operationStatus (some run)
  if next.isTerminal = true then
    some { operation with
      status := next
      errorCode := none
      workflowRunId := some run.runId
      workflowUrl := run.url
      completedAt := some now }
  else none

/-! ## Steps -/

/-- A session between two of its statements. -/
inductive Session
  /-- The row has been inserted and is to be read again. -/
  | created (id : OperationId)
  | dispatching (id : OperationId) (loaded : Operation)
  /-- The operations that a poll still has to look at. -/
  | polling (todo : List (OperationId × Operation))
  /-- A webhook has locked the row. -/
  | webhook (id : OperationId) (loaded : Operation) (deliveryId : String)
  deriving DecidableEq

/-- The row that a session has locked. -/
def Session.held : Session → Option OperationId
  | .webhook id _ _ => some id
  | _ => none

structure World where
  operations : Table OperationId Operation
  /-- `github_delivery_id`, which is unique. -/
  deliveries : List String
  sessions : Table SessionId Session

/-- The arguments of `_create_operation`, and the `request_id` it draws. -/
structure Create where
  tenantId : TenantId
  kind : String
  action : String
  workflow : String
  releaseSha : Option String
  snapshotId : Option String
  requestId : String

inductive Action
  | create (sid : SessionId) (id : OperationId) (body : Create)
  /-- `db.refresh` after the commit. -/
  | load (sid : SessionId)
  | markQueued (sid : SessionId)
  | dispatchFailure (sid : SessionId) (code : String) (now : Time)
  | poll (sid : SessionId) (ids : List OperationId)
  | refresh (sid : SessionId) (result : Except String (Option WorkflowRun)) (now : Time)
  | webhook (sid : SessionId) (requestId workflow deliveryId : String)
  | complete (sid : SessionId) (run : WorkflowRun) (now : Time)
  | abort (sid : SessionId)

def newOperation (body : Create) : Operation where
  tenantId := body.tenantId
  kind := body.kind
  action := body.action
  releaseSha := body.releaseSha
  snapshotId := body.snapshotId
  requestId := body.requestId
  workflow := body.workflow
  workflowRunId := none
  workflowUrl := none
  status := .requested
  errorCode := none
  completedAt := none

/-- No other operation of the tenant is active, if this one is to be. -/
def World.fits (w : World) (id : OperationId) (operation : Operation) : Bool :=
  !operation.status.isActive || w.operations.rows.all (fun r =>
    decide (r.1 = id) || decide (r.2.tenantId ≠ operation.tenantId) || !r.2.status.isActive)

/-- A webhook of another session holds the row. -/
def World.locked (w : World) (sid : SessionId) (id : OperationId) : Bool :=
  w.sessions.rows.any (fun r => decide (r.1 ≠ sid) && decide (r.2.held = some id))

/-- What a session is to write: the row, its copy as it was read, and as it is now. -/
structure Write where
  id : OperationId
  loaded : Operation
  current : Operation
  deriving DecidableEq

/-- The write of a step. -/
def write (w : World) : Action → Option Write
  | .markQueued sid =>
    match w.sessions.get sid with
    | some (.dispatching id loaded) => some ⟨id, loaded, markQueued loaded⟩
    | _ => none
  | .dispatchFailure sid code now =>
    match w.sessions.get sid with
    | some (.dispatching id loaded) => some ⟨id, loaded, dispatchFailure loaded code now⟩
    | _ => none
  | .refresh sid result now =>
    match w.sessions.get sid with
    | some (.polling ((id, loaded) :: _)) =>
      if loaded.status.isActive = true then some ⟨id, loaded, refreshOperation loaded result now⟩
      else none
    | _ => none
  | .complete sid run now =>
    match w.sessions.get sid with
    | some (.webhook id loaded _) =>
      (completeOperation loaded run now).map (fun current => ⟨id, loaded, current⟩)
    | _ => none
  | _ => none

/-- The row that a write leaves, if no other session holds it and the index admits it. -/
def World.apply (w : World) (sid : SessionId) (x : Write) : Option World :=
  (w.operations.get x.id).bind (fun row =>
    let row' := Operation.flush x.loaded x.current row
    if w.locked sid x.id = false ∧ w.fits x.id row' = true then
      some { w with operations := w.operations.set x.id row' }
    else none)

def World.setSession (w : World) (sid : SessionId) (s : Session) : World :=
  { w with sessions := w.sessions.set sid s }

def World.endSession (w : World) (sid : SessionId) : World :=
  { w with sessions := w.sessions.erase sid }

/-- The rows that a poll has asked for. -/
def World.select (w : World) (ids : List OperationId) : List (OperationId × Operation) :=
  ids.filterMap (fun id => (w.operations.get id).map (fun operation => (id, operation)))

/-- The row that a webhook is about, unless another session holds it. -/
def World.webhookRow (w : World) (sid : SessionId) (requestId workflow : String) :
    Option (OperationId × Operation) :=
  w.operations.rows.find? (fun r => decide (r.2.requestId = requestId)
    && decide (r.2.workflow = workflow) && r.2.status.isActive && !w.locked sid r.1)

def step (w : World) : Action → Option World
  | .create sid id body =>
    let operation := newOperation body
    if w.sessions.get sid = none ∧ w.operations.get id = none ∧ w.fits id operation = true
        ∧ w.operations.rows.all (fun r => decide (r.2.requestId ≠ body.requestId)) = true then
      some { w with
        operations := w.operations.set id operation
        sessions := w.sessions.set sid (.created id) }
    else none
  | .load sid => (w.sessions.get sid).bind (fun
      | .created id => (w.operations.get id).map (fun row => w.setSession sid (.dispatching id row))
      | _ => none)
  | .markQueued sid => (write w (.markQueued sid)).bind (fun x =>
    (w.apply sid x).map (·.endSession sid))
  | .dispatchFailure sid code now => (write w (.dispatchFailure sid code now)).bind (fun x =>
    (w.apply sid x).map (·.endSession sid))
  | .poll sid ids =>
    if w.sessions.get sid = none then some (w.setSession sid (.polling (w.select ids))) else none
  | .refresh sid result now => (w.sessions.get sid).bind (fun
      | .polling (_ :: todo) =>
        match write w (.refresh sid result now) with
        | some x => (w.apply sid x).map (·.setSession sid (.polling todo))
        | none => some (w.setSession sid (.polling todo))
      | _ => none)
  | .webhook sid requestId workflow deliveryId =>
    if w.sessions.get sid = none ∧ deliveryId ∉ w.deliveries then
      (w.webhookRow sid requestId workflow).map (fun r =>
        w.setSession sid (.webhook r.1 r.2 deliveryId))
    else none
  | .complete sid run now => (w.sessions.get sid).bind (fun
      | .webhook _ _ deliveryId =>
        if deliveryId ∈ w.deliveries then none
        else (write w (.complete sid run now)).bind (fun x =>
          (w.apply sid x).map (fun t =>
            { t.endSession sid with deliveries := t.deliveries ++ [deliveryId] }))
      | _ => none)
  | .abort sid => (w.sessions.get sid).map (fun _ => w.endSession sid)

/-- No session is open, and the index holds. -/
structure Idle (w : World) : Prop where
  index : ∀ id operation, w.operations.get id = some operation → w.fits id operation = true
  sessions : ∀ sid, w.sessions.get sid = none

end MegaPanel.SystemOperations
