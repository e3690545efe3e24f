import MegaPanel.AlertDelivery.Model
import MegaPanel.LeadDelivery.Model
import MegaPanel.Lib.JsonValue
import MegaPanel.Lib.Sha256

set_option autoImplicit false

/-! # Storage retention runs

`services/storage_retention.py` and the two cron tasks of `worker.py` that call it. A run is queued
by its operator, who confirms a preview, or by the daily schedule. A sweep takes the first queued
runs. It sets a run to `processing` and commits, deletes the data in a second transaction that
also sets the run to `succeeded`, and after an exception there sets it to `failed` in a third.

* A sweep may die at any point, by the end of its worker, by a timeout of its task or by an
  exception that `process_queued_retention_runs` does not catch. The transaction it is in is
  rolled back then, and its locks are released.
* `pg_advisory_xact_lock` waits until no other sweep is in its second transaction.
* Rows that a transaction has deleted cannot be changed by others until it ends. Rows that it has
  only selected can.
* The rows of the four sources, which anything else in the panel may change, are in one table.

A schedule pass reads the active tenants and asks for each of them whether it has a run; all the
runs it adds are committed together. The settings may change at any time. Audit rows are left out.
-/

namespace MegaPanel.StorageRetention

open MegaPanel.Lib

abbrev RunId := Nat
abbrev RowId := Nat
abbrev SweepId := Nat
abbrev PassId := Nat

/-! ## The policy -/

/-- `effective_policy` -/
structure Policy where
  authSessionRetentionDays : Nat
  notificationRetentionDays : Nat
  operationalEventRetentionDays : Nat
  deliveryAttemptRetentionDays : Nat
  dsarExportTtlHours : Nat
  deriving DecidableEq

def Policy.toJson (policy : Policy) : Json :=
  .dict [("auth_session_retention_days", .int policy.authSessionRetentionDays),
    ("notification_retention_days", .int policy.notificationRetentionDays),
    ("operational_event_retention_days", .int policy.operationalEventRetentionDays),
    ("delivery_attempt_retention_days", .int policy.deliveryAttemptRetentionDays),
    ("dsar_export_ttl_hours", .int policy.dsarExportTtlHours)]

/-- `policy_hash` -/
def policyHash (policy : Policy) : String := Sha256.sha256Hex (Json.dumpsCompact policy.toJson)

/-! ## The data and its selectors -/

/-- The sources of a run, in the order in which they are emptied. -/
inductive Source
  | authSessions
  | readTerminalNotifications
  | operationalEvents
  | deliveredWebhookAttempts
  deriving DecidableEq

def Source.all : List Source :=
  [.authSessions, .readTerminalNotifications, .operationalEvents, .deliveredWebhookAttempts]

theorem Source.mem_all (source : Source) : source ∈ Source.all := by
  cases source <;> decide

/-- A row of one of the sources: the columns that the selectors read. -/
inductive Row
  /-- `tenantId` is that of the user. -/
  | authSession (tenantId : Option TenantId) (expiresAt : Time) (revokedAt : Option Time)
  /-- `deliveries` are the statuses of the notification's alert deliveries. -/
  | notification (tenantId : TenantId) (read : Bool) (createdAt : Time)
      (deliveries : List AlertDelivery.Status)
  | operationalEvent (tenantId : TenantId) (occurredAt : Time)
  /-- `deliveryStatus` is the status of the attempt's delivery. -/
  | webhookAttempt (tenantId : TenantId) (deliveryStatus : LeadDelivery.DeliveryStatus)
      (finishedAt : Option Time)
  deriving DecidableEq

/-- `column < cutoff`, which no row without a value satisfies. -/
def isBefore (column : Option Time) (cutoff : Time) : Bool := column.any (fun t => t < cutoff)

/-- `_session_selector` -/
def sessionSelector (tenantId : TenantId) (cutoff : Time) : Row → Bool
  | .authSession tenant expiresAt revokedAt =>
    decide (tenant = some tenantId) && (decide (expiresAt < cutoff) || isBefore revokedAt cutoff)
  | _ => false

/-- `_notification_selector`, with the tenant of the run. -/
def notificationSelector (tenantId : TenantId) (cutoff : Time) : Row → Bool
  | .notification tenant read createdAt deliveries =>
    decide (tenant = tenantId) && read && decide (createdAt < cutoff)
      && !deliveries.any (fun status => decide (status ≠ .delivered))
  | _ => false

def eventSelector (tenantId : TenantId) (cutoff : Time) : Row → Bool
  | .operationalEvent tenant occurredAt =>
    decide (tenant = tenantId) && decide (occurredAt < cutoff)
  | _ => false

/-- `_webhook_attempt_selector` -/
def webhookAttemptSelector (tenantId : TenantId) (cutoff : Time) : Row → Bool
  | .webhookAttempt tenant deliveryStatus finishedAt =>
    decide (tenant = tenantId) && decide (deliveryStatus = .delivered)
      && isBefore finishedAt cutoff
  | _ => false

/-- The rows of a source that are to be deleted, with the cutoffs of `_execute_run`. -/
def Source.selects (source : Source) (policy : Policy) (now : Time) (tenantId : TenantId) :
    Row → Bool :=
  match source with
  | .authSessions => sessionSelector tenantId (now - days policy.authSessionRetentionDays)
  | .readTerminalNotifications =>
    notificationSelector tenantId (now - days policy.notificationRetentionDays)
  | .operationalEvents => eventSelector tenantId (now - days policy.operationalEventRetentionDays)
  | .deliveredWebhookAttempts =>
    webhookAttemptSelector tenantId (now - days policy.deliveryAttemptRetentionDays)

/-! ## Runs -/

inductive Status
  | preview
  | queued
  | processing
  | succeeded
  | failed
  deriving DecidableEq

/-- The statuses in which a run keeps the schedule from queueing another one. -/
def Status.isActive : Status → Bool
  | .queued | .processing => true
  | _ => false

/-- What `_execute_run` returns. -/
structure Counts where
  authSessions : Nat
  readTerminalNotifications : Nat
  operationalEvents : Nat
  deliveredWebhookAttempts : Nat
  deriving DecidableEq

/-- `storage_retention_runs` -/
structure Run where
  tenantId : TenantId
  requestedBy : Option UserId
  status : Status
  policyHash : String
  result : Option Counts
  errorCode : Option String
  expiresAt : Time
  createdAt : Time
  startedAt : Option Time
  completedAt : Option Time
  deriving DecidableEq

/-- `ORDER BY created_at, id` -/
def runLe (a b : RunId × Run) : Prop :=
  a.2.createdAt < b.2.createdAt ∨ a.2.createdAt = b.2.createdAt ∧ a.1 ≤ b.1

instance : DecidableRel runLe := fun _ _ => inferInstanceAs (Decidable (_ ∨ _))

/-- The row that `build_preview` adds. -/
def previewRun (tenantId : TenantId) (requestedBy : UserId) (hash : String)
    (expiresAt createdAt : Time) : Run :=
  ⟨tenantId, some requestedBy, .preview, hash, none, none, expiresAt, createdAt, none, none⟩

/-- A row that `queue_scheduled_retention_runs` adds. -/
def scheduledRun (tenantId : TenantId) (hash : String) (now createdAt : Time) : Run :=
  ⟨tenantId, none, .queued, hash, none, none, now, createdAt, none, none⟩

/-- `queue_preview_run` -/
def queuePreviewRun (currentHash : String) (row : Option Run) (tenantId : TenantId)
    (requestedBy : UserId) (confirmation : String) (now : Time) : Except String Run :=
  match row with
  | none => .error "Retention preview not found"
  | some run =>
    if run.tenantId ≠ tenantId then .error "Retention preview not found"
    else if run.requestedBy ≠ some requestedBy then
      .error "Retention preview belongs to another operator"
    else if run.status ≠ .preview ∨ run.expiresAt ≤ now then
      .error "Retention preview has expired"
    else if run.policyHash ≠ currentHash then
      .error "Retention policy changed; create a new preview"
    else if confirmation ≠ "PURGE EXPIRED DATA" then
      .error "Retention confirmation does not match"
    else .ok { run with status := .queued }

def Run.policyChanged (run : Run) (now : Time) : Run :=
  { run with status := .failed, errorCode := some "policy_changed", completedAt := some now }

def Run.claimed (run : Run) (now : Time) : Run :=
  { run with status := .processing, startedAt := some now }

def Run.completed (run : Run) (result : Counts) (now : Time) : Run :=
  { run with result := some result, status := .succeeded, completedAt := some now }

def Run.raised (run : Run) (now : Time) : Run :=
  { run with status := .failed, errorCode := some "retention_failed", completedAt := some now }

/-! ## Sweeps and schedule passes -/

/-- `_BATCH_SIZE` -/
def batchSize : Nat := 500

/-- The second transaction of a run: `_delete_ids` empties the first of `sources`, `batch` is what
it has selected last, and `removed` is all that the transaction has deleted. -/
structure Deletion where
  policy : Policy
  sources : List Source
  batch : List RowId
  removed : List (Source × RowId)
  deriving DecidableEq

inductive Phase
  /-- The run is `processing`, and the advisory lock is waited for. -/
  | claimed
  | deleting (deletion : Deletion)
  /-- An exception was caught and the transaction rolled back. -/
  | raised
  deriving DecidableEq

/-- A run that a sweep is executing. -/
structure Execution where
  runId : RunId
  tenantId : TenantId
  phase : Phase
  deriving DecidableEq

/-- `process_queued_retention_runs` on its way. -/
structure Sweep where
  now : Time
  todo : List RunId
  executing : Option Execution
  deriving DecidableEq

/-- `queue_scheduled_retention_runs` on its way: the tenants that remain and the rows it adds. -/
structure Pass where
  now : Time
  policyHash : String
  todo : List TenantId
  fresh : List (RunId × Run)

structure World where
  policy : Policy
  runs : Table RunId Run
  data : Table RowId Row
  sweeps : Table SweepId Sweep
  passes : Table PassId Pass

def World.setRun (w : World) (id : RunId) (run : Run) : World :=
  { w with runs := w.runs.set id run }

def World.setSweep (w : World) (sid : SweepId) (sweep : Sweep) : World :=
  { w with sweeps := w.sweeps.set sid sweep }

def World.setPass (w : World) (pid : PassId) (pass : Pass) : World :=
  { w with passes := w.passes.set pid pass }

def Deletion.ids (deletion : Deletion) : List RowId := deletion.removed.map (·.2)

/-- What `_execute_run` returns once the sources are empty. -/
def Deletion.counts (deletion : Deletion) : Counts :=
  let count (source : Source) := (deletion.removed.filter (fun r => r.1 = source)).length
  ⟨count .authSessions, count .readTerminalNotifications, count .operationalEvents,
    count .deliveredWebhookAttempts⟩

/-- The second transaction of the run that a sweep executes. -/
def Sweep.deletion (sweep : Sweep) : Option Deletion :=
  match sweep.executing with
  | some ⟨_, _, .deleting deletion⟩ => some deletion
  | _ => none

/-- Whether the sweep holds the advisory lock. -/
def Sweep.holdsLock (sweep : Sweep) : Bool := sweep.deletion.isSome

/-- The rows that the sweep has deleted and not committed. -/
def Sweep.removes (sweep : Sweep) (id : RowId) : Bool :=
  sweep.deletion.any (fun deletion => decide (id ∈ deletion.ids))

/-- The queued runs, the first `limit` of them. -/
def World.queuedIds (w : World) (limit : Nat) : List RunId :=
  (((w.runs.rows.filter (fun r => decide (r.2.status = .queued))).insertionSort runLe).map
    (·.1)).take limit

/-- The rows that a source's statement finds: those the transaction has not deleted. -/
def World.matching (w : World) (source : Source) (now : Time) (tenantId : TenantId)
    (deletion : Deletion) : List RowId :=
  (w.data.rows.filter (fun r => source.selects deletion.policy now tenantId r.2
    && !decide (r.1 ∈ deletion.ids))).map (·.1)

/-- `statement.limit(_BATCH_SIZE)`: which rows are returned is not said. -/
def isBatch (ids found : List RowId) : Bool :=
  decide ids.Nodup && ids.all (fun id => decide (id ∈ found))
    && decide (ids.length = min batchSize found.length)

/-- A run of the tenant that is queued or processed, also one the pass has added. -/
def World.hasActiveRun (w : World) (pass : Pass) (tenantId : TenantId) : Bool :=
  (w.runs.rows ++ pass.fresh).any
    (fun r => decide (r.2.tenantId = tenantId) && r.2.status.isActive)

/-! ## Steps -/

/-- What a sweep does with the run it is executing. -/
inductive Operation
  | lock
  | select (ids : List RowId)
  | delete
  | finish (now : Time)
  | raise
  | fail (now : Time)
  deriving DecidableEq

inductive Action
  /-- The settings change. -/
  | configure (policy : Policy)
  /-- Anything else in the panel writes or deletes a row. -/
  | change (id : RowId) (row : Option Row)
  | preview (id : RunId) (tenantId : TenantId) (requestedBy : UserId) (expiresAt createdAt : Time)
  | queuePreview (id : RunId) (tenantId : TenantId) (requestedBy : UserId) (confirmation : String)
      (now : Time)
  | schedule (pid : PassId) (tenants : List TenantId) (now : Time)
  /-- The next tenant of a pass; the id is that of the row it adds. -/
  | scheduleNext (pid : PassId) (id : RunId) (createdAt : Time)
  | scheduleCommit (pid : PassId)
  | scheduleAbort (pid : PassId)
  | start (sid : SweepId) (limit : Nat) (now : Time)
  | claim (sid : SweepId)
  | execute (sid : SweepId) (op : Operation)
  | complete (sid : SweepId)
  | die (sid : SweepId)
  deriving DecidableEq

variable (hash : Policy → String)

/-- The first transaction of a run. -/
def World.claim (w : World) (sid : SweepId) (now : Time) (id : RunId) (rest : List RunId) : World :=
  match w.runs.get id with
  | none => w.setSweep sid ⟨now, rest, none⟩
  | some run =>
    if run.status ≠ .queued then w.setSweep sid ⟨now, rest, none⟩
    else if run.policyHash ≠ hash w.policy then
      (w.setRun id (run.policyChanged now)).setSweep sid ⟨now, rest, none⟩
    else (w.setRun id (run.claimed now)).setSweep sid
      ⟨now, rest, some ⟨id, run.tenantId, .claimed⟩⟩

/-- A step of the loop of `_delete_ids`: a statement's result, when none is being deleted. -/
def World.select (w : World) (now : Time) (tenantId : TenantId) (ids : List RowId)
    (deletion : Deletion) : Option Deletion :=
  match deletion.batch, deletion.sources with
  | [], source :: rest =>
    if isBatch ids (w.matching source now tenantId deletion) then
      some (if ids = [] then { deletion with sources := rest }
        else { deletion with batch := ids })
    else none
  | _, _ => none

/-- The rows selected last are deleted. -/
def Deletion.delete (deletion : Deletion) : Option Deletion :=
  match deletion.batch, deletion.sources with
  | id :: ids, source :: _ =>
    some { deletion with
      batch := []
      removed := deletion.removed ++ (id :: ids).map (fun i => (source, i)) }
  | _, _ => none

/-- The commit that ends the second transaction. -/
def World.finish (w : World) (sid : SweepId) (sweep : Sweep) (execution : Execution)
    (deletion : Deletion) (now : Time) : World :=
  { (w.setSweep sid { sweep with executing := none }) with
    runs := w.runs.modify execution.runId (fun run => run.completed deletion.counts now)
    data := w.data.deleteWhere (fun id => decide (id ∈ deletion.ids)) }

def World.setPhase (w : World) (sid : SweepId) (sweep : Sweep) (execution : Execution)
    (phase : Phase) : World :=
  w.setSweep sid { sweep with executing := some { execution with phase := phase } }

/-- A step of a sweep that is executing a run. -/
def World.execute (w : World) (sid : SweepId) (sweep : Sweep) (execution : Execution) :
    Operation → Option World
  | .lock =>
    if execution.phase = .claimed ∧ w.sweeps.rows.all (fun s => !s.2.holdsLock) = true then
      some (w.setPhase sid sweep execution (.deleting ⟨w.policy, Source.all, [], []⟩))
    else none
  | .select ids =>
    match execution.phase with
    | .deleting deletion =>
      (w.select sweep.now execution.tenantId ids deletion).map
        (fun d => w.setPhase sid sweep execution (.deleting d))
    | _ => none
  | .delete =>
    match execution.phase with
    | .deleting deletion =>
      deletion.delete.map (fun d => w.setPhase sid sweep execution (.deleting d))
    | _ => none
  | .finish now =>
    match execution.phase with
    | .deleting deletion =>
      if deletion.batch = [] ∧ deletion.sources = [] then
        some (w.finish sid sweep execution deletion now)
      else none
    | _ => none
  | .raise =>
    if execution.phase = .raised then none else some (w.setPhase sid sweep execution .raised)
  | .fail now =>
    if execution.phase = .raised then
      some { (w.setSweep sid { sweep with executing := none }) with
        runs := w.runs.modify execution.runId (fun run => run.raised now) }
    else none

def step (w : World) : Action → Option World
  | .configure policy => some { w with policy := policy }
  | .change id row =>
    if w.sweeps.rows.any (fun s => s.2.removes id) then none
    else match row with
      | some row => some { w with data := w.data.set id row }
      | none => some { w with data := w.data.erase id }
  | .preview id tenantId requestedBy expiresAt createdAt =>
    if w.runs.get id = none then
      some (w.setRun id (previewRun tenantId requestedBy (hash w.policy) expiresAt createdAt))
    else none
  | .queuePreview id tenantId requestedBy confirmation now =>
    match queuePreviewRun (hash w.policy) (w.runs.get id) tenantId requestedBy confirmation now with
    | .ok run => some (w.setRun id run)
    | .error _ => none
  | .schedule pid tenants now =>
    if w.passes.get pid = none then some (w.setPass pid ⟨now, hash w.policy, tenants, []⟩)
    else none
  | .scheduleNext pid id createdAt =>
    (w.passes.get pid).bind (fun pass =>
      match pass.todo with
      | [] => none
      | tenantId :: rest =>
        if w.hasActiveRun pass tenantId then
          some (w.setPass pid { pass with todo := rest })
        else some (w.setPass pid { pass with
          todo := rest
          fresh := pass.fresh ++
            [(id, scheduledRun tenantId pass.policyHash pass.now createdAt)] }))
  | .scheduleCommit pid =>
    (w.passes.get pid).bind (fun pass =>
      if pass.todo = [] ∧ (pass.fresh.map (·.1)).Nodup
          ∧ ∀ id ∈ pass.fresh.map (·.1), w.runs.get id = none then
        some { w with
          runs := w.runs.insertAll pass.fresh
          passes := w.passes.erase pid }
      else none)
  | .scheduleAbort pid => (w.passes.get pid).map (fun _ =>
    { w with passes := w.passes.erase pid })
  | .start sid limit now =>
    if w.sweeps.get sid = none then some (w.setSweep sid ⟨now, w.queuedIds limit, none⟩)
    else none
  | .claim sid =>
    match w.sweeps.get sid with
    | some ⟨now, id :: rest, none⟩ => some (w.claim hash sid now id rest)
    | _ => none
  | .complete sid =>
    match w.sweeps.get sid with
    | some ⟨_, [], none⟩ => some { w with sweeps := w.sweeps.erase sid }
    | _ => none
  | .die sid => (w.sweeps.get sid).map (fun _ => { w with sweeps := w.sweeps.erase sid })
  | .execute sid op =>
    match w.sweeps.get sid with
    | some ⟨now, todo, some execution⟩ => w.execute sid ⟨now, todo, some execution⟩ execution op
    | _ => none

/-- A panel without runs. -/
def World.empty (policy : Policy) : World :=
  ⟨policy, Table.empty, Table.empty, Table.empty, Table.empty⟩

end MegaPanel.StorageRetention
