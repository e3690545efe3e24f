import MegaPanel.Lib.JsonText
import MegaPanel.Lib.Sha256
import MegaPanel.Lib.Uuid
import MegaPanel.Lib.Run

set_option autoImplicit false

/-! # The audit log

`services/audit.py`. A record carries the hash of its own contents and of the hash before it.
`append_audit` takes an advisory lock that lasts until the transaction ends, reads the last
record, and inserts the next one; `verify_audit_chain` computes the hashes again.

* A transaction sees the committed records and its own. The policies of row level security are
  not forced on `audit_log`, so the owner of the table sees the records of every tenant.
* An id is drawn when the record is inserted. A transaction that is rolled back leaves a gap.
* `jsonb payload` is what a stored payload reads back as.
-/

namespace MegaPanel.Audit

open MegaPanel.Lib MegaPanel.Lib.Sha256

abbrev TxId := Nat

/-! ## Records -/

/-- A dictionary that `json.dumps` writes and a JSON column holds. -/
structure Payload where
  entries : List (String × Json)
  valid : Json.valid (.dict entries) = true

def Payload.json (payload : Payload) : Json := .dict payload.entries

/-- `{}` -/
def Payload.empty : Payload := ⟨[], rfl⟩

/-- `payload or {}` -/
def orEmpty (payload : Option Payload) : Payload := payload.getD .empty

/-- `audit_log` -/
structure AuditLog where
  id : Nat
  tenantId : Option Uuid
  actorId : Option Uuid
  action : String
  payload : Option Payload
  recordHash : String
  prevHash : String

/-- `ZERO_HASH` -/
def zeroHash : String := String.ofList (List.replicate 64 '0')

/-! ## The hash of a record -/

/-- `str(value) if value else None` -/
def idText : Option Uuid → Json
  | some id => .str id.str
  | none => .null

def recordBody (action : String) (payload : Payload) (tenantId actorId : Option Uuid)
    (prevHash : String) : Json :=
  .dict [("action", .str action), ("payload", payload.json), ("tenant_id", idText tenantId),
    ("actor_id", idText actorId), ("prev_hash", .str prevHash)]

def auditRecordHash (action : String) (payload : Payload) (tenantId actorId : Option Uuid)
    (prevHash : String) : String :=
  sha256Hex (recordBody action payload tenantId actorId prevHash).dumps

/-- The loop of `verify_audit_chain`, with the hash of the record before. -/
def verifyFrom (previous : String) : List AuditLog → List Nat
  | [] => []
  | entry :: entries =>
    let expected := auditRecordHash entry.action (orEmpty entry.payload) entry.tenantId
      entry.actorId previous
    if entry.prevHash ≠ previous ∨ entry.recordHash ≠ expected then
      entry.id :: verifyFrom entry.recordHash entries
    else verifyFrom entry.recordHash entries

/-- `verify_audit_chain`: the ids of the records that do not fit. -/
def verifyAuditChain (entries : List AuditLog) : List Nat := verifyFrom zeroHash entries

/-- `select(AuditLog).order_by(AuditLog.id)` -/
def orderById (rows : List AuditLog) : List AuditLog := rows.insertionSort (fun e e' => e.id ≤ e'.id)

/-- `select(AuditLog).order_by(AuditLog.id.desc()).limit(1)` -/
def lastRow (rows : List AuditLog) : Option AuditLog :=
  (rows.insertionSort (fun e e' => e'.id ≤ e.id)).head?

/-! ## Transactions -/

/-- The arguments of `append_audit`. -/
structure Arguments where
  action : String
  payload : Option Payload
  tenantId : Option Uuid
  actorId : Option Uuid

/-- A call of `append_audit` that has the lock. -/
inductive Call
  | locked (arguments : Arguments)
  /-- It has read the last record. -/
  | read (arguments : Arguments) (previous : String)

structure World where
  auditLog : List AuditLog
  nextId : Nat
  lock : Option TxId
  /-- The records that a transaction has inserted and not committed. -/
  inserted : TxId → List AuditLog
  call : TxId → Option Call

inductive Action
  | lock (tx : TxId) (arguments : Arguments)
  | read (tx : TxId)
  | insert (tx : TxId)
  | commit (tx : TxId)
  | rollback (tx : TxId)

def World.setCall (w : World) (tx : TxId) (call : Option Call) : World :=
  { w with call := Function.update w.call tx call }

/-- The transaction is over: its lock is free, and it has no records of its own. -/
def World.close (w : World) (tx : TxId) : World :=
  { w with
    lock := if w.lock = some tx then none else w.lock
    inserted := Function.update w.inserted tx []
    call := Function.update w.call tx none }

/-- What the transaction sees. -/
def World.visible (w : World) (tx : TxId) : List AuditLog := w.auditLog ++ w.inserted tx

/-- The record that `append_audit` adds, as it is stored. -/
def newRow (jsonb : Payload → Payload) (id : Nat) (arguments : Arguments) (previous : String) :
    AuditLog where
  id := id
  tenantId := arguments.tenantId
  actorId := arguments.actorId
  action := arguments.action
  payload := some (jsonb (orEmpty arguments.payload))
  recordHash := auditRecordHash arguments.action (orEmpty arguments.payload) arguments.tenantId
    arguments.actorId previous
  prevHash := previous

def step (jsonb : Payload → Payload) (w : World) : Action → Option World
  | .lock tx arguments =>
    if (w.lock = none ∨ w.lock = some tx) ∧ (w.call tx).isNone then
      some ({ w with lock := some tx }.setCall tx (some (.locked arguments)))
    else none
  | .read tx =>
    match w.call tx with
    | some (.locked arguments) =>
      let previous := ((lastRow (w.visible tx)).map (·.recordHash)).getD zeroHash
      some (w.setCall tx (some (.read arguments previous)))
    | _ => none
  | .insert tx =>
    match w.call tx with
    | some (.read arguments previous) =>
      let entry := newRow jsonb w.nextId arguments previous
      some ({ w with
        nextId := w.nextId + 1
        inserted := Function.update w.inserted tx (w.inserted tx ++ [entry]) }.setCall tx none)
    | _ => none
  | .commit tx =>
    if (w.call tx).isNone then
      some ({ w with auditLog := w.auditLog ++ w.inserted tx }.close tx)
    else none
  | .rollback tx => some (w.close tx)

/-- The table as the first migration creates it. -/
def initial : World := ⟨[], 1, none, fun _ => [], fun _ => none⟩

end MegaPanel.Audit
