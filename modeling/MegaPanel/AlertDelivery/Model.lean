import MegaPanel.Basic
import MegaPanel.Lib.Run
import MegaPanel.Lib.Table
import MegaPanel.Lib.UnitOfWork

set_option autoImplicit false

/-! # Deliveries of operator alerts

An operator alert is sent over each configured channel by a delivery row of its own;
`process_alert_delivery` claims the delivery in one transaction, dispatches it outside any
transaction, and writes the outcome in a second one, to the delivery and to the attempt row of
the claim. Within a transaction the delivery's row is locked, and nothing else another session
writes is read, so each transaction is one step here. There is no operation that resends an
alert.

* The second transaction locks the row again, but its session still holds the instance of the
  claim: it finds its attempt through the count that instance has, and its flush writes the
  columns it has changed.
* A session may die at any point of a dispatch; what a dispatch returns is an input.
* Whether the notification of a delivery is found is an input too.
* A recovery sweep treats the expired rows independently of each other; each row is a step.
-/

namespace MegaPanel.AlertDelivery

open MegaPanel.Lib

abbrev DeliveryId := Nat
abbrev SessionId := Nat

/-! ## Rows -/

inductive Status
  | queued
  | processing
  | retrying
  | delivered
  | deadLetter
  deriving DecidableEq

/-- The statuses in which `process_alert_delivery` refuses to work on a delivery. -/
def Status.isTerminal : Status → Bool
  | .delivered | .deadLetter => true
  | _ => false

/-- `AlertDelivery` -/
structure Delivery where
  status : Status
  attemptCount : Nat
  nextAttemptAt : Option Time
  leaseExpiresAt : Option Time
  deliveredAt : Option Time
  errorCode : Option String
  deriving DecidableEq

/-- `AlertDeliveryAttempt`, identified by its delivery and its sequence. -/
structure Attempt where
  status : Status
  errorCode : Option String
  finishedAt : Option Time
  deriving DecidableEq

structure Db where
  deliveries : Table DeliveryId Delivery
  attempts : Table (DeliveryId × Nat) Attempt

/-- What `_dispatch` returns. -/
structure Answer where
  ok : Bool
  errorCode : Option String
  retryable : Bool
  deriving DecidableEq

/-! ## What the operations write -/

/-- `MAX_ATTEMPTS` -/
def maxAttempts : Nat := 5

/-- `LEASE_SECONDS` -/
def leaseSeconds : Nat := 300

/-- `BACKOFF_SECONDS` -/
def backoffSeconds : List Nat := [60, 300, 900, 3600, 3600]

/-- The row `create_operator_alert` inserts for a channel. -/
def newDelivery (now : Time) : Delivery where
  status := .queued
  attemptCount := 0
  nextAttemptAt := some now
  leaseExpiresAt := none
  deliveredAt := none
  errorCode := none

/-- The guards of `process_alert_delivery`. -/
def Delivery.isClaimable (d : Delivery) (now : Time) : Bool :=
  !d.status.isTerminal && !d.leaseExpiresAt.any (now < ·) && !d.nextAttemptAt.any (now < ·)

/-- The delivery of a notification that is gone. -/
def Delivery.missingNotification (d : Delivery) : Delivery :=
  { d with status := .deadLetter, errorCode := some "missing_notification" }

/-- The first transaction of `process_alert_delivery`. -/
def Delivery.claim (d : Delivery) (now : Time) : Delivery :=
  { d with
    attemptCount := d.attemptCount + 1
    status := .processing
    leaseExpiresAt := some (now + seconds leaseSeconds) }

def Attempt.begin : Attempt where
  status := .processing
  errorCode := none
  finishedAt := none

/-- The status the second transaction gives to the delivery and to the attempt. -/
def Delivery.outcome (d : Delivery) (answer : Answer) : Status :=
  if answer.ok then .delivered
  else if answer.retryable && decide (d.attemptCount < maxAttempts) then .retrying
  else .deadLetter

/-- The second transaction of `process_alert_delivery`, on the delivery. -/
def Delivery.finish (d : Delivery) (now : Time) (answer : Answer) : Delivery :=
  let d' := { d with
    leaseExpiresAt := none
    errorCode := answer.errorCode
    status := d.outcome answer }
  match d.outcome answer with
  | .delivered => { d' with deliveredAt := some now }
  | .retrying =>
    { d' with
      nextAttemptAt := some (now + seconds (backoffSeconds.getD (d.attemptCount - 1) 0)) }
  | _ => d'

/-- The second transaction of `process_alert_delivery`, on the attempt. -/
def Attempt.finish (a : Attempt) (d : Delivery) (now : Time) (answer : Answer) : Attempt where
  status := d.outcome answer
  errorCode := if answer.ok then a.errorCode else answer.errorCode
  finishedAt := some now

/-- The selection of `recover_expired_alert_leases`. -/
def Delivery.isExpired (d : Delivery) (now : Time) : Bool :=
  decide (d.status = .processing) && d.leaseExpiresAt.any (· < now)

/-- What `recover_expired_alert_leases` writes to each row. -/
def Delivery.recover (d : Delivery) (now : Time) : Delivery :=
  { d with
    status := .retrying
    nextAttemptAt := some now
    leaseExpiresAt := none
    errorCode := some "lease_expired" }

/-- The stored row after a flush of `current`, loaded as `loaded`. -/
def Delivery.flush (loaded current stored : Delivery) : Delivery where
  status := writeCol loaded.status current.status stored.status
  attemptCount := writeCol loaded.attemptCount current.attemptCount stored.attemptCount
  nextAttemptAt := writeCol loaded.nextAttemptAt current.nextAttemptAt stored.nextAttemptAt
  leaseExpiresAt := writeCol loaded.leaseExpiresAt current.leaseExpiresAt stored.leaseExpiresAt
  deliveredAt := writeCol loaded.deliveredAt current.deliveredAt stored.deliveredAt
  errorCode := writeCol loaded.errorCode current.errorCode stored.errorCode

/-! ## Steps -/

/-- A session between its two transactions; `copy` is the instance it holds. -/
structure Dispatch where
  id : DeliveryId
  copy : Delivery
  deriving DecidableEq

structure World where
  db : Db
  now : Time
  sessions : SessionId → Option Dispatch

inductive Action
  | tick (elapsed : Time)
  | create (id : DeliveryId)
  | claim (sid : SessionId) (id : DeliveryId) (found : Bool)
  | finish (sid : SessionId) (answer : Answer)
  | recover (id : DeliveryId)
  | die (sid : SessionId)
  deriving DecidableEq

def World.setSession (w : World) (sid : SessionId) (session : Option Dispatch) : World :=
  { w with sessions := Function.update w.sessions sid session }

def Db.setDelivery (db : Db) (id : DeliveryId) (d : Delivery) : Db :=
  { db with deliveries := db.deliveries.set id d }

def Db.setAttempt (db : Db) (id : DeliveryId) (n : Nat) (a : Attempt) : Db :=
  { db with attempts := db.attempts.set (id, n) a }

/-- The claim of a delivery. A second attempt with the same sequence would violate the unique
constraint of the attempts and roll the transaction back. -/
def World.claim (w : World) (sid : SessionId) (id : DeliveryId) (d : Delivery)
    (found : Bool) : Option World :=
  if d.isClaimable w.now then
    if found then
      let d' := d.claim w.now
      if w.db.attempts.get (id, d'.attemptCount) = none then
        some { w.setSession sid (some ⟨id, d'⟩) with
          db := (w.db.setDelivery id d').setAttempt id d'.attemptCount Attempt.begin }
      else none
    else some { w with db := w.db.setDelivery id d.missingNotification }
  else none

def step (w : World) : Action → Option World
  | .tick elapsed => some { w with now := w.now + elapsed }
  | .create id =>
    match w.db.deliveries.get id with
    | none => some { w with db := w.db.setDelivery id (newDelivery w.now) }
    | some _ => none
  | .claim sid id found =>
    match w.sessions sid, w.db.deliveries.get id with
    | none, some d => w.claim sid id d found
    | _, _ => none
  | .finish sid answer =>
    match w.sessions sid with
    | some dispatch =>
      match w.db.deliveries.get dispatch.id,
        lockedRead (some dispatch.copy) (w.db.deliveries.get dispatch.id) with
      | some stored, some d =>
        match w.db.attempts.get (dispatch.id, d.attemptCount) with
        | some a =>
          some { w.setSession sid none with
            db := (w.db.setDelivery dispatch.id
              (Delivery.flush d (d.finish w.now answer) stored)).setAttempt dispatch.id
                d.attemptCount (a.finish d w.now answer) }
        | none => none
      | _, _ => none
    | none => none
  | .recover id =>
    match w.db.deliveries.get id with
    | some d =>
      if d.isExpired w.now then
        some { w with db := w.db.setDelivery id (d.recover w.now) }
      else none
    | none => none
  | .die sid => (w.sessions sid).map (fun _ => w.setSession sid none)

/-- The system before any alert. -/
structure Init (w : World) : Prop where
  deliveries : w.db.deliveries = Table.empty
  attempts : w.db.attempts = Table.empty
  sessions : ∀ sid, w.sessions sid = none

/-! ## What a step does -/

inductive Move (w : World) : Action → World → Prop
  | tick (elapsed : Time) : Move w (.tick elapsed) { w with now := w.now + elapsed }
  | create (id : DeliveryId) (hnew : w.db.deliveries.get id = none) :
      Move w (.create id) { w with db := w.db.setDelivery id (newDelivery w.now) }
  | missing (sid : SessionId) (id : DeliveryId) (d : Delivery)
      (hd : w.db.deliveries.get id = some d) :
      Move w (.claim sid id false) { w with db := w.db.setDelivery id d.missingNotification }
  | claim (sid : SessionId) (id : DeliveryId) (d : Delivery) (hsession : w.sessions sid = none)
      (hd : w.db.deliveries.get id = some d) :
      Move w (.claim sid id true)
        { w.setSession sid (some ⟨id, d.claim w.now⟩) with
          db := (w.db.setDelivery id (d.claim w.now)).setAttempt id (d.attemptCount + 1)
            Attempt.begin }
  | finish (sid : SessionId) (answer : Answer) (dispatch : Dispatch) (stored : Delivery)
      (a : Attempt) (hsession : w.sessions sid = some dispatch)
      (hstored : w.db.deliveries.get dispatch.id = some stored)
      (ha : w.db.attempts.get (dispatch.id, dispatch.copy.attemptCount) = some a) :
      Move w (.finish sid answer)
        { w.setSession sid none with
          db := (w.db.setDelivery dispatch.id (Delivery.flush dispatch.copy
            (dispatch.copy.finish w.now answer) stored)).setAttempt dispatch.id
              dispatch.copy.attemptCount (a.finish dispatch.copy w.now answer) }
  | recover (id : DeliveryId) (d : Delivery) (hd : w.db.deliveries.get id = some d) :
      Move w (.recover id) { w with db := w.db.setDelivery id (d.recover w.now) }
  | die (sid : SessionId) : Move w (.die sid) (w.setSession sid none)

theorem step_move {w w' : World} {a : Action} (h : step w a = some w') : Move w a w' := by
  cases a with
  | tick elapsed =>
    cases h
    exact .tick elapsed
  | create id =>
    simp only [step] at h
    split at h
    · next hnew =>
      cases h
      exact .create id hnew
    · cases h
  | claim sid id found =>
    simp only [step] at h
    split at h
    · next d hsession hd =>
      simp only [World.claim] at h
      split at h
      · cases found with
        | true =>
          simp only [if_true] at h
          split at h
          · cases h
            exact .claim sid id d hsession hd
          · cases h
        | false =>
          cases h
          exact .missing sid id d hd
      · cases h
    · cases h
  | finish sid answer =>
    simp only [step] at h
    split at h
    · next dispatch hsession =>
      split at h
      · next stored d hstored hread =>
        rw [hstored, lockedRead_loaded] at hread
        cases hread
        split at h
        · next a ha =>
          cases h
          exact .finish sid answer dispatch stored a hsession hstored ha
        · cases h
      · cases h
    · cases h
  | recover id =>
    simp only [step] at h
    split at h
    · next d hd =>
      split at h
      · cases h
        exact .recover id d hd
      · cases h
    · cases h
  | die sid =>
    simp only [step] at h
    obtain ⟨dispatch, _, rfl⟩ := Option.map_eq_some_iff.mp h
    exact .die sid

end MegaPanel.AlertDelivery
