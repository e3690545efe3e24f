import MegaPanel.Lib.Run
import MegaPanel.LeadDelivery.Model

set_option autoImplicit false

/-! # The deliveries of leads as a transition system

The parties are the route that creates leads, the workers that execute `process_delivery`, the
recovery sweep and the operators who resend. Every transaction that touches a delivery holds
the lock of its row (`Tx`) and recomputes the aggregate of its lead in three reads between
which other transactions may commit: the lead, the deliveries, the aggregate row (`Stage`).

* A claim and a recovery read the lead without a lock; a finishing transaction and a resend
  lock it.
* The sessions keep the instances they have loaded. A finishing transaction works on the copies
  of the delivery and of the lead that its claim loaded, a resend on the lead its route read
  before locking anything. The aggregate row is read anew by every transaction.
* A dispatch runs between two transactions and holds no lock; a session may die at any point.
* A recovery sweep locks several expired rows and treats them one by one; each of its rows is a
  session of its own here.
* A message for a delivery may be delivered any number of times, so any session may claim any
  delivery.
-/

namespace MegaPanel.LeadDelivery

open MegaPanel.Lib

/-! ## Transactions -/

abbrev SessionId := Nat

/-- What a transaction is about to do with the delivery it has locked. -/
inductive Purpose
  | claim (trigger : Trigger) (sequence : Nat)
  | finish (sequence : Nat) (result : Result)
  | recover
  | resend (transport : Option Transport)
  deriving DecidableEq

/-- The guard under which the transaction goes on, on the delivery instance it works on. -/
def Purpose.admits (purpose : Purpose) (now : Time) (d : Delivery) : Bool :=
  match purpose with
  | .claim trigger _ => d.isClaimable now trigger
  | .finish _ _ => true
  | .recover => d.isExpired now
  | .resend transport => d.isResendable transport

/-- The delivery instance after the transaction's assignments. -/
def Purpose.apply (purpose : Purpose) (now : Time) (d : Delivery) : Delivery :=
  match purpose with
  | .claim _ _ => d.claim now
  | .finish _ result => d.finish now result
  | .recover => d.recover now
  | .resend transport => d.resend now transport

/-- Finishing transactions and resends lock the lead. -/
def Purpose.locksLead : Purpose → Bool
  | .finish _ _ | .resend _ => true
  | _ => false

/-- A transaction on one delivery: the instance it works on, the instance of the lead its
session already holds, and the guard it has passed. -/
structure Tx where
  id : DeliveryId
  purpose : Purpose
  openedAt : Time
  loaded : Delivery
  held : Option Lead
  admitted : purpose.admits openedAt loaded = true
  deriving DecidableEq

/-- The delivery instance the transaction will flush. -/
def Tx.current (tx : Tx) : Delivery := tx.purpose.apply tx.openedAt tx.loaded

/-- How far a transaction has come in recomputing the aggregate. -/
inductive Stage
  | locked
  | read (lead : Lead)
  | counted (lead : Lead) (computed : Aggregate)
  | ready (lead : Lead) (computed : Aggregate) (stored : Option Aggregate)
  deriving DecidableEq

/-- A session: a resend route that has read the lead, a transaction, or a dispatch between the
two transactions of `process_delivery`. -/
inductive Session
  | reading (lead : LeadId) (copy : Lead)
  | writing (tx : Tx) (stage : Stage)
  | dispatching (id : DeliveryId) (sequence : Nat) (copy : Delivery) (lead : Lead)
  deriving DecidableEq

structure World where
  db : Db
  now : Time
  sessions : SessionId → Option Session
  deliveryLocks : DeliveryId → Option SessionId
  leadLocks : LeadId → Option SessionId

/-! ## Transactions begin, read and commit -/

/-- Lock a delivery row for a transaction. -/
def World.begin (w : World) (sid : SessionId) (id : DeliveryId) (purpose : Purpose)
    (loaded : Delivery) (held : Option Lead) : Option World :=
  if w.deliveryLocks id = none then
    if h : purpose.admits w.now loaded = true then
      some { w with
        sessions := Function.update w.sessions sid
          (some (.writing ⟨id, purpose, w.now, loaded, held, h⟩ .locked))
        deliveryLocks := Function.update w.deliveryLocks id (some sid) }
    else none
  else none

/-- The deliveries of the transaction's lead, as the transaction sees them. -/
def Tx.view (tx : Tx) (db : Db) : List Delivery :=
  ({ db with deliveries := db.deliveries.set tx.id tx.current }).deliveriesOf tx.loaded.leadId

/-- The next read of a transaction. -/
def Tx.advance (tx : Tx) (db : Db) : Stage → Option Stage
  | .locked => (lockedRead tx.held (db.leads.get tx.loaded.leadId)).map .read
  | .read lead => some (.counted lead (recomputeAggregate (tx.view db)))
  | .counted lead computed =>
    some (.ready lead computed (db.aggregates.get tx.loaded.leadId))
  | .ready _ _ _ => none

/-- The locks after the transaction's next read: its first read locks the lead if its purpose
says so, and waits for the lock. -/
def Tx.lockLead (tx : Tx) (sid : SessionId) (locks : LeadId → Option SessionId) :
    Stage → Option (LeadId → Option SessionId)
  | .locked =>
    if tx.purpose.locksLead then
      if locks tx.loaded.leadId = none then
        some (Function.update locks tx.loaded.leadId (some sid))
      else none
    else some locks
  | _ => some locks

/-- What the commit of a transaction does to the attempts. -/
def Tx.flushAttempts (tx : Tx) (attempts : Table (DeliveryId × Nat) Attempt) :
    Table (DeliveryId × Nat) Attempt :=
  match tx.purpose with
  | .claim trigger sequence => attempts.set (tx.id, sequence) (Attempt.begin trigger)
  | .finish sequence result =>
    match attempts.get (tx.id, sequence) with
    | some a => attempts.set (tx.id, sequence) (a.finish tx.loaded tx.openedAt result)
    | none => attempts
  | _ => attempts

/-- What the commit of a transaction writes. -/
def Tx.flush (tx : Tx) (lead : Lead) (computed : Aggregate) (stored : Option Aggregate)
    (db : Db) : Db where
  deliveries := db.deliveries.modify tx.id (Delivery.flush tx.loaded tx.current)
  attempts := tx.flushAttempts db.attempts
  leads := db.leads.modify tx.loaded.leadId (fun row =>
    ⟨writeCol lead.crmStatus (some computed.status) row.crmStatus⟩)
  aggregates :=
    match stored with
    | none => db.aggregates.set tx.loaded.leadId computed
    | some loaded => db.aggregates.modify tx.loaded.leadId (Aggregate.flush loaded computed)

/-- The session after its transaction has committed: a claim goes on to the dispatch. -/
def Tx.next (tx : Tx) (computed : Aggregate) : Option Session :=
  match tx.purpose with
  | .claim _ sequence =>
    some (.dispatching tx.id sequence tx.current ⟨some computed.status⟩)
  | _ => none

/-- The locks without those of one session. -/
def releaseLocks {κ : Type} (sid : SessionId) (locks : κ → Option SessionId) :
    κ → Option SessionId :=
  fun k => if locks k = some sid then none else locks k

/-! ## Steps -/

inductive Action
  | tick (elapsed : Time)
  | create (lead : LeadId) (ids : List DeliveryId) (spam : Bool)
      (transport : Option Transport) (policy : Option Policy)
  | claim (sid : SessionId) (id : DeliveryId) (trigger : Trigger)
  | finish (sid : SessionId) (result : Result)
  | recover (sid : SessionId) (id : DeliveryId)
  | resendRead (sid : SessionId) (lead : LeadId)
  | resend (sid : SessionId) (id : DeliveryId) (transport : Option Transport)
  | advance (sid : SessionId)
  | commit (sid : SessionId)
  | die (sid : SessionId)
  deriving DecidableEq

/-- The actions that begin a transaction. -/
def Action.begins : Action → Bool
  | .claim _ _ _ | .finish _ _ | .recover _ _ | .resend _ _ _ => true
  | _ => false

/-- The deliveries the creation of a lead inserts; a lead marked as spam has none. -/
def newDeliveries (now : Time) (lead : LeadId) (spam : Bool) (transport : Option Transport)
    (policy : Option Policy) : List Delivery :=
  if spam then [] else createLeadDeliveries now lead transport policy

/-- The rows inserted when a lead is created. -/
def Db.createLead (db : Db) (lead : LeadId) (rows : List (DeliveryId × Delivery)) : Db :=
  let aggregate := recomputeAggregate (rows.map (·.2))
  { db with
    leads := db.leads.set lead ⟨some aggregate.status⟩
    deliveries := db.deliveries.insertAll rows
    aggregates := db.aggregates.set lead aggregate }

/-- Whether primary keys are new. -/
def Db.freshLead (db : Db) (lead : LeadId) (ids : List DeliveryId) : Bool :=
  (db.leads.get lead).isNone && (db.aggregates.get lead).isNone &&
    ids.all (fun id => (db.deliveries.get id).isNone) && decide ids.Nodup

def World.create (w : World) (lead : LeadId) (ids : List DeliveryId) (spam : Bool)
    (transport : Option Transport) (policy : Option Policy) : Option World :=
  let rows := newDeliveries w.now lead spam transport policy
  if w.db.freshLead lead ids ∧ ids.length = rows.length then
    some { w with db := w.db.createLead lead (ids.zip rows) }
  else none

def World.advance (w : World) (sid : SessionId) : Option World :=
  match w.sessions sid with
  | some (.writing tx stage) =>
    (tx.advance w.db stage).bind (fun stage' =>
      (tx.lockLead sid w.leadLocks stage).map (fun locks =>
        { w with
          sessions := Function.update w.sessions sid (some (.writing tx stage'))
          leadLocks := locks }))
  | _ => none

/-- The session ends its transaction or its life: its locks are released. -/
def World.leave (w : World) (sid : SessionId) (next : Option Session) : World :=
  { w with
    sessions := Function.update w.sessions sid next
    deliveryLocks := releaseLocks sid w.deliveryLocks
    leadLocks := releaseLocks sid w.leadLocks }

def World.commit (w : World) (sid : SessionId) : Option World :=
  match w.sessions sid with
  | some (.writing tx (.ready lead computed stored)) =>
    some { w.leave sid (tx.next computed) with db := tx.flush lead computed stored w.db }
  | _ => none

def step (w : World) : Action → Option World
  | .tick elapsed => some { w with now := w.now + elapsed }
  | .create lead ids spam transport policy => w.create lead ids spam transport policy
  | .claim sid id trigger =>
    match w.sessions sid, w.db.deliveries.get id with
    | none, some row =>
      w.begin sid id (.claim trigger (w.db.lastSequence id + 1)) row none
    | _, _ => none
  | .finish sid result =>
    match w.sessions sid with
    | some (.dispatching id sequence copy lead) =>
      (lockedRead (some copy) (w.db.deliveries.get id)).bind (fun row =>
        w.begin sid id (.finish sequence result) row (some lead))
    | _ => none
  | .recover sid id =>
    match w.sessions sid, w.db.deliveries.get id with
    | none, some row => w.begin sid id .recover row none
    | _, _ => none
  | .resendRead sid lead =>
    match w.sessions sid, w.db.leads.get lead with
    | none, some row =>
      some { w with sessions := Function.update w.sessions sid (some (.reading lead row)) }
    | _, _ => none
  | .resend sid id transport =>
    match w.sessions sid, w.db.deliveries.get id with
    | some (.reading lead copy), some row =>
      if row.leadId = lead then w.begin sid id (.resend transport) row (some copy) else none
    | _, _ => none
  | .advance sid => w.advance sid
  | .commit sid => w.commit sid
  | .die sid => (w.sessions sid).map (fun _ => w.leave sid none)

/-- The system before any lead. -/
structure Init (w : World) : Prop where
  leads : w.db.leads = Table.empty
  deliveries : w.db.deliveries = Table.empty
  attempts : w.db.attempts = Table.empty
  aggregates : w.db.aggregates = Table.empty
  sessions : ∀ sid, w.sessions sid = none
  deliveryLocks : ∀ id, w.deliveryLocks id = none
  leadLocks : ∀ lead, w.leadLocks lead = none

/-! ## What a step does -/

/-- How a transaction may begin in the session `sid`. -/
inductive Opens (w : World) (sid : SessionId) (tx : Tx) : Prop
  | claim (trigger : Trigger) (hpurpose : tx.purpose = .claim trigger (w.db.lastSequence tx.id + 1))
      (hsession : w.sessions sid = none) (hrow : w.db.deliveries.get tx.id = some tx.loaded)
      (hheld : tx.held = none)
  | finish (sequence : Nat) (result : Result) (lead : Lead) (row : Delivery)
      (hpurpose : tx.purpose = .finish sequence result)
      (hsession : w.sessions sid = some (.dispatching tx.id sequence tx.loaded lead))
      (hrow : w.db.deliveries.get tx.id = some row) (hheld : tx.held = some lead)
  | recover (hpurpose : tx.purpose = .recover) (hsession : w.sessions sid = none)
      (hrow : w.db.deliveries.get tx.id = some tx.loaded) (hheld : tx.held = none)
  | resend (transport : Option Transport) (lead : Lead)
      (hpurpose : tx.purpose = .resend transport)
      (hsession : w.sessions sid = some (.reading tx.loaded.leadId lead))
      (hrow : w.db.deliveries.get tx.id = some tx.loaded) (hheld : tx.held = some lead)

/-- What the steps do. -/
inductive Move (w : World) : Action → World → Prop
  | tick (elapsed : Time) : Move w (.tick elapsed) { w with now := w.now + elapsed }
  | create (lead : LeadId) (ids : List DeliveryId) (spam : Bool)
      (transport : Option Transport) (policy : Option Policy) (rows : List Delivery)
      (hrows : rows = newDeliveries w.now lead spam transport policy)
      (hfresh : w.db.freshLead lead ids = true) (hlen : ids.length = rows.length) :
      Move w (.create lead ids spam transport policy)
        { w with db := w.db.createLead lead (ids.zip rows) }
  | read (sid : SessionId) (lead : LeadId) (row : Lead) (hsession : w.sessions sid = none)
      (hrow : w.db.leads.get lead = some row) :
      Move w (.resendRead sid lead)
        { w with sessions := Function.update w.sessions sid (some (.reading lead row)) }
  | opens (a : Action) (sid : SessionId) (tx : Tx) (ha : a.begins = true)
      (htx : Opens w sid tx) (hfree : w.deliveryLocks tx.id = none) :
      Move w a { w with
        sessions := Function.update w.sessions sid (some (.writing tx .locked))
        deliveryLocks := Function.update w.deliveryLocks tx.id (some sid) }
  | advance (sid : SessionId) (tx : Tx) (stage stage' : Stage) (locks : LeadId → Option SessionId)
      (hsession : w.sessions sid = some (.writing tx stage))
      (hstage : tx.advance w.db stage = some stage')
      (hlocks : tx.lockLead sid w.leadLocks stage = some locks) :
      Move w (.advance sid) { w with
        sessions := Function.update w.sessions sid (some (.writing tx stage'))
        leadLocks := locks }
  | commit (sid : SessionId) (tx : Tx) (lead : Lead) (computed : Aggregate)
      (stored : Option Aggregate)
      (hsession : w.sessions sid = some (.writing tx (.ready lead computed stored))) :
      Move w (.commit sid)
        { w.leave sid (tx.next computed) with db := tx.flush lead computed stored w.db }
  | die (sid : SessionId) : Move w (.die sid) (w.leave sid none)

/-- A transaction that begins has its row locked for the session. -/
theorem World.begin_some {w w' : World} {sid : SessionId} {id : DeliveryId} {purpose : Purpose}
    {loaded : Delivery} {held : Option Lead} (h : w.begin sid id purpose loaded held = some w') :
    ∃ tx : Tx, tx.id = id ∧ tx.purpose = purpose ∧ tx.loaded = loaded ∧ tx.held = held ∧
      w.deliveryLocks id = none ∧
      w' = { w with
        sessions := Function.update w.sessions sid (some (.writing tx .locked))
        deliveryLocks := Function.update w.deliveryLocks tx.id (some sid) } := by
  unfold World.begin at h
  split at h
  · next hfree =>
    split at h
    · next hadm =>
      exact ⟨⟨id, purpose, w.now, loaded, held, hadm⟩, rfl, rfl, rfl, rfl, hfree,
        (Option.some.inj h).symm⟩
    · cases h
  · cases h

theorem step_move {w w' : World} {a : Action} (h : step w a = some w') : Move w a w' := by
  cases a with
  | tick elapsed =>
    cases h
    exact .tick elapsed
  | create lead ids spam transport policy =>
    simp only [step, World.create] at h
    split at h
    · next hc =>
      cases h
      exact .create lead ids spam transport policy _ rfl hc.1 hc.2
    · cases h
  | claim sid id trigger =>
    simp only [step] at h
    split at h
    · next row hsession hrow =>
      obtain ⟨tx, rfl, hp, rfl, hheld, hfree, rfl⟩ := World.begin_some h
      exact .opens _ sid tx rfl (.claim trigger hp hsession hrow hheld) hfree
    · cases h
  | finish sid result =>
    simp only [step] at h
    split at h
    · next id sequence copy lead hsession =>
      obtain ⟨row, hrow, h⟩ := Option.bind_eq_some_iff.mp h
      obtain ⟨stored, hstored, rfl⟩ := Option.map_eq_some_iff.mp hrow
      obtain ⟨tx, rfl, hp, hl, hheld, hfree, rfl⟩ := World.begin_some h
      rw [Option.getD_some] at hl
      subst hl
      exact .opens _ sid tx rfl
        (.finish sequence result lead stored hp hsession hstored hheld) hfree
    · cases h
  | recover sid id =>
    simp only [step] at h
    split at h
    · next row hsession hrow =>
      obtain ⟨tx, rfl, hp, rfl, hheld, hfree, rfl⟩ := World.begin_some h
      exact .opens _ sid tx rfl (.recover hp hsession hrow hheld) hfree
    · cases h
  | resendRead sid lead =>
    simp only [step] at h
    split at h
    · next row hsession hrow =>
      cases h
      exact .read sid lead row hsession hrow
    · cases h
  | resend sid id transport =>
    simp only [step] at h
    split at h
    · next lead copy row hsession hrow =>
      split at h
      · next hlead =>
        obtain ⟨tx, rfl, hp, rfl, hheld, hfree, rfl⟩ := World.begin_some h
        subst hlead
        exact .opens _ sid tx rfl (.resend transport copy hp hsession hrow hheld)
          hfree
      · cases h
    · cases h
  | advance sid =>
    simp only [step, World.advance] at h
    split at h
    · next tx stage hsession =>
      obtain ⟨stage', hstage, h⟩ := Option.bind_eq_some_iff.mp h
      obtain ⟨locks, hlocks, rfl⟩ := Option.map_eq_some_iff.mp h
      exact .advance sid tx stage stage' locks hsession hstage hlocks
    · cases h
  | commit sid =>
    simp only [step, World.commit] at h
    split at h
    · next tx lead computed stored hsession =>
      cases h
      exact .commit sid tx lead computed stored hsession
    · cases h
  | die sid =>
    simp only [step] at h
    obtain ⟨session, _, rfl⟩ := Option.map_eq_some_iff.mp h
    exact .die sid

end MegaPanel.LeadDelivery
