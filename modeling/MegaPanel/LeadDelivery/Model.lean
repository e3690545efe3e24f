import MegaPanel.Basic
import MegaPanel.Lib.Table
import MegaPanel.Lib.UnitOfWork

set_option autoImplicit false

/-! # Deliveries of leads

A lead is sent to one or more destinations. Each destination has a delivery row, each dispatch
of a delivery an attempt row, and each lead one aggregate row, which
`recompute_lead_delivery_aggregate` computes from the lead's deliveries. This module holds the
rows and what `webhook_delivery.py` computes from a row and the current time: how the rows of a
new lead are filled, which deliveries may be claimed, recovered or resent, and what each of
these operations writes. The transactions around them are in `LeadDelivery/System.lean`.

Encrypted contacts, payloads and the secrets of a target do not matter to delivery states and
are left out; what a dispatch returns is an input.
-/

namespace MegaPanel.LeadDelivery

open MegaPanel.Lib

abbrev LeadId := Nat
abbrev DeliveryId := Nat

/-! ## Rows -/

inductive DeliveryStatus
  | queued
  | processing
  | retrying
  | delivered
  | deadLetter
  deriving DecidableEq

/-- The statuses in which `process_delivery` refuses to work on a delivery. -/
def DeliveryStatus.isTerminal : DeliveryStatus → Bool
  | .delivered | .deadLetter => true
  | _ => false

/-- `pending_statuses` -/
def DeliveryStatus.isPending : DeliveryStatus → Bool
  | .queued | .retrying | .processing => true
  | _ => false

inductive Channel
  | webhook
  | email
  deriving DecidableEq

inductive RoutingSource
  | globalDefault
  | projectPolicy
  deriving DecidableEq

/-- `WebhookDelivery` -/
structure Delivery where
  leadId : LeadId
  required : Bool
  channel : Channel
  routingSource : RoutingSource
  targetRecipient : Option String
  transportRevision : Option Nat
  status : DeliveryStatus
  attemptCount : Nat
  maxAttempts : Nat
  nextAttemptAt : Option Time
  lockedUntil : Option Time
  lastError : Option String
  lastHttpStatus : Option Nat
  deliveredAt : Option Time
  deadLetteredAt : Option Time
  createdAt : Time
  deriving DecidableEq

inductive Trigger
  | automatic
  | manual
  deriving DecidableEq

/-- `WebhookDeliveryAttempt`, identified by its delivery and its sequence. -/
structure Attempt where
  trigger : Trigger
  status : DeliveryStatus
  httpStatus : Option Nat
  error : Option String
  finishedAt : Option Time
  deriving DecidableEq

inductive AggregateStatus
  | notConfigured
  | attention
  | delivered
  | pending
  deriving DecidableEq

/-- `LeadDeliveryAggregate` -/
structure Aggregate where
  status : AggregateStatus
  expectedCount : Nat
  deliveredCount : Nat
  pendingCount : Nat
  attentionCount : Nat
  oldestPendingAt : Option Time
  deriving DecidableEq

/-- `Lead`, reduced to the column that mirrors its aggregate. -/
structure Lead where
  crmStatus : Option AggregateStatus
  deriving DecidableEq

structure Db where
  leads : Table LeadId Lead
  deliveries : Table DeliveryId Delivery
  attempts : Table (DeliveryId × Nat) Attempt
  aggregates : Table LeadId Aggregate

/-! ## The aggregate of a lead -/

/-- The deliveries of a lead. -/
def Db.deliveriesOf (db : Db) (lead : LeadId) : List Delivery :=
  (db.deliveries.rows.map (·.2)).filter (·.leadId = lead)

/-- The status chosen by `recompute_lead_delivery_aggregate`. -/
def aggregateStatus (deliveries : List Delivery) (attention expected delivered : Nat) :
    AggregateStatus :=
  if deliveries = [] then .notConfigured
  else if attention ≠ 0 then .attention
  else if expected ≠ 0 ∧ delivered = expected then .delivered
  else .pending

/-- What `recompute_lead_delivery_aggregate` computes from the deliveries it has read. -/
def recomputeAggregate (deliveries : List Delivery) : Aggregate :=
  let required := deliveries.filter (·.required)
  let pending := required.filter (·.status.isPending)
  let delivered := required.countP (·.status = .delivered)
  let attention := required.countP (·.status = .deadLetter)
  { status := aggregateStatus deliveries attention required.length delivered
    expectedCount := required.length
    deliveredCount := delivered
    pendingCount := pending.length
    attentionCount := attention
    oldestPendingAt := (pending.map (·.createdAt)).min? }

/-! ## Creating the deliveries of a lead -/

/-- `CentralLeadSmtpTransport`, when it is ready and its recipient can be decrypted. -/
structure Transport where
  revision : Nat
  recipient : String
  deriving DecidableEq

/-- `LeadRoutingDestination`; `hasTarget` says that a webhook has a URL and a secret. -/
structure Destination where
  channel : Channel
  required : Bool
  hasTarget : Bool
  targetRecipient : Option String
  deriving DecidableEq

inductive DeliveryMode
  | appendGlobal
  | replaceGlobal
  deriving DecidableEq

/-- An active `LeadRoutingPolicy` with its destinations. -/
structure Policy where
  deliveryMode : DeliveryMode
  destinations : List Destination
  deriving DecidableEq

/-- `MAX_ATTEMPTS` -/
def maxAttempts : Nat := 5

/-- `LEASE_SECONDS` -/
def leaseSeconds : Nat := 300

/-- `BACKOFF_SECONDS` -/
def backoffSeconds : List Nat := [60, 300, 900, 3600, 3600]

/-- `bind_delivery_transport` -/
def Delivery.bindTransport (d : Delivery) (transport : Transport) (rebindRecipient : Bool) :
    Delivery :=
  { d with
    targetRecipient := if rebindRecipient then some transport.recipient else d.targetRecipient
    transportRevision := some transport.revision }

/-- The status columns of a new delivery: queued when its destination is configured, else dead
with the given error. -/
def Delivery.configured (d : Delivery) (now : Time) (isConfigured : Bool) (error : String) :
    Delivery :=
  { d with
    status := if isConfigured then .queued else .deadLetter
    nextAttemptAt := if isConfigured then some now else none
    lastError := if isConfigured then none else some error
    deadLetteredAt := if isConfigured then none else some now }

/-- The columns every new delivery starts from. -/
def newDelivery (now : Time) (lead : LeadId) (channel : Channel) (source : RoutingSource)
    (required : Bool) (recipient : Option String) : Delivery where
  leadId := lead
  required := required
  channel := channel
  routingSource := source
  targetRecipient := recipient
  transportRevision := none
  status := .queued
  attemptCount := 0
  maxAttempts := maxAttempts
  nextAttemptAt := none
  lockedUntil := none
  lastError := none
  lastHttpStatus := none
  deliveredAt := none
  deadLetteredAt := none
  createdAt := now

/-- `create_global_smtp_delivery` -/
def createGlobalSmtpDelivery (now : Time) (lead : LeadId) (transport : Option Transport) :
    Delivery :=
  let row := newDelivery now lead .email .globalDefault true none
  (match transport with
    | some t => row.bindTransport t true
    | none => row).configured now transport.isSome "Central SMTP delivery is not configured"

/-- `create_policy_delivery` -/
def createPolicyDelivery (now : Time) (lead : LeadId) (transport : Option Transport)
    (destination : Destination) : Delivery :=
  match destination.channel with
  | .webhook =>
    (newDelivery now lead .webhook .projectPolicy destination.required none).configured now
      destination.hasTarget "Webhook target is not configured"
  | .email =>
    let row := newDelivery now lead .email .projectPolicy destination.required
      destination.targetRecipient
    match destination.targetRecipient, transport with
    | some _, some t =>
      (row.bindTransport t false).configured now true
        "Central SMTP delivery is not configured"
    | _, _ => row.configured now false "Central SMTP delivery is not configured"

/-- `create_lead_deliveries` -/
def createLeadDeliveries (now : Time) (lead : LeadId) (transport : Option Transport) :
    Option Policy → List Delivery
  | none => [createGlobalSmtpDelivery now lead transport]
  | some policy =>
    (if policy.deliveryMode = .appendGlobal then
      [createGlobalSmtpDelivery now lead transport] else []) ++
    policy.destinations.map (createPolicyDelivery now lead transport)

/-! ## The result of a dispatch -/

/-- What `_dispatch_delivery` returns; `none` is a key the result does not have. -/
structure Result where
  ok : Bool
  status : Option Nat
  error : Option String
  retryable : Option Bool
  deriving DecidableEq

/-- `_error` -/
def Result.errorText (r : Result) : Option String :=
  (r.error.filter (· ≠ "")).map (fun e => String.ofList (e.toList.take 512))

/-- The errors `_retryable` lists as permanent. -/
def permanentErrors : List String :=
  ["Webhook secret cannot be decrypted", "SMTP recipient cannot be decrypted",
    "SMTP transport is not configured", "Unsupported delivery channel"]

/-- `_retryable` -/
def Result.isRetryable (r : Result) : Bool :=
  match r.retryable with
  | some flag => flag
  | none =>
    if r.error.any (permanentErrors.contains ·) then false
    else match r.status with
      | none => true
      | some status => status == 408 || status == 429 || decide (500 ≤ status)

/-- The error a finished attempt records. -/
def Result.lastError (r : Result) : Option String :=
  r.errorText.or (match r.status with
    | some status => if 300 ≤ status then some ("HTTP " ++ toString status) else none
    | none => none)

/-- `_next_attempt`; the count of a delivery that was dispatched is at least one. -/
def nextAttempt (now : Time) (attemptCount : Nat) : Time :=
  now + seconds (backoffSeconds.getD (min (attemptCount - 1) (backoffSeconds.length - 1)) 0)

/-! ## What the operations write -/

/-- The guards of `process_delivery`. -/
def Delivery.isClaimable (d : Delivery) (now : Time) (trigger : Trigger) : Bool :=
  !d.status.isTerminal && !d.lockedUntil.any (now < ·) &&
    !(decide (trigger = .automatic) && d.nextAttemptAt.any (now < ·))

/-- The selection of `recover_expired_leases`. -/
def Delivery.isExpired (d : Delivery) (now : Time) : Bool :=
  decide (d.status = .processing) && d.lockedUntil.any (· < now)

/-- The guards of `resend_delivery`. -/
def Delivery.isResendable (d : Delivery) (transport : Option Transport) : Bool :=
  decide (d.status = .deadLetter) && (decide (d.channel = .webhook) || transport.isSome)

/-- The first transaction of `process_delivery`. -/
def Delivery.claim (d : Delivery) (now : Time) : Delivery :=
  { d with
    attemptCount := d.attemptCount + 1
    status := .processing
    lockedUntil := some (now + seconds leaseSeconds) }

/-- The status the second transaction of `process_delivery` gives to a delivery and to its
attempt. -/
def Delivery.outcome (d : Delivery) (result : Result) : DeliveryStatus :=
  if result.ok then .delivered
  else if result.isRetryable && decide (d.attemptCount < d.maxAttempts) then .retrying
  else .deadLetter

/-- The second transaction of `process_delivery`. -/
def Delivery.finish (d : Delivery) (now : Time) (result : Result) : Delivery :=
  let d' := { d with
    lockedUntil := none
    lastHttpStatus := result.status
    lastError := result.lastError
    status := d.outcome result }
  match d.outcome result with
  | .delivered => { d' with deliveredAt := some now, nextAttemptAt := none }
  | .retrying => { d' with nextAttemptAt := some (nextAttempt now d.attemptCount) }
  | _ => { d' with deadLetteredAt := some now, nextAttemptAt := none }

/-- The attempt a claim adds. -/
def Attempt.begin (trigger : Trigger) : Attempt where
  trigger := trigger
  status := .processing
  httpStatus := none
  error := none
  finishedAt := none

/-- What the second transaction of `process_delivery` writes to the attempt. -/
def Attempt.finish (a : Attempt) (d : Delivery) (now : Time) (result : Result) : Attempt :=
  { a with
    status := d.outcome result
    httpStatus := result.status
    error := result.lastError
    finishedAt := some now }

/-- What `recover_expired_leases` writes to each row. -/
def Delivery.recover (d : Delivery) (now : Time) : Delivery :=
  { d with
    status := .retrying
    nextAttemptAt := some now
    lockedUntil := none
    lastError := some "Worker lease expired" }

/-- `resend_delivery` -/
def Delivery.resend (d : Delivery) (now : Time) (transport : Option Transport) : Delivery :=
  let bound := match d.channel, transport with
    | .email, some t => d.bindTransport t (d.routingSource == RoutingSource.globalDefault)
    | _, _ => d
  { bound with
    status := .queued
    attemptCount := 0
    nextAttemptAt := some now
    lockedUntil := none
    lastError := none
    lastHttpStatus := none
    deadLetteredAt := none
    deliveredAt := none }

/-- The sequence of a delivery's latest attempt. -/
def Db.lastSequence (db : Db) (id : DeliveryId) : Nat :=
  ((db.attempts.keys.filter (·.1 = id)).map (·.2)).foldr max 0

/-! ## What a flush writes

A flush writes the columns that differ from the values the session loaded. -/

/-- The stored row after a flush of `current`, loaded as `loaded`. -/
def Delivery.flush (loaded current stored : Delivery) : Delivery where
  leadId := stored.leadId
  required := stored.required
  channel := stored.channel
  routingSource := stored.routingSource
  targetRecipient := writeCol loaded.targetRecipient current.targetRecipient
    stored.targetRecipient
  transportRevision := writeCol loaded.transportRevision current.transportRevision
    stored.transportRevision
  status := writeCol loaded.status current.status stored.status
  attemptCount := writeCol loaded.attemptCount current.attemptCount stored.attemptCount
  maxAttempts := stored.maxAttempts
  nextAttemptAt := writeCol loaded.nextAttemptAt current.nextAttemptAt stored.nextAttemptAt
  lockedUntil := writeCol loaded.lockedUntil current.lockedUntil stored.lockedUntil
  lastError := writeCol loaded.lastError current.lastError stored.lastError
  lastHttpStatus := writeCol loaded.lastHttpStatus current.lastHttpStatus stored.lastHttpStatus
  deliveredAt := writeCol loaded.deliveredAt current.deliveredAt stored.deliveredAt
  deadLetteredAt := writeCol loaded.deadLetteredAt current.deadLetteredAt stored.deadLetteredAt
  createdAt := stored.createdAt

/-- The stored aggregate after a flush of `current`, loaded as `loaded`. -/
def Aggregate.flush (loaded current stored : Aggregate) : Aggregate where
  status := writeCol loaded.status current.status stored.status
  expectedCount := writeCol loaded.expectedCount current.expectedCount stored.expectedCount
  deliveredCount := writeCol loaded.deliveredCount current.deliveredCount stored.deliveredCount
  pendingCount := writeCol loaded.pendingCount current.pendingCount stored.pendingCount
  attentionCount := writeCol loaded.attentionCount current.attentionCount stored.attentionCount
  oldestPendingAt := writeCol loaded.oldestPendingAt current.oldestPendingAt
    stored.oldestPendingAt

end MegaPanel.LeadDelivery
