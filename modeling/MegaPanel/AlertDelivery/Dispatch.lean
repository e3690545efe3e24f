import MegaPanel.AlertDelivery.Notifications

set_option autoImplicit false

/-! # Sending an alert

`process_alert_delivery` and the sweep that calls it for every delivery that is due, in one
session: the two transactions of a delivery are those of `AlertDelivery.Model`, with `_dispatch`
between them. Decryption, the settings and the texts' case mapping are given by `Services`; what
the SMTP server, the HTTP endpoint and other sessions' locks do while one delivery is worked on
is its `Turn`.

Of the exceptions of the two clients those are modelled that the dispatchers name. `_send_smtp`
itself raises `ValueError`: `EmailMessage` does for a header of more than one line, and
`_smtp_login` for credentials that do not decrypt.
-/

namespace MegaPanel.AlertDelivery

open MegaPanel.Lib

/-! ## The clients -/

/-- The exceptions of `smtplib`, `ssl` and the socket that `_dispatch_smtp` names. -/
inductive SmtpError
  | authentication
  | senderRefused
  | recipientsRefused
  | ssl
  | notSupported
  | timeout
  | os
  | smtp
  deriving DecidableEq

/-- A connection to the mail server: opening it, logging in and sending over it, and the `QUIT`
with which it is left; `none` is success. -/
structure SmtpSession where
  connect : Option SmtpError
  exchange : Option SmtpError
  quit : Option SmtpError

/-- What `client.post` gives. -/
inductive HttpResult
  /-- `httpx.TimeoutException` -/
  | timeout
  /-- Another `httpx.HTTPError` -/
  | httpError
  | response (statusCode : Nat)

/-- The exceptions a dispatcher does not name. -/
inductive Unnamed
  | valueError
  | attributeError
  /-- A constraint of the database -/
  | integrityError
  /-- `scalar_one` without a row -/
  | noResultFound
  deriving DecidableEq

/-- What `_send_smtp` raises. -/
inductive SendError
  | named (e : SmtpError)
  | unnamed (e : Unnamed)

/-- What the panel works with. -/
structure Services where
  telegramConfigured : Bool
  /-- `get_encryptor().decrypt`; `none` where it raises. -/
  decrypt : String → Option String
  /-- `str.upper` -/
  upper : String → String
  transport : TenantId → Option OperatorAlertTransport
  /-- `recipient_enc` -/
  recipient : TenantId → Option String

/-- `_decrypt` -/
def Services.decryptOrNone (services : Services) (value : Option String) : Option String :=
  if truthy value then value.bind services.decrypt else none

/-- `_operator_email` -/
def Services.operatorEmail (services : Services) (tenant : TenantId) : Option String :=
  services.decryptOrNone (services.recipient tenant)

/-! ## The message -/

/-- The line boundaries of `str.splitlines`. -/
def isLineBoundary (c : Char) : Bool :=
  let n := c.toNat
  (10 ≤ n && n ≤ 13) || (28 ≤ n && n ≤ 30) || n == 0x85 || n == 0x2028 || n == 0x2029

/-- `len(text.splitlines()) <= 1`: nothing follows a line boundary. -/
def isOneLine : List Char → Bool
  | [] => true
  | '\r' :: '\n' :: rest => rest.isEmpty
  | c :: rest => if isLineBoundary c then rest.isEmpty else isOneLine rest

/-- The names of the categories. -/
def categoryName (category : String) : String :=
  if category = "security" then "БЕЗОПАСНОСТЬ"
  else if category = "site" then "САЙТ"
  else "СИСТЕМА"

/-- `_email_alert_kind`, without the color; `None` has no `endswith`. -/
def emailAlertKind (n : Notification) : Except Unnamed (String × String) :=
  let category := categoryName n.category
  match n.signalCode with
  | none => .error .attributeError
  | some code =>
    if code = "operator-alert-test" then .ok ("🧪 ПРОВЕРКА", category)
    else if "-recovered".toList.isSuffixOf code.toList then .ok ("✅ ВОССТАНОВЛЕНО", category)
    else if n.category = "security" then .ok ("🚨 КРИТИЧНО", category)
    else if n.category = "site" then .ok ("⚠️ ВАЖНО", category)
    else .ok ("🔔 ВАЖНО", category)

/-- `_alert_email_subject` -/
def alertEmailSubject (services : Services) (n : Notification) : Except Unnamed String := do
  let (kind, category) ← emailAlertKind n
  .ok (bounded (kind ++ " | " ++ category ++ " | " ++ services.upper n.title ++ " | MEGA PANEL") 255)

/-! ## Mail -/

/-- `message[name] = value` -/
def setHeader (value : String) : Except SendError Unit :=
  if isOneLine value.toList then .ok () else .error (.unnamed .valueError)

/-- An exception of the client, if there is one. -/
def raiseSmtp : Option SmtpError → Except SendError Unit
  | some e => .error (.named e)
  | none => .ok ()

/-- A `with` block is left: an exception of the exit takes the place of the one of the block. -/
def leave (quit : Option SmtpError) (body : Except SendError Unit) : Except SendError Unit :=
  match quit with
  | some e => .error (.named e)
  | none => body

/-- `SMTP_BZ_SMTP_PORTS` has the mode. -/
def knownMode (mode : Option String) : Bool :=
  decide (mode = some "starttls") || decide (mode = some "implicit_tls")

/-- `_smtp_client` -/
def smtpClient (t : OperatorAlertTransport) (session : SmtpSession) : Except SendError Unit :=
  if t.smtpPort = none ∨ knownMode t.smtpTlsMode = false then .error (.unnamed .valueError)
  else raiseSmtp session.connect

/-- `_smtp_login`, and the message sent after it. -/
def loginAndSend (services : Services) (t : OperatorAlertTransport) (session : SmtpSession) :
    Except SendError Unit :=
  if truthy (services.decryptOrNone t.smtpUsernameEnc) = false ∨
      truthy (services.decryptOrNone t.smtpPasswordEnc) = false then
    .error (.unnamed .valueError)
  else raiseSmtp session.exchange

/-- `_send_smtp` -/
def sendSmtp (services : Services) (t : OperatorAlertTransport) (recipient : String)
    (n : Notification) (session : SmtpSession) : Except SendError Unit :=
  if truthy t.senderEmail = false then .error (.unnamed .valueError)
  else
    match alertEmailSubject services n with
    | .error e => .error (.unnamed e)
    | .ok subject => do
      setHeader subject
      setHeader (t.senderEmail.getD "")
      setHeader recipient
      smtpClient t session
      leave session.quit (loginAndSend services t session)

/-- What `_dispatch_smtp` makes of the exceptions it names. -/
def SmtpError.answer : SmtpError → Answer
  | .authentication => ⟨false, some "authentication_failed", false⟩
  | .senderRefused => ⟨false, some "sender_rejected", false⟩
  | .recipientsRefused => ⟨false, some "recipient_rejected", false⟩
  | .ssl => ⟨false, some "tls_failed", false⟩
  | .notSupported => ⟨false, some "tls_failed", false⟩
  | .timeout => ⟨false, some "timeout", true⟩
  | .os => ⟨false, some "outcome_unknown", false⟩
  | .smtp => ⟨false, some "outcome_unknown", false⟩

/-- The `except` clauses of `_dispatch_smtp`. -/
def smtpAnswer : Except SendError Unit → Except Unnamed Answer
  | .ok () => .ok ⟨true, none, false⟩
  | .error (.named e) => .ok e.answer
  | .error (.unnamed e) => .error e

def invalidConfig : Answer := ⟨false, some "invalid_config", false⟩

/-- `_dispatch_smtp` -/
def dispatchSmtp (services : Services) (n : Notification) (t : OperatorAlertTransport)
    (session : SmtpSession) : Except Unnamed Answer :=
  let recipient := services.operatorEmail n.tenantId
  if truthy recipient = false ∨ t.isReady = false then .ok invalidConfig
  else smtpAnswer (sendSmtp services t (recipient.getD "") n session)

/-! ## HTTP -/

/-- `_dispatch_smtp_bz_api` -/
def dispatchSmtpBzApi (services : Services) (n : Notification) (t : OperatorAlertTransport)
    (result : HttpResult) : Except Unnamed Answer :=
  if truthy (services.operatorEmail n.tenantId) = false ∨ truthy t.senderEmail = false ∨
      truthy (services.decryptOrNone t.apiAuthorizationEnc) = false then
    .ok invalidConfig
  else do
    let _ ← alertEmailSubject services n
    match result with
    | .timeout => .ok ⟨false, some "outcome_unknown", false⟩
    | .httpError => .ok ⟨false, some "unavailable", true⟩
    | .response code =>
      if 200 ≤ code ∧ code < 300 then .ok ⟨true, none, false⟩
      else if code = 401 ∨ code = 403 then .ok ⟨false, some "authentication_failed", false⟩
      else if code = 400 ∨ code = 404 ∨ code = 422 then .ok ⟨false, some "api_rejected", false⟩
      else if code = 408 ∨ code = 429 then .ok ⟨false, some "unavailable", true⟩
      else .ok ⟨false, some "outcome_unknown", false⟩

/-- `_dispatch_telegram` -/
def dispatchTelegram (services : Services) (result : HttpResult) : Answer :=
  if !services.telegramConfigured then invalidConfig
  else
    match result with
    | .timeout => ⟨false, some "timeout", true⟩
    | .httpError => ⟨false, some "unavailable", true⟩
    | .response code =>
      if 200 ≤ code ∧ code < 300 then ⟨true, none, false⟩
      else if code = 401 ∨ code = 403 ∨ code = 404 then invalidConfig
      else ⟨false, some "unavailable", decide (code = 408 ∨ code = 429 ∨ 500 ≤ code)⟩

/-- What happens outside the session while one delivery is worked on. -/
structure Turn where
  /-- Another session holds the row. -/
  locked : Bool
  /-- Time between the start of the sweep and the claim, and from there to the outcome. -/
  claimedAfter : Time
  finishedAfter : Time
  smtp : SmtpSession
  http : HttpResult

/-- `_dispatch` -/
def dispatch (services : Services) (row : AlertRow) (n : Notification) (turn : Turn) :
    Except Unnamed Answer :=
  if row.channel = "telegram" then .ok (dispatchTelegram services turn.http)
  else if row.channel ≠ "smtp_bz_smtp" ∧ row.channel ≠ "smtp_bz_api" then
    .ok ⟨false, some "legacy_transport_retired", false⟩
  else
    match services.transport row.tenantId with
    | none => .ok ⟨false, some "transport_changed", false⟩
    | some t =>
      if t.transport ≠ row.channel ∨ some t.revision ≠ row.transportRevision then
        .ok ⟨false, some "transport_changed", false⟩
      else if row.channel = "smtp_bz_smtp" then dispatchSmtp services n t turn.smtp
      else dispatchSmtpBzApi services n t turn.http

/-! ## One delivery -/

/-- The tables. -/
structure Store where
  deliveries : Table DeliveryId AlertRow
  attempts : Table (DeliveryId × Nat) Attempt
  notifications : NotificationId → Option Notification

def Store.setDelivery (s : Store) (id : DeliveryId) (row : AlertRow) : Store :=
  { s with deliveries := s.deliveries.set id row }

def Store.setAttempt (s : Store) (id : DeliveryId) (sequence : Nat) (a : Attempt) : Store :=
  { s with attempts := s.attempts.set (id, sequence) a }

/-- The claim of a delivery. -/
def AlertRow.claim (row : AlertRow) (now : Time) : AlertRow :=
  { row with toDelivery := row.toDelivery.claim now }

/-- The outcome of a delivery. -/
def AlertRow.finish (row : AlertRow) (now : Time) (answer : Answer) : AlertRow :=
  { row with toDelivery := row.toDelivery.finish now answer }

/-- The first transaction: the claim and a new attempt. -/
def Store.claim (s : Store) (id : DeliveryId) (row : AlertRow) (now : Time) : Store :=
  (s.setDelivery id (row.claim now)).setAttempt id (row.claim now).attemptCount Attempt.begin

/-- The second transaction: the outcome, on the delivery and on its attempt. -/
def Store.settle (s : Store) (id : DeliveryId) (row : AlertRow) (a : Attempt) (now : Time)
    (answer : Answer) : Store :=
  (s.setDelivery id (row.finish now answer)).setAttempt id row.attemptCount
    (a.finish row.toDelivery now answer)

/-- What `process_alert_delivery` returns. -/
inductive Verdict
  | skipped
  | locked
  | deferred
  | status (status : Status)
  deriving DecidableEq

/-- The second transaction reads the attempt by the count of the delivery. -/
def Store.finish (s : Store) (id : DeliveryId) (row : AlertRow) (now : Time) (answer : Answer) :
    Store × Except Unnamed Verdict :=
  match s.attempts.get (id, row.attemptCount) with
  | none => (s, .error .noResultFound)
  | some a => (s.settle id row a now answer, .ok (.status (row.toDelivery.outcome answer)))

/-- `process_alert_delivery` in a sweep that began at `start`. What the first transaction has
committed stays when the dispatch raises. -/
def processAlertDelivery (services : Services) (start : Time) (s : Store) (id : DeliveryId)
    (turn : Turn) : Store × Except Unnamed Verdict :=
  let now := start + turn.claimedAfter
  match s.deliveries.get id with
  | none => (s, .ok .skipped)
  | some row =>
    if turn.locked then (s, .ok .skipped)
    else if row.status.isTerminal then (s, .ok (.status row.status))
    else if row.leaseExpiresAt.any (now < ·) then (s, .ok .locked)
    else if row.nextAttemptAt.any (now < ·) then (s, .ok .deferred)
    else
      match s.notifications row.notificationId with
      | none =>
        (s.setDelivery id { row with toDelivery := row.toDelivery.missingNotification },
          .ok (.status .deadLetter))
      | some n =>
        if (s.attempts.get (id, (row.claim now).attemptCount)).isSome then
          (s, .error .integrityError)
        else
          match dispatch services (row.claim now) n turn with
          | .error e => (s.claim id row now, .error e)
          | .ok answer =>
            (s.claim id row now).finish id (row.claim now) (now + turn.finishedAfter) answer

/-! ## The sweep -/

/-- `recover_expired_alert_leases`; rows that another session holds are passed over. -/
def recoverExpiredAlertLeases (s : Store) (now : Time) (held : DeliveryId → Bool) : Store :=
  { s with
    deliveries := s.deliveries.mapRows (fun id row =>
      if row.toDelivery.isExpired now && !held id then
        { row with toDelivery := row.toDelivery.recover now }
      else row) }

/-- The selection of `process_due_alert_deliveries`. -/
def isDue (row : AlertRow) (now : Time) : Bool :=
  (decide (row.status = .queued) || decide (row.status = .retrying)) &&
    row.nextAttemptAt.any (· ≤ now)

/-- `ORDER BY`: any order of the ids. -/
structure Ordering where
  sort : List DeliveryId → List DeliveryId
  perm : ∀ ids, (sort ids).Perm ids

/-- The ids the sweep selects. -/
def selectDue (s : Store) (now : Time) (order : Ordering) (limit : Nat) : List DeliveryId :=
  (order.sort (s.deliveries.keys.filter (fun id =>
    (s.deliveries.get id).any (fun row => isDue row now)))).take limit

/-- The loop of the sweep; the first exception ends it. -/
def processAll (services : Services) (start : Time) (turns : DeliveryId → Turn) :
    Store → List DeliveryId → Nat → Store × Except Unnamed Nat
  | s, [], completed => (s, .ok completed)
  | s, id :: ids, completed =>
    match processAlertDelivery services start s id (turns id) with
    | (s', .error e) => (s', .error e)
    | (s', .ok verdict) =>
      let done := verdict ∈ [.status .delivered, .status .retrying, .status .deadLetter]
      processAll services start turns s' ids (if done then completed + 1 else completed)

/-- What happens around a sweep. -/
structure Sweep where
  start : Time
  held : DeliveryId → Bool
  order : Ordering
  limit : Nat
  turns : DeliveryId → Turn

/-- The ids that the sweep works on. -/
def Sweep.selected (sweep : Sweep) (s : Store) : List DeliveryId :=
  selectDue (recoverExpiredAlertLeases s sweep.start sweep.held) sweep.start sweep.order sweep.limit

/-- `process_due_alert_deliveries` -/
def processDueAlertDeliveries (services : Services) (sweep : Sweep) (s : Store) :
    Store × Except Unnamed Nat :=
  processAll services sweep.start sweep.turns
    (recoverExpiredAlertLeases s sweep.start sweep.held) (sweep.selected s) 0

end MegaPanel.AlertDelivery
