import MegaPanel.AlertDelivery.Model
import MegaPanel.Lib.DateTime
import MegaPanel.Lib.Uuid

set_option autoImplicit false

/-! # Operator alerts

`create_operator_alert` stores a notification for the panel and, for each channel that can carry
it, a delivery row. Alerts go out by mail over the transport the tenant has configured, and to
Telegram. What the settings and the tenant's rows say is an input here (`Channels`), and so are
the identifier of the notification and the time.
-/

namespace MegaPanel.AlertDelivery

open MegaPanel.Lib

abbrev NotificationId := Uuid

/-! ## Rows -/

/-- `Notification` -/
structure Notification where
  id : NotificationId
  tenantId : TenantId
  userId : Option UserId
  priority : String
  title : String
  body : String
  groupKey : Option String
  category : String
  signalCode : Option String
  subjectKind : Option String
  subjectKey : Option String
  read : Bool
  createdAt : Option DateTime
  deriving DecidableEq

/-- `AlertDelivery`: what it sends, and over which channel. -/
structure AlertRow extends Delivery where
  tenantId : TenantId
  notificationId : NotificationId
  channel : String
  transportRevision : Option Nat
  idempotencyKey : String
  deriving DecidableEq

/-- `OperatorAlertTransport` -/
structure OperatorAlertTransport where
  transport : String
  revision : Nat
  senderEmail : Option String
  smtpPort : Option Nat
  smtpTlsMode : Option String
  smtpUsernameEnc : Option String
  smtpPasswordEnc : Option String
  apiAuthorizationEnc : Option String
  deriving DecidableEq

/-! ## Transports -/

/-- The truth value of a string or `None`. -/
def truthy (value : Option String) : Bool := value.any (fun text => decide (text ≠ ""))

theorem truthy_iff {value : Option String} :
    truthy value = true ↔ ∃ text, value = some text ∧ text ≠ "" := by
  cases value with
  | none | some text => simp [truthy]

/-- `TRANSPORTS` -/
def transports : List String := ["none", "smtp_bz_smtp", "smtp_bz_api"]

/-- `SMTP_BZ_SMTP_PORTS.get(mode, ())` -/
def smtpBzSmtpPorts (mode : String) : List Nat :=
  if mode = "starttls" then [587, 9587]
  else if mode = "implicit_tls" then [465, 9465]
  else []

/-- `_transport_ready` of a stored transport. -/
def OperatorAlertTransport.isReady (t : OperatorAlertTransport) : Bool :=
  if t.transport ∉ transports then false
  else if t.transport = "smtp_bz_smtp" then
    truthy t.senderEmail &&
      t.smtpPort.any (fun port => decide (port ∈ smtpBzSmtpPorts (t.smtpTlsMode.getD ""))) &&
      truthy t.smtpUsernameEnc && truthy t.smtpPasswordEnc
  else if t.transport = "smtp_bz_api" then
    truthy t.senderEmail && truthy t.apiAuthorizationEnc
  else false

/-! ## Creating an alert -/

/-- What the settings say, the tenant's recipient as `_operator_email` returns it, and the
tenant's transport. -/
structure Channels where
  operatorAlertsEnabled : Bool
  telegramConfigured : Bool
  recipient : Option String
  transport : Option OperatorAlertTransport

/-- The arguments of `create_operator_alert`. -/
structure Alert where
  tenantId : TenantId
  category : String
  signalCode : String
  title : String
  body : String
  subjectKind : Option String
  subjectKey : Option String
  userId : Option UserId

/-- `ALERT_CATEGORIES` -/
def alertCategories : List String := ["security", "site", "system"]

/-- `_bounded`, and the slice of the group key. -/
def bounded (value : String) (maximum : Nat) : String := String.ofList (value.toList.take maximum)

/-- `value or default` -/
def orElse (value : Option String) (default : String) : String :=
  if truthy value then value.getD default else default

/-- The notification of an alert. -/
def Alert.notification (alert : Alert) (id : NotificationId) : Notification where
  id := id
  tenantId := alert.tenantId
  userId := alert.userId
  priority := if alert.category = "security" then "high" else "normal"
  title := bounded alert.title 255
  body := bounded alert.body 1000
  groupKey := some (bounded (alert.signalCode ++ ":" ++ orElse alert.subjectKind "system" ++ ":" ++
    orElse alert.subjectKey "") 128)
  category := alert.category
  signalCode := some alert.signalCode
  subjectKind := some (bounded (orElse alert.subjectKind "system") 32)
  subjectKey := some (bounded (orElse alert.subjectKey "") 64)
  read := false
  createdAt := none

/-- The delivery of a new notification over one channel. -/
def queuedRow (n : Notification) (now : Time) (channel : String) (revision : Option Nat) :
    AlertRow where
  toDelivery := newDelivery now
  tenantId := n.tenantId
  notificationId := n.id
  channel := channel
  transportRevision := revision
  idempotencyKey := n.id.str ++ ":" ++ channel

/-- The deliveries of a new notification: by mail when the tenant has a recipient and a
transport that is ready, and to Telegram. -/
def queuedRows (channels : Channels) (n : Notification) (now : Time) : List AlertRow :=
  let mail :=
    match channels.transport with
    | some t =>
      if channels.operatorAlertsEnabled && truthy channels.recipient && t.isReady then
        [queuedRow n now t.transport (some t.revision)]
      else []
    | none => []
  let telegram :=
    if channels.operatorAlertsEnabled && channels.telegramConfigured then
      [queuedRow n now "telegram" none]
    else []
  mail ++ telegram

/-- `create_operator_alert`; an error is the text of its `ValueError`. -/
def createOperatorAlert (channels : Channels) (now : Time) (id : NotificationId) (alert : Alert) :
    Except String (Notification × List AlertRow) :=
  if alert.category ∉ alertCategories then .error "Unsupported alert category"
  else if alert.signalCode = "" ∨ 64 < alert.signalCode.length then .error "Invalid alert signal"
  else
    let n := alert.notification id
    .ok (n, queuedRows channels n now)

theorem createOperatorAlert_eq_ok {alert : Alert} (hcategory : alert.category ∈ alertCategories)
    (hne : alert.signalCode ≠ "") (hlen : alert.signalCode.length ≤ 64) (channels : Channels)
    (now : Time) (id : NotificationId) :
    createOperatorAlert channels now id alert =
      .ok (alert.notification id, queuedRows channels (alert.notification id) now) := by
  rw [createOperatorAlert, if_neg (not_not.mpr hcategory),
    if_neg (not_or.mpr ⟨hne, Nat.not_lt.mpr hlen⟩)]

end MegaPanel.AlertDelivery
