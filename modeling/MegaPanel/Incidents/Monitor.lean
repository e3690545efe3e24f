import MegaPanel.Incidents.Model

set_option autoImplicit false

/-! # Monitoring of published domains

`probe_published_domain` looks a domain up, opens a connection to it and asks for its start page;
it reports the first failure it meets. `monitor_published_domains` probes the domains of the
published sites in turn and tells each of the five signals it watches whether the probe shows it;
a signal that appears or disappears creates an operator alert. The round is one transaction.

What the network answers is an input (`Network`), and so are the published domains of a round,
the identifiers of new rows and the clock.
-/

namespace MegaPanel.Incidents

open MegaPanel.Lib AlertDelivery

/-! ## The probe -/

inductive DnsStatus
  | ok
  | error
  deriving DecidableEq

inductive SslStatus
  | ok
  | skipped
  | expiring
  | expired
  | invalid
  | unreachable
  deriving DecidableEq

/-- `SiteProbe` -/
structure SiteProbe where
  dnsStatus : DnsStatus
  sslStatus : SslStatus
  httpStatus : Option Nat
  signalCode : Option Signal
  deriving DecidableEq

/-- The exceptions the probe catches: `ssl.SSLError`, and `TimeoutError` or another `OSError`. -/
inductive Failure
  | ssl
  | network
  deriving DecidableEq

/-- What port 443 of the first address answers. `notAfter` is the end of the certificate's
validity (`some none` when it is not a date), `response` the first bytes sent back. -/
inductive Connection
  | failed (failure : Failure)
  | opened (notAfter : Option (Option Time)) (response : Except Failure (List UInt8))

/-- The global addresses the host resolves to, and what is found there. -/
structure Network where
  addresses : List String
  connection : Connection

/-- `response.split(b"\r\n", 1)[0]` -/
def firstLine : List UInt8 → List UInt8
  | [] => []
  | 13 :: 10 :: _ => []
  | b :: bs => b :: firstLine bs

/-- `line.split()` of bytes. -/
def words (line : List UInt8) : List (List UInt8) :=
  (line.splitOnP (fun b => b == 32 || (decide (9 ≤ b) && decide (b ≤ 13)))).filter (· ≠ [])

/-- The status code in the first line of the response. -/
def statusCode (response : List UInt8) : Option Nat :=
  match words (firstLine response) with
  | _ :: word :: _ =>
    if word.all (fun b => decide (48 ≤ b) && decide (b ≤ 57)) then
      some (word.foldl (fun n b => n * 10 + (b.toNat - 48)) 0)
    else none
  | _ => none

/-- The handlers of the probe's exceptions. -/
def Failure.probe : Failure → SiteProbe
  | .ssl => ⟨.ok, .invalid, none, some .siteTlsFailure⟩
  | .network => ⟨.ok, .unreachable, none, some .siteUnreachable⟩

/-- The judgement of the certificate: the status of a certificate that fails the probe, or the
status and the signal the probe goes on with. -/
def certificateStatus (now : Time) :
    Option (Option Time) → Except SslStatus (SslStatus × Option Signal)
  | none => .ok (.ok, none)
  | some none => .error .invalid
  | some (some expiry) =>
    if expiry ≤ now then .error .expired
    else if (expiry - now) / days 1 ≤ 14 then .ok (.expiring, some .siteTlsExpiring)
    else .ok (.ok, none)

/-- The judgement of the response. -/
def responseProbe (tlsStatus : SslStatus) (tlsSignal : Option Signal) (response : List UInt8) :
    SiteProbe :=
  match statusCode response with
  | none => ⟨.ok, tlsStatus, none, some .siteUnreachable⟩
  | some status =>
    if status = 404 ∨ 500 ≤ status then ⟨.ok, tlsStatus, some status, some .siteHttpError⟩
    else if 200 ≤ status ∧ status < 400 then ⟨.ok, tlsStatus, some status, tlsSignal⟩
    else ⟨.ok, tlsStatus, some status, some .siteUnreachable⟩

/-- `probe_published_domain` -/
def probePublishedDomain (now : Time) (net : Network) : SiteProbe :=
  if net.addresses = [] then ⟨.error, .skipped, none, some .siteDnsFailure⟩
  else
    match net.connection with
    | .failed failure => failure.probe
    | .opened notAfter response =>
      match certificateStatus now notAfter, response with
      | .error status, _ => ⟨.ok, status, none, some .siteTlsFailure⟩
      | .ok _, .error failure => failure.probe
      | .ok (tlsStatus, tlsSignal), .ok bytes => responseProbe tlsStatus tlsSignal bytes

/-! ## The round -/

/-- `Domain` -/
structure Domain where
  id : Uuid
  tenantId : TenantId
  siteId : SiteId
  hostname : String
  deriving DecidableEq

/-- The incidents of a domain are keyed by its identifier. -/
def Domain.subject (d : Domain) (signal : Signal) : Subject :=
  ⟨d.tenantId, signal, "domain", d.id.str⟩

/-- `SiteMonitorObservation` -/
structure Observation where
  domain : Domain
  probe : SiteProbe
  observedAt : Time
  deriving DecidableEq

structure Db where
  incidents : Incidents
  notifications : List Notification
  deliveries : List AlertRow
  observations : List Observation

/-- The visit of one domain: what the network answers at the time `now`, and the identifiers
of the rows the visit may insert. -/
structure Visit where
  domain : Domain
  now : Time
  network : Network
  newIncident : Signal → IncidentId
  newNotification : Signal → NotificationId

def Visit.probe (v : Visit) : SiteProbe := probePublishedDomain v.now v.network

def Visit.subject (v : Visit) (signal : Signal) : Subject := v.domain.subject signal

/-- `monitored` -/
def monitored : List Signal :=
  [.siteDnsFailure, .siteTlsFailure, .siteTlsExpiring, .siteUnreachable, .siteHttpError]

/-- Whether the probe shows the signal. -/
def SiteProbe.shows (p : SiteProbe) (signal : Signal) : Bool :=
  decide (p.signalCode = some signal) ||
    (decide (signal = .siteTlsExpiring) && decide (p.sslStatus = .expiring))

/-- The alert of a signal that has appeared. -/
def failureAlert (d : Domain) (signal : Signal) : Alert where
  tenantId := d.tenantId
  category := "site"
  signalCode := signal.code
  title := "Проблема опубликованного сайта"
  body := "Проверка сайта требует внимания. Откройте раздел доменов и инцидентов."
  subjectKind := some "domain"
  subjectKey := some d.id.str
  userId := none

/-- The alert of a signal that has disappeared. -/
def recoveryAlert (d : Domain) (signal : Signal) : Alert where
  tenantId := d.tenantId
  category := "site"
  signalCode := signal.code ++ "-recovered"
  title := "Сайт снова доступен"
  body := "Проверка домена снова проходит успешно."
  subjectKind := some "domain"
  subjectKey := some d.id.str
  userId := none

/-- `create_operator_alert` within the round. -/
def Db.alert (db : Db) (channels : TenantId → Channels) (now : Time) (id : NotificationId)
    (alert : Alert) : Option Db :=
  (createOperatorAlert (channels alert.tenantId) now id alert).toOption.map (fun created =>
    { db with
      notifications := db.notifications ++ [created.1]
      deliveries := db.deliveries ++ created.2 })

/-- `_observe_domain_signal`; `none` is an exception. -/
def observeDomainSignal (channels : TenantId → Channels) (v : Visit) (db : Db) (signal : Signal) :
    Option Db :=
  let on := v.probe.shows signal
  match scalarOneOrNone (active db.incidents (v.subject signal)),
    observeAlert db.incidents v.now (v.newIncident signal) (v.subject signal) on with
  | some existing, some incidents =>
    let db' := { db with incidents := incidents }
    if on && existing.isNone then
      db'.alert channels v.now (v.newNotification signal) (failureAlert v.domain signal)
    else if !on && existing.isSome then
      db'.alert channels v.now (v.newNotification signal) (recoveryAlert v.domain signal)
    else some db'
  | _, _ => none

/-- The body of the loop over the published domains. A second observation of a domain at one
instant violates a unique constraint. -/
def monitorDomain (channels : TenantId → Channels) (db : Db) (v : Visit) : Option Db :=
  if db.observations.any
      (fun o => decide (o.domain.id = v.domain.id) && decide (o.observedAt = v.now)) then none
  else
    monitored.foldlM (observeDomainSignal channels v)
      { db with observations := db.observations ++ [⟨v.domain, v.probe, v.now⟩] }

/-- `monitor_published_domains`; an exception rolls the round back. -/
def monitorPublishedDomains (channels : TenantId → Channels) (db : Db) (visits : List Visit) :
    Option Db :=
  visits.foldlM (monitorDomain channels) db

/-! ## Steps -/

inductive Action
  /-- A round over the published domains. -/
  | monitor (channels : TenantId → Channels) (visits : List Visit)
  /-- `PATCH /incidents/{id}` by an operator who may change the incident; `qa-block` incidents
  are also resolved like this when no page is blocked any more. -/
  | update (id : IncidentId) (action : IncidentAction) (now : Time)
  /-- A call of `observe_alert` from elsewhere, for a signal the monitor does not watch. -/
  | observe (now : Time) (id : IncidentId) (subject : Subject) (on : Bool)

/-- The query lists each domain once. -/
def step (db : Db) : Action → Option Db
  | .monitor channels visits =>
    if (visits.map (·.domain.id)).Nodup then monitorPublishedDomains channels db visits else none
  | .update id action now =>
    (db.incidents.get id).bind (fun i =>
      (transitionIncident i now action).toOption.map (fun i' =>
        { db with incidents := db.incidents.set id i' }))
  | .observe now id subject on =>
    if subject.signal ∈ monitored then none
    else
      (observeAlert db.incidents now id subject on).map (fun incidents =>
        { db with incidents := incidents })

end MegaPanel.Incidents
