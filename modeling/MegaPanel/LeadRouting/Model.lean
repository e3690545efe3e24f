import MegaPanel.LeadRouting.Schema
import MegaPanel.Lib.Run

set_option autoImplicit false

/-! # Lead routing

The routing policies of sites (`api/v1/lead_routing.py`): they are created as drafts, submitted for
review, and rejected or activated, and an activation supersedes the active policy. A lead is sent
where the active policy says (`create_lead_deliveries`), and a site with a form is published only
when its leads can be sent (`_lead_routing_publish_blockers`).

A request runs statement by statement. It holds the locks of the rows that it has selected for
update until it ends. What it writes is flushed when the audit record is appended, under the lock
of the audit log, so a flush and its commit are one step. A flush updates row by row in the order of
the primary keys, and every statement is checked against the index
`uq_lead_routing_policy_active_site`.

Projects and sites do not change, and any project may be linked to any site. The tenant of a caller,
the audit and the columns that only the panel shows are left out.
-/

namespace MegaPanel.LeadRouting

open MegaPanel.Lib MegaPanel.Lib.Text
open MegaPanel.LeadDelivery (Channel DeliveryMode LeadId DeliveryStatus)

abbrev PolicyId := Nat
abbrev SessionId := Nat

/-! ## Rows -/

/-- `projects` -/
structure Project where
  tenantId : TenantId
  siteId : Option SiteId
  archived : Bool
  deriving DecidableEq

/-- `sites` -/
structure Site where
  tenantId : TenantId
  projectId : Option ProjectId
  deriving DecidableEq

inductive PolicyState
  | draft
  | review
  | rejected
  | active
  | superseded
  deriving DecidableEq

/-- `lead_routing_policies`, with its destinations. -/
structure Policy where
  tenantId : TenantId
  projectId : ProjectId
  siteId : SiteId
  version : Nat
  deliveryMode : DeliveryMode
  state : PolicyState
  supersedesId : Option PolicyId
  decisionReason : Option String
  destinations : Destinations
  deriving DecidableEq

/-- `central_lead_smtp_transports`. The recipient is what `_decrypt` gives; it is an address, or
nothing if the key has changed. -/
structure Transport where
  enabled : Bool
  host : String
  port : Nat
  tlsMode : String
  senderEmail : String
  recipientEnc : String
  recipient : Option String
  username : Option String
  password : Option String
  revision : Nat
  recipient_ne : recipient ≠ some ""
  deriving DecidableEq

/-- A request between two of its statements. -/
inductive Session
  /-- The version of the new policy has been chosen. -/
  | creating (row : Policy)
  /-- The policy is locked, and is a draft. -/
  | submitting (id : PolicyId)
  /-- The policy is locked, and is under review. -/
  | rejecting (id : PolicyId) (reason : String)
  /-- The policy is locked, and the checks of its activation have been passed. -/
  | activating (id : PolicyId) (siteId : SiteId) (reason : Option String)
  /-- The `SELECT ... FOR UPDATE` of the active policy has found this one. -/
  | finding (id : PolicyId) (siteId : SiteId) (reason : Option String)
      (candidate : Option PolicyId)
  | found (id : PolicyId) (reason : Option String) (active : Option PolicyId)
  deriving DecidableEq

structure World where
  projects : ProjectId → Option Project
  sites : SiteId → Option Site
  transports : Table TenantId Transport
  policies : Table PolicyId Policy
  /-- The holders of the row locks. -/
  locks : Table PolicyId SessionId
  sessions : Table SessionId Session

/-! ## The central transport -/

/-- `_TLS_MODES` -/
def tlsModes : List String := ["starttls", "implicit_tls"]

/-- `_transport_ready` of a row that there is. -/
def Transport.isReady (t : Transport) : Bool :=
  t.enabled && decide (t.host ≠ "") && decide (t.port ≠ 0) && decide (t.tlsMode ∈ tlsModes)
    && decide (t.senderEmail ≠ "") && decide (t.recipientEnc ≠ "")
    && (decide (t.username.getD "" ≠ "") == decide (t.password.getD "" ≠ ""))

/-- `central_lead_transport_ready` -/
def centralLeadTransportReady (w : World) (tenant : TenantId) : Bool :=
  (w.transports.get tenant).any (fun t => t.isReady && t.recipient.isSome)

/-- What `bind_delivery_transport` binds a delivery to. -/
def boundTransport (w : World) (tenant : TenantId) : Option LeadDelivery.Transport :=
  (w.transports.get tenant).bind (fun t =>
    if t.isReady then
      (t.recipient.filter (· ≠ "")).map (fun recipient => ⟨t.revision, recipient⟩)
    else none)

/-! ## The deliveries of a lead -/

/-- `active_routing_policy`; a second active policy would be an error. -/
def activeRoutingPolicy (w : World) (siteId : SiteId) (site : Site) : Option (PolicyId × Policy) :=
  match site.projectId with
  | none => none
  | some project =>
    w.policies.rows.find? (fun r => decide (r.2.tenantId = site.tenantId
      ∧ r.2.projectId = project ∧ r.2.siteId = siteId ∧ r.2.state = .active))

/-- A new delivery and where it goes. -/
structure RoutedDelivery where
  targetKey : String
  routingPolicyId : Option PolicyId
  row : LeadDelivery.Delivery
  deriving DecidableEq

/-- What a delivery takes over from its destination. -/
def Destination.forDelivery (d : Destination) : LeadDelivery.Destination where
  channel := d.channel
  required := d.required
  hasTarget := decide (d.targetUrl.getD "" ≠ "") && decide (d.targetSecretEnc.getD "" ≠ "")
  targetRecipient := d.targetRecipientEnc.filter (· ≠ "")

/-- `create_global_smtp_delivery` -/
def createGlobalSmtpDelivery (w : World) (site : Site) (lead : LeadId) (now : Time) :
    RoutedDelivery where
  targetKey := reservedTargetKey
  routingPolicyId := none
  row := LeadDelivery.createGlobalSmtpDelivery now lead (boundTransport w site.tenantId)

/-- `create_policy_delivery` -/
def createPolicyDelivery (w : World) (site : Site) (lead : LeadId) (now : Time) (id : PolicyId)
    (d : Destination) : RoutedDelivery where
  targetKey := d.targetKey
  routingPolicyId := some id
  row := LeadDelivery.createPolicyDelivery now lead (boundTransport w site.tenantId) d.forDelivery

/-- `create_lead_deliveries` -/
def createLeadDeliveries (w : World) (siteId : SiteId) (site : Site) (lead : LeadId) (now : Time) :
    List RoutedDelivery :=
  match activeRoutingPolicy w siteId site with
  | none => [createGlobalSmtpDelivery w site lead now]
  | some (id, policy) =>
    (if policy.deliveryMode = .appendGlobal then [createGlobalSmtpDelivery w site lead now]
      else []) ++
    policy.destinations.rows.map (createPolicyDelivery w site lead now id)

/-! ## The gate of a publication -/

/-- `_project_site_or_409` -/
def projectSiteOr409 (w : World) (projectId : ProjectId) (project : Project) :
    Except HttpError (SiteId × Site) :=
  match project.siteId with
  | none => .error ⟨409, "Project has no site"⟩
  | some siteId =>
    match w.sites siteId with
    | none => .error ⟨409, "Project site link is invalid"⟩
    | some site =>
      if site.tenantId ≠ project.tenantId
          ∨ (site.projectId ≠ none ∧ site.projectId ≠ some projectId) then
        .error ⟨409, "Project site link is invalid"⟩
      else .ok (siteId, site)

/-- `_manifest_has_lead_form`, of the types of the blocks of each page. -/
def manifestHasLeadForm (pages : List (List String)) : Bool :=
  pages.any (fun blocks => blocks.any (fun type => decide (type = "lead_form")))

/-- `_lead_routing_publish_blockers` -/
def leadRoutingPublishBlockers (w : World) (siteId : SiteId) (site : Site)
    (pages : List (List String)) : List String :=
  if site.projectId = none ∨ manifestHasLeadForm pages = false then []
  else
    let policies := w.policies.rows.filter (fun r =>
      decide (r.2.tenantId = site.tenantId) && decide (r.2.siteId = siteId))
    let active := policies.find? (fun r => decide (r.2.state = .active))
    if policies ≠ [] ∧ active = none then
      ["Activate the reviewed lead routing policy before publish"]
    else
      let requiresSmtpTransport : Bool :=
        match active with
        | none => true
        | some (_, policy) =>
          match policy.deliveryMode with
          | .appendGlobal => true
          | .replaceGlobal => policy.destinations.rows.any (fun d => decide (d.channel = .email))
      if requiresSmtpTransport && !centralLeadTransportReady w site.tenantId then
        ["Configure central SMTP delivery in panel before publish"]
      else []

/-! ## Requests -/

/-- `LeadRoutingDecisionIn`, which has been confirmed. -/
structure DecisionIn where
  reason : Option String
  replaceGlobalConfirmed : Bool
  deriving DecidableEq

/-- `_project_site` -/
def projectSite (w : World) (projectId : ProjectId) : Except HttpError (Project × SiteId) :=
  match (w.projects projectId).filter (fun p => !p.archived) with
  | none => .error ⟨404, "Project not found"⟩
  | some project =>
    match project.siteId with
    | none => .error ⟨409, "Create the project site before lead routing"⟩
    | some siteId =>
      match (w.sites siteId).filter (fun s => decide (s.tenantId = project.tenantId)) with
      | none => .error ⟨409, "Project site is unavailable"⟩
      | some _ => .ok (project, siteId)

/-- `coalesce(max(version), 0) + 1` -/
def nextVersion (w : World) (projectId : ProjectId) : Nat :=
  ((w.policies.rows.filter (fun r => decide (r.2.projectId = projectId))).map
    (fun r => r.2.version)).foldl max 0 + 1

/-- The row of `create_lead_routing_policy`. -/
def newPolicy (env : Env) (w : World) (projectId : ProjectId) (body : PolicyIn) :
    Except HttpError Policy :=
  match projectSite w projectId with
  | .error e => .error e
  | .ok (project, siteId) =>
    match policyDestinations env body with
    | .error e => .error e
    | .ok destinations =>
      .ok { tenantId := project.tenantId
            projectId := projectId
            siteId := siteId
            version := nextVersion w projectId
            deliveryMode := body.deliveryMode
            state := .draft
            supersedesId := none
            decisionReason := none
            destinations := destinations }

/-- `submit_lead_routing_policy` up to its write, once the row is locked. -/
def checkSubmit (w : World) (projectId : ProjectId) (id : PolicyId) : Except HttpError Unit :=
  match projectSite w projectId with
  | .error e => .error e
  | .ok _ =>
    match (w.policies.get id).filter (fun p => decide (p.projectId = projectId)) with
    | none => .error ⟨404, "Routing policy not found"⟩
    | some policy =>
      if policy.state ≠ .draft then
        .error ⟨409, "Only draft routing policies can be submitted"⟩
      else .ok ()

/-- `reject_lead_routing_policy` up to its write; the result is the reason. -/
def checkReject (w : World) (projectId : ProjectId) (id : PolicyId) (body : DecisionIn) :
    Except HttpError String :=
  match projectSite w projectId with
  | .error e => .error e
  | .ok _ =>
    match (w.policies.get id).filter (fun p =>
      decide (p.projectId = projectId) && decide (p.state = .review)) with
    | none => .error ⟨404, "Routing policy under review not found"⟩
    | some _ =>
      if strip (body.reason.getD "") = "" then .error ⟨422, "Provide a rejection reason"⟩
      else .ok (strip (body.reason.getD ""))

/-- `activate_lead_routing_policy` up to the look for the active policy; the result is the site. -/
def checkActivate (w : World) (projectId : ProjectId) (id : PolicyId) (body : DecisionIn) :
    Except HttpError SiteId :=
  match projectSite w projectId with
  | .error e => .error e
  | .ok (project, siteId) =>
    match (w.policies.get id).filter (fun p =>
      decide (p.projectId = projectId) && decide (p.siteId = siteId)) with
    | none => .error ⟨404, "Routing policy not found"⟩
    | some policy =>
      let destinations := policy.destinations.rows
      if policy.state ≠ .review then
        .error ⟨409, "Only reviewed routing policies can be activated"⟩
      else if destinations = [] then
        .error ⟨409, "Routing policy requires a destination"⟩
      else if policy.deliveryMode = .replaceGlobal ∧ body.replaceGlobalConfirmed = false then
        .error ⟨422, "Explicit confirmation is required to replace central delivery"⟩
      else if (policy.deliveryMode = .appendGlobal ∨ ∃ d ∈ destinations, d.channel = .email)
          ∧ centralLeadTransportReady w project.tenantId = false then
        .error ⟨409, "Central SMTP delivery is not configured"⟩
      else .ok siteId

/-! ## Statements -/

inductive Action
  | create (sid : SessionId) (projectId : ProjectId) (body : PolicyIn)
  | submit (sid : SessionId) (projectId : ProjectId) (id : PolicyId)
  | reject (sid : SessionId) (projectId : ProjectId) (id : PolicyId) (body : DecisionIn)
  | activate (sid : SessionId) (projectId : ProjectId) (id : PolicyId) (body : DecisionIn)
  /-- The next statement of a request; a policy that it inserts gets the id `newId`. -/
  | next (sid : SessionId) (newId : PolicyId)
  | abort (sid : SessionId)
  /-- The central transport is configured or disabled, or its key changes. -/
  | setTransport (tenant : TenantId) (transport : Transport)

def World.setSession (w : World) (sid : SessionId) (s : Session) : World :=
  { w with sessions := w.sessions.set sid s }

/-- The end of a request, and of its locks. -/
def World.endSession (w : World) (sid : SessionId) : World := { w with
  sessions := w.sessions.erase sid
  locks := w.locks.deleteWhere (fun id => decide (w.locks.get id = some sid)) }

/-- A request takes the lock of a row that is free. -/
def World.lockRow (w : World) (sid : SessionId) (id : PolicyId) (s : Session) : World :=
  { w.setSession sid s with locks := w.locks.set id sid }

/-- The `UPDATE` of one row, checked against `uq_lead_routing_policy_active_site`. -/
def updateRow (policies : Table PolicyId Policy) (id : PolicyId) (row : Policy) :
    Option (Table PolicyId Policy) :=
  if row.state = .active ∧ (∃ r ∈ policies.rows,
      r.1 ≠ id ∧ r.2.state = .active ∧ r.2.siteId = row.siteId) then none
  else some (policies.set id row)

/-- The updates of a flush, in the order of the primary keys. -/
def flush (policies : Table PolicyId Policy) (updates : List (PolicyId × Policy)) :
    Option (Table PolicyId Policy) :=
  (updates.insertionSort (fun a b => a.1 ≤ b.1)).foldlM (fun t u => updateRow t u.1 u.2) policies

/-- The flush and the commit of a request. -/
def World.commit (w : World) (sid : SessionId) (updates : List (PolicyId × Policy)) :
    Option World :=
  (flush w.policies updates).map (fun policies =>
    World.endSession { w with policies := policies } sid)

/-- The active policy of a site. -/
def World.activeOf (w : World) (siteId : SiteId) : Option PolicyId :=
  (w.policies.rows.find? (fun r => decide (r.2.siteId = siteId ∧ r.2.state = .active))).map (·.1)

/-- The rows that an activation updates. -/
def activationUpdates (w : World) (id : PolicyId) (row : Policy) (reason : Option String)
    (active : Option PolicyId) : List (PolicyId × Policy) :=
  let activated : Policy := { row with state := .active, decisionReason := reason }
  match active.bind (fun a => (w.policies.get a).map (fun old => (a, old))) with
  | none => [(id, activated)]
  | some (a, old) =>
    [(a, { old with state := .superseded }), (id, { activated with supersedesId := some a })]

/-- The next statement of a request; the last one commits. -/
def next (w : World) (sid : SessionId) (newId : PolicyId) : Session → Option World
  | .creating row =>
    if w.policies.get newId = none ∧ ∀ r ∈ w.policies.rows,
        ¬ (r.2.projectId = row.projectId ∧ r.2.version = row.version) then
      some (World.endSession { w with policies := w.policies.set newId row } sid)
    else none
  | .submitting id =>
    (w.policies.get id).bind (fun row => w.commit sid [(id, { row with state := .review })])
  | .rejecting id reason =>
    (w.policies.get id).bind (fun row =>
      w.commit sid [(id, { row with state := .rejected, decisionReason := some reason })])
  | .activating id siteId reason =>
    some (w.setSession sid (.finding id siteId reason (w.activeOf siteId)))
  | .finding id _ reason none => some (w.setSession sid (.found id reason none))
  | .finding id siteId reason (some a) =>
    -- The row may have changed while the statement waited for its lock.
    if w.locks.get a = none ∨ w.locks.get a = some sid then
      if (w.policies.get a).any (fun r => decide (r.siteId = siteId ∧ r.state = .active)) then
        some (w.lockRow sid a (.found id reason (some a)))
      else some (w.setSession sid (.found id reason none))
    else none
  | .found id reason active =>
    (w.policies.get id).bind (fun row => w.commit sid (activationUpdates w id row reason active))

def step (env : Env) (w : World) : Action → Option World
  | .create sid projectId body =>
    if w.sessions.get sid = none then
      (newPolicy env w projectId body).toOption.map (fun row => w.setSession sid (.creating row))
    else none
  | .submit sid projectId id =>
    if w.sessions.get sid = none ∧ w.locks.get id = none then
      (checkSubmit w projectId id).toOption.map (fun _ => w.lockRow sid id (.submitting id))
    else none
  | .reject sid projectId id body =>
    if w.sessions.get sid = none ∧ w.locks.get id = none then
      (checkReject w projectId id body).toOption.map (fun reason =>
        w.lockRow sid id (.rejecting id reason))
    else none
  | .activate sid projectId id body =>
    if w.sessions.get sid = none ∧ w.locks.get id = none then
      (checkActivate w projectId id body).toOption.map (fun siteId =>
        w.lockRow sid id (.activating id siteId
          ((body.reason.filter (· ≠ "")).map strip)))
    else none
  | .next sid newId => (w.sessions.get sid).bind (next w sid newId)
  | .abort sid => (w.sessions.get sid).map (fun _ => w.endSession sid)
  | .setTransport tenant transport =>
    some { w with transports := w.transports.set tenant transport }

theorem commit_sites {w t : World} {sid : SessionId} {updates : List (PolicyId × Policy)}
    (h : w.commit sid updates = some t) : t.sites = w.sites := by
  obtain ⟨policies, _, rfl⟩ := Option.map_eq_some_iff.mp h
  rfl

theorem next_sites {w t : World} {sid : SessionId} {newId : PolicyId} {s : Session}
    (h : next w sid newId s = some t) : t.sites = w.sites := by
  cases s with
  | creating row =>
    rw [next] at h
    split at h
    · cases h
      rfl
    · cases h
  | submitting id | rejecting id reason =>
    obtain ⟨row, _, hcommit⟩ := Option.bind_eq_some_iff.mp h
    exact commit_sites hcommit
  | activating id siteId reason =>
    cases h
    rfl
  | finding id siteId reason candidate =>
    cases candidate with
    | none =>
      cases h
      rfl
    | some a =>
      rw [next] at h
      split at h
      · split at h
        · cases h
          rfl
        · cases h
          rfl
      · cases h
  | found id reason active =>
    obtain ⟨row, _, hcommit⟩ := Option.bind_eq_some_iff.mp h
    exact commit_sites hcommit

/-- No request changes a site. -/
theorem step_sites {env : Env} {w t : World} {a : Action} (h : step env w a = some t) :
    t.sites = w.sites := by
  cases a with
  | create sid projectId body =>
    simp only [step] at h
    split at h
    · obtain ⟨row, _, rfl⟩ := toOption_map_eq_some h
      rfl
    · cases h
  | submit sid projectId id =>
    simp only [step] at h
    split at h
    · obtain ⟨u, _, rfl⟩ := toOption_map_eq_some h
      rfl
    · cases h
  | reject sid projectId id body =>
    simp only [step] at h
    split at h
    · obtain ⟨reason, _, rfl⟩ := toOption_map_eq_some h
      rfl
    · cases h
  | activate sid projectId id body =>
    simp only [step] at h
    split at h
    · obtain ⟨siteId, _, rfl⟩ := toOption_map_eq_some h
      rfl
    · cases h
  | next sid newId =>
    obtain ⟨s, _, hnext⟩ := Option.bind_eq_some_iff.mp h
    exact next_sites hnext
  | abort sid =>
    obtain ⟨s, _, rfl⟩ := Option.map_eq_some_iff.mp h
    rfl
  | setTransport tenant transport =>
    cases h
    rfl

/-- No policy has been created. -/
structure Init (w : World) : Prop where
  policies : w.policies = Table.empty
  locks : w.locks = Table.empty
  sessions : w.sessions = Table.empty

end MegaPanel.LeadRouting
