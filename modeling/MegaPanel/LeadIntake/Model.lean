import MegaPanel.LeadRouting.Model

set_option autoImplicit false

/-! # Public leads

The form of a site sends a lead with an idempotency key (`create_public_lead` in
`api/v1/leads.py`), and sends it again if it gets no answer. The key is unique per tenant and site:
the first statement that writes is an `INSERT ... ON CONFLICT DO NOTHING`. A request whose row is
there already looks it up and answers its id; a request whose row has been inserted by another one
that has not committed waits for it. After its insert a request reads the route of the site, adds
the consent and the deliveries, and commits. The policies of the site may change at any time.

The answer of the captcha service and the rate limiter, the address of the client and the clock are
inputs of a request. A request that raises is rolled back. The form timestamp is a rational number.
-/

namespace MegaPanel.LeadIntake

open MegaPanel.Lib MegaPanel.Lib.Text MegaPanel.LeadRouting
open MegaPanel.LeadDelivery (LeadId)

abbrev RequestId := Nat

structure IntakeEnv extends Env where
  /-- `BlindIndex.index` -/
  blindIndex : String → String

/-! ## Rows -/

inductive LeadStatus
  | new
  | qualified
  | spam
  deriving DecidableEq

/-- `leads` -/
structure Lead where
  tenantId : TenantId
  siteId : SiteId
  pageSlug : Option String
  status : LeadStatus
  phoneEnc : String
  phoneBlind : String
  emailEnc : Option String
  nameEnc : Option String
  messageEnc : Option String
  utm : String
  ipHash : String
  idempotencyKey : String
  qualification : LeadStatus
  deriving DecidableEq

/-- The columns of `uq_leads_tenant_site_idem`. -/
def Lead.indexKey (lead : Lead) : TenantId × SiteId × String :=
  (lead.tenantId, lead.siteId, lead.idempotencyKey)

/-- `consents`, with the purpose `lead`. -/
structure Consent where
  tenantId : TenantId
  siteId : SiteId
  visitorId : String
  deriving DecidableEq

/-! ## The body of the request -/

/-- `PublicLeadIn`; the lengths of its fields have been checked, `utm` is a JSON text. -/
structure PublicLeadIn where
  siteId : SiteId
  leadToken : String
  phone : String
  email : Option String
  name : Option String
  message : Option String
  pageSlug : Option String
  website : Option String
  formTs : ℚ
  idempotencyKey : String
  utm : String
  consent : Bool
  deriving DecidableEq

/-- What a request meets besides the database. -/
structure Arrival where
  /-- `shared_lead_limiter.check` raises. -/
  limited : Bool
  ip : String
  /-- `time.time()` -/
  now : ℚ
  captchaAllowed : Bool
  deriving DecidableEq

/-- `check_honeypot` -/
def checkHoneypot (website : Option String) : Bool :=
  website.any (fun field => decide (strip field ≠ ""))

/-- `check_time_lock`, with its defaults. -/
def checkTimeLock (formTs now : ℚ) : Bool :=
  let age := now - formTs
  decide (age < 5 / 2) || decide (24 * 60 * 60 < age)

/-- `spam_marks` -/
def spamMarks : List String :=
  ["seo продвижен", "купить ссылк", "crypto", "казино", "viagra", "партнерск"]

/-- `qualify_lead_local` -/
def qualifyLeadLocal (env : IntakeEnv) (message : Option String) (phone : String) : LeadStatus :=
  let text := env.lower (message.getD "")
  if spamMarks.any (fun mark => decide (mark.toList <:+: text.toList)) then .spam
  else if 10 ≤ phone.length then .qualified
  else .new

/-- The row of a lead. -/
def newLead (env : IntakeEnv) (site : Site) (body : PublicLeadIn) (ip : String) : Lead :=
  let qualification := qualifyLeadLocal env body.message body.phone
  let encrypted (field : Option String) := (field.filter (· ≠ "")).map env.encrypt
  { tenantId := site.tenantId
    siteId := body.siteId
    pageSlug := body.pageSlug
    status := qualification
    phoneEnc := env.encrypt body.phone
    phoneBlind := env.blindIndex body.phone
    emailEnc := encrypted body.email
    nameEnc := encrypted body.name
    messageEnc := encrypted body.message
    utm := body.utm
    ipHash := env.blindIndex ip
    idempotencyKey := body.idempotencyKey
    qualification := qualification }

/-- The consent that a request stores with its lead. -/
def consentOf (env : IntakeEnv) (lead : Lead) : Consent :=
  ⟨lead.tenantId, lead.siteId, env.blindIndex lead.idempotencyKey⟩

/-! ## The state -/

/-- A request between two of its statements. -/
inductive Session
  /-- The checks have been passed. -/
  | checked (site : Site) (lead : Lead)
  /-- The row has been inserted, and is not committed. -/
  | inserted (id : LeadId) (site : Site) (lead : Lead)
  /-- There is a committed row with the key. -/
  | conflicted (lead : Lead)
  /-- The consent and the deliveries have been added. -/
  | routed (id : LeadId) (lead : Lead) (deliveries : List RoutedDelivery)
  deriving DecidableEq

/-- The row that a request has inserted and not committed. -/
def Session.pending : Session → Option (LeadId × Lead)
  | .inserted id _ lead => some (id, lead)
  | .routed id lead _ => some (id, lead)
  | _ => none

structure World where
  routing : LeadRouting.World
  /-- `sites.lead_token` -/
  leadTokens : SiteId → String
  leads : Table LeadId Lead
  consents : List Consent
  deliveries : List RoutedDelivery
  requests : Table RequestId Session

/-! ## Statements -/

/-- `create_public_lead` up to its insert; nothing is stored for a filled honeypot. -/
def checkPublicLead (env : IntakeEnv) (w : World) (body : PublicLeadIn) (arrival : Arrival) :
    Except HttpError (Option (Site × Lead)) :=
  if arrival.limited then .error ⟨429, "Too many requests"⟩
  else if checkHoneypot body.website then .ok none
  else if checkTimeLock body.formTs arrival.now then .error ⟨400, "Invalid form timestamp"⟩
  else if body.consent = false then .error ⟨400, "Consent required"⟩
  else
    match (w.routing.sites body.siteId).filter
        (fun _ => decide (w.leadTokens body.siteId = body.leadToken)) with
    | none => .error ⟨404, "Site not found"⟩
    | some site =>
      if arrival.captchaAllowed then .ok (some (site, newLead env site body arrival.ip))
      else .error ⟨400, "Anti-bot verification was not completed"⟩

/-- The committed row with the key of a lead. -/
def World.leadWithKey (w : World) (lead : Lead) : Option LeadId :=
  (w.leads.rows.find? (fun r => decide (r.2.indexKey = lead.indexKey))).map (·.1)

/-- Another request has inserted a row with the key, and may still commit it. -/
def World.keyIsTaken (w : World) (rid : RequestId) (lead : Lead) : Prop :=
  ∃ r ∈ w.requests.rows, r.1 ≠ rid ∧ ∃ p, r.2.pending = some p ∧ p.2.indexKey = lead.indexKey

/-- The id is that of a row, committed or not. -/
def World.idIsTaken (w : World) (id : LeadId) : Prop :=
  w.leads.get id ≠ none ∨ ∃ r ∈ w.requests.rows, ∃ p, r.2.pending = some p ∧ p.1 = id

instance (w : World) (rid : RequestId) (lead : Lead) : Decidable (w.keyIsTaken rid lead) :=
  inferInstanceAs (Decidable (∃ r ∈ w.requests.rows, r.1 ≠ rid ∧
    ∃ p, r.2.pending = some p ∧ p.2.indexKey = lead.indexKey))

instance (w : World) (id : LeadId) : Decidable (w.idIsTaken id) :=
  inferInstanceAs (Decidable (w.leads.get id ≠ none ∨
    ∃ r ∈ w.requests.rows, ∃ p, r.2.pending = some p ∧ p.1 = id))

inductive Action
  /-- A statement of a request that changes the route of a site. -/
  | routing (a : LeadRouting.Action)
  | submit (rid : RequestId) (body : PublicLeadIn) (arrival : Arrival)
  /-- The insert, with `uuid4()` as its id. -/
  | insert (rid : RequestId) (id : LeadId)
  /-- The look for the row that is there already. -/
  | lookUp (rid : RequestId)
  /-- The consent, and the deliveries of the route. -/
  | route (rid : RequestId) (now : Time)
  | commit (rid : RequestId)
  /-- An exception, and the rollback. -/
  | fail (rid : RequestId)

def World.setSession (w : World) (rid : RequestId) (s : Session) : World :=
  { w with requests := w.requests.set rid s }

def World.endSession (w : World) (rid : RequestId) : World :=
  { w with requests := w.requests.erase rid }

/-- The `INSERT ... ON CONFLICT DO NOTHING`. -/
def insert (w : World) (rid : RequestId) (id : LeadId) (site : Site) (lead : Lead) : Option World :=
  if (w.leadWithKey lead).isSome then some (w.setSession rid (.conflicted lead))
  else if w.keyIsTaken rid lead ∨ w.idIsTaken id then none
  else some (w.setSession rid (.inserted id site lead))

/-- The deliveries that a request adds to its lead. -/
def leadDeliveries (w : World) (id : LeadId) (site : Site) (lead : Lead) (now : Time) :
    List RoutedDelivery :=
  if lead.status = .spam then [] else createLeadDeliveries w.routing lead.siteId site id now

/-- The flush and the commit, with `uq_webhook_delivery_lead_target`. -/
def commit (env : IntakeEnv) (w : World) (rid : RequestId) (id : LeadId) (lead : Lead)
    (deliveries : List RoutedDelivery) : Option World :=
  if ((w.deliveries ++ deliveries).map (fun d => (d.row.leadId, d.targetKey))).Nodup then
    some (World.endSession { w with
      leads := w.leads.set id lead
      consents := w.consents ++ [consentOf env lead]
      deliveries := w.deliveries ++ deliveries } rid)
  else none

def step (env : IntakeEnv) (w : World) : Action → Option World
  | .routing a =>
    (LeadRouting.step env.toEnv w.routing a).map (fun routing => { w with routing := routing })
  | .submit rid body arrival =>
    if w.requests.get rid = none then
      match checkPublicLead env w body arrival with
      | .ok (some (site, lead)) => some (w.setSession rid (.checked site lead))
      | _ => some w
    else none
  | .insert rid id =>
    match w.requests.get rid with
    | some (.checked site lead) => insert w rid id site lead
    | _ => none
  | .lookUp rid =>
    match w.requests.get rid with
    | some (.conflicted lead) => (w.leadWithKey lead).map (fun _ => w.endSession rid)
    | _ => none
  | .route rid now =>
    match w.requests.get rid with
    | some (.inserted id site lead) =>
      some (w.setSession rid (.routed id lead (leadDeliveries w id site lead now)))
    | _ => none
  | .commit rid =>
    match w.requests.get rid with
    | some (.routed id lead deliveries) => commit env w rid id lead deliveries
    | _ => none
  | .fail rid => (w.requests.get rid).map (fun _ => w.endSession rid)

/-! ## Answers -/

/-- An answer of a request that has succeeded. -/
inductive Answer
  /-- The id of the lead that the request has created. -/
  | created (id : LeadId)
  | deduped (id : LeadId)
  /-- `{"ok": True, "id": "suppressed"}` -/
  | suppressed
  deriving DecidableEq

/-- The lead that an answer names. -/
def Answer.leadId : Answer → Option LeadId
  | .created id => some id
  | .deduped id => some id
  | .suppressed => none

/-- A successful answer, with the site and the idempotency key of its request. -/
structure Answered where
  siteId : SiteId
  idempotencyKey : String
  answer : Answer
  deriving DecidableEq

/-- The successful answer of an action. -/
def answerOf (env : IntakeEnv) (w : World) : Action → Option Answered
  | .submit rid body arrival =>
    if w.requests.get rid = none ∧ checkPublicLead env w body arrival = .ok none then
      some ⟨body.siteId, body.idempotencyKey, .suppressed⟩
    else none
  | .lookUp rid =>
    match w.requests.get rid with
    | some (.conflicted lead) =>
      (w.leadWithKey lead).map (fun id => ⟨lead.siteId, lead.idempotencyKey, .deduped id⟩)
    | _ => none
  | .commit rid =>
    match w.requests.get rid with
    | some (.routed id lead _) => some ⟨lead.siteId, lead.idempotencyKey, .created id⟩
    | _ => none
  | _ => none

/-- There are no leads, and no policies. -/
structure Init (w : World) : Prop where
  routing : LeadRouting.Init w.routing
  leads : w.leads = Table.empty
  consents : w.consents = []
  deliveries : w.deliveries = []
  requests : w.requests = Table.empty

end MegaPanel.LeadIntake
