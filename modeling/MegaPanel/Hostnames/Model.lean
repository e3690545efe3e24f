import MegaPanel.Basic
import MegaPanel.Lib.Dict
import MegaPanel.Lib.Run
import MegaPanel.Lib.Table
import MegaPanel.Lib.Text

set_option autoImplicit false

/-! # Hostnames of sites

A hostname is claimed as `sites.domain`, by `create_site` (`api/v1/sites.py`) or by the first
`apply_page_draft` of a project (`api/v1/projects.py`), or as `domains.hostname`, by `create_domain`
(`api/v1/domains.py`). A request reads and checks in one step and inserts in a later one, where the
unique constraint of its own table decides; `create_domain` asks Caddy for the virtual host in
between. Publications and rollbacks ask Caddy for the one of `sites.domain`.

Caddy keeps one route under each `@id`, here the site whose files it serves. Whether it accepts a
route is part of the action. `str.lower` and `ipaddress.ip_address` are parameters. The other checks
of `apply_page_draft` have passed.
-/

namespace MegaPanel.Hostnames

open MegaPanel.Lib MegaPanel.Lib.Text

abbrev DomainId := Nat
abbrev RequestId := Nat

/-! ## Normalized hostnames -/

/-- `[a-z0-9-]` -/
def isLabelChar (c : Char) : Bool := ('a' ≤ c && c ≤ 'z') || ('0' ≤ c && c ≤ '9') || c == '-'

/-- The functions of the environment: `str.lower`, which changes cased characters only, and whether
`ipaddress.ip_address` takes a text. -/
structure Env where
  lower : String → String
  isIpAddress : String → Bool
  lower_lower : ∀ text, lower (lower text) = lower text
  lower_uncased : ∀ text, (∀ c ∈ text.toList, isLabelChar c = true ∨ c = '.') → lower text = text

/-- `_HOST_LABEL` -/
def isHostLabel (label : List Char) : Bool :=
  decide (1 ≤ label.length) && decide (label.length ≤ 63) && label.all isLabelChar
    && decide (label.head? ≠ some '-') && decide (label.getLast? ≠ some '-')

/-- `text.rstrip(".")` -/
def stripDots (text : String) : String := String.ofList (text.toList.rdropWhile (· == '.'))

def normalizeHostname (env : Env) (raw : String) : Except String String :=
  let hostname := stripDots (env.lower (strip raw))
  if hostname.length > 253 ∨ '.' ∉ hostname.toList then .error "Hostname must be a public domain"
  else if env.isIpAddress hostname = true then .error "IP addresses are not valid hostnames"
  else if (hostname.toList.splitOn '.').any (fun label => !isHostLabel label) then
    .error "Invalid hostname"
  else .ok hostname

theorem isHostLabel_chars {label : List Char} (h : isHostLabel label = true) :
    ∀ c ∈ label, isLabelChar c = true := by
  simp only [isHostLabel, Bool.and_eq_true] at h
  exact List.all_eq_true.mp h.1.1.2

/-- A normalized hostname is in lower case. -/
theorem lower_normalizeHostname {env : Env} {raw hostname : String}
    (h : normalizeHostname env raw = .ok hostname) : env.lower hostname = hostname := by
  unfold normalizeHostname at h
  dsimp only at h
  split_ifs at h with hlen hip hlabels
  cases h
  refine env.lower_uncased _ (fun c hc => ?_)
  rcases mem_splitOn hc with hdot | ⟨label, hlabel, hc⟩
  · exact .inr hdot
  have hvalid : isHostLabel label = true := by
    by_contra hinvalid
    exact hlabels (List.any_eq_true.mpr ⟨label, hlabel, by simpa using hinvalid⟩)
  exact .inl (isHostLabel_chars hvalid c hc)

/-! ## Rows -/

/-- `sites` -/
structure Site where
  tenantId : TenantId
  domain : String

inductive SslStatus
  | pending
  | error
  deriving DecidableEq

/-- `domains` -/
structure Domain where
  tenantId : TenantId
  siteId : SiteId
  hostname : String
  registrar : Option String
  expiresAt : Option Time
  sslStatus : SslStatus

/-- `projects` -/
structure Project where
  tenantId : TenantId
  domain : Option String
  siteId : Option SiteId

structure Db where
  sites : Table SiteId Site
  domains : Table DomainId Domain
  projects : Table ProjectId Project

/-- No site has the domain. -/
def Db.siteFree (db : Db) (hostname : String) : Bool :=
  db.sites.rows.all (fun r => decide (r.2.domain ≠ hostname))

/-- No row of `domains` has the hostname. -/
def Db.domainFree (db : Db) (hostname : String) : Bool :=
  db.domains.rows.all (fun r => decide (r.2.hostname ≠ hostname))

/-! ## Requests -/

/-- The user of a request. -/
structure Caller where
  superadmin : Bool
  tenantId : Option TenantId

/-- `DomainCreate` -/
structure DomainCreate where
  hostname : String
  siteId : SiteId
  registrar : Option String
  expiresAt : Option Time

/-- `create_domain` up to the row that it adds. -/
def createDomain (env : Env) (db : Db) (caller : Caller) (body : DomainCreate) :
    Except HttpError Domain :=
  match normalizeHostname env body.hostname with
  | .error message => .error ⟨400, message⟩
  | .ok hostname =>
    match db.sites.get body.siteId with
    | none => .error ⟨404, "Site not found"⟩
    | some site =>
      if caller.superadmin = false ∧ some site.tenantId ≠ caller.tenantId then
        .error ⟨403, "Forbidden"⟩
      else if db.domainFree hostname = false then .error ⟨409, "Hostname taken"⟩
      else if db.siteFree hostname = false then
        .error ⟨409, "Hostname is already a primary site domain"⟩
      else
        .ok
          { tenantId := site.tenantId
            siteId := body.siteId
            hostname := hostname
            registrar := body.registrar
            expiresAt := body.expiresAt
            sslStatus := .pending }

/-- `create_site` up to the row that it adds. -/
def createSite (env : Env) (db : Db) (caller : Caller) (domain : String) : Except HttpError Site :=
  match caller.tenantId with
  | none => .error ⟨403, "Tenant required"⟩
  | some tenantId =>
    if db.siteFree (env.lower domain) = false then .error ⟨409, "Domain already registered"⟩
    else .ok ⟨tenantId, env.lower domain⟩

/-- `apply_page_draft` of a project without a site, up to the row that it adds. -/
def applyFirstDraft (db : Db) (caller : Caller) (projectId : ProjectId) : Except HttpError Site :=
  match db.projects.get projectId with
  | none => .error ⟨404, "Project not found"⟩
  | some project =>
    if caller.superadmin = false ∧ some project.tenantId ≠ caller.tenantId then
      .error ⟨403, "Forbidden"⟩
    else
      match project.domain with
      | none => .error ⟨409, "Set a project domain before apply"⟩
      | some domain => .ok ⟨project.tenantId, domain⟩

/-- A request between its checks and its end. -/
inductive Session
  /-- `answer` is what Caddy has said, after the call. -/
  | createDomain (row : Domain) (answer : Option Bool)
  | createSite (row : Site)
  | apply (projectId : ProjectId) (row : Site)

structure State where
  db : Db
  /-- Caddy's route `site-<hostname>`, by the site whose files it serves. -/
  vhosts : String → Option SiteId
  sessions : Table RequestId Session

/-! ## Steps -/

inductive Action
  | beginDomain (rid : RequestId) (caller : Caller) (body : DomainCreate)
  | callCaddy (rid : RequestId) (ok : Bool)
  | commitDomain (rid : RequestId) (id : DomainId)
  | beginSite (rid : RequestId) (caller : Caller) (domain : String)
  | beginApply (rid : RequestId) (caller : Caller) (projectId : ProjectId)
  /-- The insert of `create_site` and of `apply_page_draft`. -/
  | commitSite (rid : RequestId) (id : SiteId)
  /-- A request fails before its commit. -/
  | abort (rid : RequestId)
  /-- `create_project`, and `update_project` before there is a site. -/
  | writeProject (id : ProjectId) (tenantId : TenantId) (domain : Option String)
  /-- The call of a publication or rollback. -/
  | publish (id : SiteId) (ok : Bool)

/-- `upsert_site_vhost` -/
def upsertSiteVhost (vhosts : String → Option SiteId) (hostname : String) (id : SiteId)
    (ok : Bool) : String → Option SiteId :=
  if ok then Function.update vhosts hostname (some id) else vhosts

def State.endSession (st : State) (rid : RequestId) : State :=
  { st with sessions := st.sessions.erase rid }

/-- A request begins with its checks; one that fails them changes nothing. -/
def State.beginRequest (st : State) (rid : RequestId) (checked : Except HttpError Session) :
    Option State :=
  match st.sessions.get rid, checked with
  | none, .ok session => some { st with sessions := st.sessions.set rid session }
  | _, _ => none

/-- The insert of a row of `domains`, unless its unique constraint refuses it. -/
def Db.insertDomain (db : Db) (id : DomainId) (row : Domain) : Db :=
  if db.domainFree row.hostname then { db with domains := db.domains.set id row } else db

/-- The insert of a site, unless its unique constraint refuses it. -/
def Db.insertSite (db : Db) (id : SiteId) (row : Site) : Db :=
  if db.siteFree row.domain then { db with sites := db.sites.set id row } else db

/-- `project.site_id = site.id`, in the transaction that inserts the site. -/
def Db.linkProject (db : Db) (projectId : ProjectId) (id : SiteId) : Db :=
  if (db.sites.get id).isSome then
    { db with projects := db.projects.modify projectId (fun p => { p with siteId := some id }) }
  else db

def step (env : Env) (st : State) : Action → Option State
  | .beginDomain rid caller body =>
    st.beginRequest rid
      ((createDomain env st.db caller body).map (fun row => .createDomain row none))
  | .callCaddy rid ok =>
    match st.sessions.get rid with
    | some (.createDomain row none) =>
      let row := { row with sslStatus := if ok then .pending else .error }
      some
        { st with
          vhosts := upsertSiteVhost st.vhosts row.hostname row.siteId ok
          sessions := st.sessions.set rid (.createDomain row (some ok)) }
    | _ => none
  | .commitDomain rid id =>
    match st.sessions.get rid, st.db.domains.get id with
    | some (.createDomain row (some _)), none =>
      some ({ st with db := st.db.insertDomain id row }.endSession rid)
    | _, _ => none
  | .beginSite rid caller domain =>
    st.beginRequest rid ((createSite env st.db caller domain).map .createSite)
  | .beginApply rid caller projectId =>
    if (st.db.projects.get projectId).all (fun p => decide (p.siteId = none)) then
      st.beginRequest rid
        ((applyFirstDraft st.db caller projectId).map (Session.apply projectId))
    else none
  | .commitSite rid id =>
    match st.sessions.get rid, st.db.sites.get id with
    | some (.createSite row), none =>
      some ({ st with db := st.db.insertSite id row }.endSession rid)
    | some (.apply projectId row), none =>
      some
        ({ st with db := (st.db.insertSite id row).linkProject projectId id }.endSession rid)
    | _, _ => none
  | .abort rid => if (st.sessions.get rid).isSome then some (st.endSession rid) else none
  | .writeProject id tenantId domain =>
    let project (domain : Option String) : Project :=
      ⟨tenantId, domain, (st.db.projects.get id).bind (·.siteId)⟩
    match domain with
    | none =>
      some { st with db := { st.db with projects := st.db.projects.set id (project none) } }
    | some raw =>
      match normalizeHostname env raw with
      | .error _ => none
      | .ok hostname =>
        let projects := st.db.projects.set id (project (some hostname))
        some { st with db := { st.db with projects := projects } }
  | .publish id ok =>
    match st.db.sites.get id with
    | none => none
    | some site => some { st with vhosts := upsertSiteVhost st.vhosts site.domain id ok }

/-- No rows, no requests and no routes. -/
def start : State := ⟨⟨.empty, .empty, .empty⟩, fun _ => none, .empty⟩

end MegaPanel.Hostnames
