import MegaPanel.Hostnames.Model

set_option autoImplicit false

/-! # One site for each hostname

Each table has its unique constraint, and `create_domain` also looks for the hostname among the
sites before it asks Caddy. Nothing looks for the domain of a new site among the rows of `domains`,
and nothing is locked between a check and its commit. So a hostname gets a second site exactly when
a row is committed for it while the other table has it (`hostname_exclusive`).

Caddy is asked before the commit of `create_domain`, and a route stays when that commit fails. A
route is not replaced by one of another site if each request for a route finds no row of another site
for the hostname, and no request of another site that Caddy has accepted and that is open or failed.
-/

namespace MegaPanel.Hostnames

open MegaPanel.Lib

/-! ## What is asked of the rows and of the routes -/

/-- The site has the hostname in one of the two tables, in any case of letters. -/
def Owns (env : Env) (db : Db) (hostname : String) (id : SiteId) : Prop :=
  (∃ site, db.sites.get id = some site ∧ env.lower site.domain = hostname) ∨
    ∃ k row, db.domains.get k = some row ∧ row.siteId = id ∧ env.lower row.hostname = hostname

/-- Each hostname belongs to at most one site. -/
def Exclusive (env : Env) (db : Db) : Prop :=
  ∀ hostname i j, Owns env db hostname i → Owns env db hostname j → i = j

/-- No route has become one of another site. -/
def KeepsRoutes (old new : String → Option SiteId) : Prop :=
  ∀ hostname id, old hostname = some id → new hostname = some id

/-! ## When it is met -/

/-- A row that passes the constraint of its table has a hostname that the other table lacks. -/
def unclaimed (st : State) : Action → Bool
  | .commitDomain rid _ =>
    match st.sessions.get rid with
    | some (.createDomain row _) => !st.db.domainFree row.hostname || st.db.siteFree row.hostname
    | _ => true
  | .commitSite rid _ =>
    match st.sessions.get rid with
    | some (.createSite row) => !st.db.siteFree row.domain || st.db.domainFree row.domain
    | some (.apply _ row) => !st.db.siteFree row.domain || st.db.domainFree row.domain
    | _ => true
  | _ => true

/-- The hostname and the site of a route that Caddy accepts. -/
def routed (st : State) : Action → Option (String × SiteId)
  | .callCaddy rid true =>
    match st.sessions.get rid with
    | some (.createDomain row none) => some (row.hostname, row.siteId)
    | _ => none
  | .publish id true => (st.db.sites.get id).map (fun site => (site.domain, id))
  | _ => none

/-- The sites that have the hostname in a row. -/
def claimants (db : Db) (hostname : String) : List SiteId :=
  (db.sites.rows.filter (fun r => decide (r.2.domain = hostname))).map (·.1) ++
    (db.domains.rows.filter (fun r => decide (r.2.hostname = hostname))).map (·.2.siteId)

/-- The hostname and the site of a request of `create_domain` that Caddy has accepted. -/
def acceptedBy : Session → Option (String × SiteId)
  | .createDomain row (some true) => some (row.hostname, row.siteId)
  | _ => none

/-- What Caddy has accepted from open requests of `create_domain`. -/
def openRoutes (st : State) : List (String × SiteId) :=
  st.sessions.rows.filterMap (fun r => acceptedBy r.2)

/-- A history variable: what Caddy has accepted from requests of `create_domain` that failed. -/
def note (st : State) (a : Action) (failed : List (String × SiteId)) : List (String × SiteId) :=
  let ended (rid : RequestId) := ((st.sessions.get rid).bind acceptedBy).toList ++ failed
  match a with
  | .abort rid => ended rid
  | .commitDomain rid _ =>
    match st.sessions.get rid with
    | some (.createDomain row _) => if st.db.domainFree row.hostname then failed else ended rid
    | _ => failed
  | _ => failed

/-- The hostname of an accepted route is that of no other site, in a row, an open request or a failed
one. -/
def undisputed (st : State) (failed : List (String × SiteId)) (a : Action) : Bool :=
  match routed st a with
  | none => true
  | some (hostname, id) =>
    (claimants st.db hostname).all (fun other => decide (other = id)) &&
      (openRoutes st ++ failed).all (fun r => decide (r.1 = hostname → r.2 = id))

/-! ## Rows -/

variable {db : Db} {hostname : String} {id : SiteId} {st : State} {r : String × SiteId}

theorem siteFree_iff :
    db.siteFree hostname = true ↔
      ∀ id site, db.sites.get id = some site → site.domain ≠ hostname := by
  simp only [Db.siteFree, List.all_eq_true, decide_eq_true_eq, Prod.forall, Table.mem_rows]

theorem domainFree_iff :
    db.domainFree hostname = true ↔
      ∀ id row, db.domains.get id = some row → row.hostname ≠ hostname := by
  simp only [Db.domainFree, List.all_eq_true, decide_eq_true_eq, Prod.forall, Table.mem_rows]

theorem mem_claimants :
    id ∈ claimants db hostname ↔
      (∃ site, db.sites.get id = some site ∧ site.domain = hostname) ∨
        ∃ k row, db.domains.get k = some row ∧ row.siteId = id ∧ row.hostname = hostname := by
  simp only [claimants, List.mem_append, List.mem_map, List.mem_filter, Prod.exists,
    Table.mem_rows, decide_eq_true_eq]
  constructor
  · rintro (⟨i, site, ⟨hsite, hdomain⟩, rfl⟩ | ⟨k, row, ⟨hrow, hname⟩, rfl⟩)
    · exact .inl ⟨site, hsite, hdomain⟩
    · exact .inr ⟨k, row, hrow, rfl, hname⟩
  · rintro (⟨site, hsite, hdomain⟩ | ⟨k, row, hrow, rfl, hname⟩)
    · exact .inl ⟨id, site, ⟨hsite, hdomain⟩, rfl⟩
    · exact .inr ⟨k, row, ⟨hrow, hname⟩, rfl⟩

theorem mem_openRoutes :
    r ∈ openRoutes st ↔ ∃ rid s, st.sessions.get rid = some s ∧ acceptedBy s = some r := by
  simp only [openRoutes, List.mem_filterMap, Prod.exists, Table.mem_rows]

/-! ## Hostnames are stored in lower case -/

variable {env : Env} {db' : Db} {s : Session} {caller : Caller} {row : Site} {t : State}
  {rid : RequestId} {answer : Option Bool} {a : Action}

/-- What the checks of an open request have found and its insert relies on. -/
def Checked (env : Env) (db : Db) : Session → Prop
  | .createDomain row _ => env.lower row.hostname = row.hostname ∧
      ∃ site, db.sites.get row.siteId = some site ∧ site.domain ≠ row.hostname
  | .createSite row => env.lower row.domain = row.domain
  | .apply _ row => env.lower row.domain = row.domain

/-- The domains of the projects are in lower case. -/
def LowerDomains (env : Env) (projects : Table ProjectId Project) : Prop :=
  ∀ id project domain, projects.get id = some project → project.domain = some domain →
    env.lower domain = domain

structure Sound (env : Env) (st : State) : Prop where
  sites : ∀ id site, st.db.sites.get id = some site → env.lower site.domain = site.domain
  domains : ∀ id row, st.db.domains.get id = some row →
    env.lower row.hostname = row.hostname ∧ (st.db.sites.get row.siteId).isSome
  projects : LowerDomains env st.db.projects
  sessions : ∀ rid s, st.sessions.get rid = some s → Checked env st.db s

theorem sound_start (env : Env) : Sound env start where
  sites := fun _ _ h => by cases h
  domains := fun _ _ h => by cases h
  projects := fun _ _ _ h => by cases h
  sessions := fun _ _ h => by cases h

/-- What an open request relies on stays when sites are added. -/
theorem Checked.mono (h : Checked env db s)
    (hsites : ∀ id site, db.sites.get id = some site → db'.sites.get id = some site) :
    Checked env db' s := by
  cases s with
  | createDomain row answer =>
    obtain ⟨hlower, site, hsite, hne⟩ := h
    exact ⟨hlower, site, hsites _ _ hsite, hne⟩
  | createSite row | apply projectId row => exact h

/-- What the checks of the three routes establish. -/
theorem checked_createDomain {body : DomainCreate} {row : Domain}
    (h : createDomain env db caller body = .ok row) : Checked env db (.createDomain row none) := by
  unfold createDomain at h
  split at h
  · cases h
  · next hostname hname =>
    split at h
    · cases h
    · next site hsite =>
      split_ifs at h with hforbidden htaken hprimary
      cases h
      refine ⟨lower_normalizeHostname hname, site, hsite, ?_⟩
      exact siteFree_iff.mp (by simpa using hprimary) _ _ hsite

theorem checked_createSite {domain : String} (h : createSite env db caller domain = .ok row) :
    Checked env db (.createSite row) := by
  unfold createSite at h
  split at h
  · cases h
  split_ifs at h
  cases h
  exact env.lower_lower domain

theorem Sound.checked_applyFirstDraft (h : Sound env st) {projectId : ProjectId}
    (hrow : applyFirstDraft st.db caller projectId = .ok row) :
    Checked env st.db (.apply projectId row) := by
  unfold applyFirstDraft at hrow
  split at hrow
  · cases hrow
  · next project hproject =>
    split_ifs at hrow
    split at hrow
    · cases hrow
    · next domain hdomain =>
      cases hrow
      exact h.projects _ _ _ hproject hdomain

theorem Sound.setSession (h : Sound env st) (hs : Checked env st.db s)
    (vhosts : String → Option SiteId) :
    Sound env { st with vhosts := vhosts, sessions := st.sessions.set rid s } where
  sites := h.sites
  domains := h.domains
  projects := h.projects
  sessions := Table.forall_set h.sessions hs

theorem Sound.endSession (h : Sound env st) (rid : RequestId) : Sound env (st.endSession rid) where
  sites := h.sites
  domains := h.domains
  projects := h.projects
  sessions := fun j x hx => h.sessions j x (Table.get_erase_eq_some.mp hx).2

theorem Sound.insertDomain (h : Sound env st) {row : Domain}
    (hrow : Checked env st.db (.createDomain row answer)) (id : DomainId) :
    Sound env { st with db := st.db.insertDomain id row } := by
  unfold Db.insertDomain
  split
  · obtain ⟨hlower, site, hsite, _⟩ := hrow
    exact ⟨h.sites,
      Table.forall_set h.domains ⟨hlower, Option.isSome_iff_exists.mpr ⟨site, hsite⟩⟩, h.projects,
      fun rid s hs => (h.sessions rid s hs).mono (fun _ _ hsite => hsite)⟩
  · exact h

theorem insertSite_domains (id : SiteId) (row : Site) :
    (db.insertSite id row).domains = db.domains := by
  unfold Db.insertSite
  split <;> rfl

theorem insertSite_projects (id : SiteId) (row : Site) :
    (db.insertSite id row).projects = db.projects := by
  unfold Db.insertSite
  split <;> rfl

theorem insertSite_sites (hnew : db.sites.get id = none) (row : Site) {j : SiteId} {site : Site}
    (hsite : db.sites.get j = some site) : (db.insertSite id row).sites.get j = some site := by
  unfold Db.insertSite
  split
  · have hne : j ≠ id := fun heq => by
      rw [heq, hnew] at hsite
      cases hsite
    rw [Table.get_set_ne _ hne, hsite]
  · exact hsite

/-- The insert of a site, and what its transaction makes of the projects. -/
theorem Sound.insertSite (h : Sound env st) (hlower : env.lower row.domain = row.domain)
    (hnew : st.db.sites.get id = none) {projects : Table ProjectId Project}
    (hprojects : LowerDomains env projects) :
    Sound env { st with db := { st.db.insertSite id row with projects := projects } } where
  sites := fun j x hx => by
    simp only [Db.insertSite] at hx
    split at hx
    · exact Table.forall_set h.sites hlower j x hx
    · exact h.sites j x hx
  domains := fun k x hx => by
    obtain ⟨hlow, hsite⟩ := h.domains k x (by rwa [← insertSite_domains id row])
    obtain ⟨site, hsite⟩ := Option.isSome_iff_exists.mp hsite
    exact ⟨hlow, Option.isSome_iff_exists.mpr ⟨site, insertSite_sites hnew row hsite⟩⟩
  projects := hprojects
  sessions := fun rid s hs =>
    (h.sessions rid s hs).mono (fun _ _ hsite => insertSite_sites hnew row hsite)

/-- Linking a project to its site writes no other table. -/
theorem linkProject_eq (db : Db) (hdb : LowerDomains env db.projects) (projectId : ProjectId)
    (id : SiteId) :
    ∃ projects, db.linkProject projectId id = { db with projects := projects } ∧
      LowerDomains env projects := by
  unfold Db.linkProject
  split
  · refine ⟨_, rfl, fun k project domain hk hdomain => ?_⟩
    rw [Table.get_modify] at hk
    split at hk
    · obtain ⟨old, hold, rfl⟩ := Option.map_eq_some_iff.mp hk
      exact hdb _ old domain hold hdomain
    · exact hdb k project domain hk hdomain
  · exact ⟨db.projects, rfl, hdb⟩

/-! ## What a step does -/

/-- An action that inserts no hostname, asks for no route and ends no request. -/
structure Quiet (st : State) (a : Action) : Prop where
  unclaimed : unclaimed st a = true
  routed : routed st a = none
  note : ∀ failed, note st a failed = failed

/-- What a step can do, with what its request has checked. -/
inductive Moves (env : Env) (st : State) : Action → State → Prop
  | opened {a : Action} {rid : RequestId} {s : Session} (hquiet : Quiet st a)
      (hnone : st.sessions.get rid = none) (hs : Checked env st.db s) :
      Moves env st a { st with sessions := st.sessions.set rid s }
  | called {rid : RequestId} {row : Domain} (ok : Bool)
      (hrow : st.sessions.get rid = some (.createDomain row none)) :
      Moves env st (.callCaddy rid ok)
        { st with
          vhosts := upsertSiteVhost st.vhosts row.hostname row.siteId ok
          sessions := st.sessions.set rid
            (.createDomain { row with sslStatus := if ok then .pending else .error } (some ok)) }
  | domainCommitted {rid : RequestId} {id : DomainId} {row : Domain} {answer : Bool}
      (hrow : st.sessions.get rid = some (.createDomain row (some answer)))
      (hnew : st.db.domains.get id = none) :
      Moves env st (.commitDomain rid id)
        ({ st with db := st.db.insertDomain id row }.endSession rid)
  | siteCommitted {rid : RequestId} {id : SiteId} {row : Site} {projects : Table ProjectId Project}
      (hnone : (st.sessions.get rid).bind acceptedBy = none)
      (hrow : env.lower row.domain = row.domain) (hnew : st.db.sites.get id = none)
      (hclaimed : unclaimed st (.commitSite rid id) =
        (!st.db.siteFree row.domain || st.db.domainFree row.domain))
      (hprojects : LowerDomains env projects) :
      Moves env st (.commitSite rid id)
        ({ st with db := { st.db.insertSite id row with projects := projects } }.endSession rid)
  | aborted (rid : RequestId) : Moves env st (.abort rid) (st.endSession rid)
  | written {a : Action} {projects : Table ProjectId Project} (hquiet : Quiet st a)
      (hprojects : LowerDomains env projects) :
      Moves env st a { st with db := { st.db with projects := projects } }
  | published {id : SiteId} {site : Site} (ok : Bool) (hsite : st.db.sites.get id = some site) :
      Moves env st (.publish id ok)
        { st with vhosts := upsertSiteVhost st.vhosts site.domain id ok }

/-- A request whose checks establish what its insert relies on. -/
theorem moves_beginRequest {checked : Except HttpError Session} (hquiet : Quiet st a)
    (hchecked : ∀ s, checked = .ok s → Checked env st.db s)
    (h : st.beginRequest rid checked = some t) : Moves env st a t := by
  unfold State.beginRequest at h
  split at h
  · next s hnone =>
    cases h
    exact .opened hquiet hnone (hchecked s rfl)
  · cases h

theorem Sound.moves_writeProject (h : Sound env st) (hquiet : Quiet st a) (id : ProjectId)
    {project : Project}
    (hdomain : ∀ domain, project.domain = some domain → env.lower domain = domain) :
    Moves env st a { st with db := { st.db with projects := st.db.projects.set id project } } :=
  .written hquiet (fun k x d hx hd => by
    rcases Table.get_set_eq_some.mp hx with ⟨_, rfl⟩ | ⟨_, hold⟩
    · exact hdomain d hd
    · exact h.projects k x d hold hd)

theorem Sound.step_moves (h : Sound env st) (hstep : Hostnames.step env st a = some t) :
    Moves env st a t := by
  cases a with
  | beginDomain rid caller body =>
    refine moves_beginRequest ⟨rfl, rfl, fun _ => rfl⟩ (fun s hs => ?_) hstep
    obtain ⟨row, hrow, rfl⟩ := map_eq_ok hs
    exact checked_createDomain hrow
  | callCaddy rid ok =>
    simp only [Hostnames.step] at hstep
    split at hstep
    · next row hrow =>
      cases hstep
      exact .called ok hrow
    · cases hstep
  | commitDomain rid id =>
    simp only [Hostnames.step] at hstep
    split at hstep
    · next row answer hrow hnew =>
      cases hstep
      exact .domainCommitted hrow hnew
    · cases hstep
  | beginSite rid caller domain =>
    refine moves_beginRequest ⟨rfl, rfl, fun _ => rfl⟩ (fun s hs => ?_) hstep
    obtain ⟨row, hrow, rfl⟩ := map_eq_ok hs
    exact checked_createSite hrow
  | beginApply rid caller projectId =>
    simp only [Hostnames.step] at hstep
    split_ifs at hstep
    refine moves_beginRequest ⟨rfl, rfl, fun _ => rfl⟩ (fun s hs => ?_) hstep
    obtain ⟨row, hrow, rfl⟩ := map_eq_ok hs
    exact h.checked_applyFirstDraft hrow
  | commitSite rid id =>
    simp only [Hostnames.step] at hstep
    split at hstep
    · next row hrow hnew =>
      cases hstep
      have hlower : Checked env st.db (.createSite row) := h.sessions rid _ hrow
      exact .siteCommitted (by rw [hrow]; rfl) hlower hnew (by simp only [unclaimed, hrow])
        ((insertSite_projects id row).symm ▸ h.projects)
    · next projectId row hrow hnew =>
      cases hstep
      have hlower : Checked env st.db (.apply projectId row) := h.sessions rid _ hrow
      obtain ⟨projects, heq, hprojects⟩ := linkProject_eq (st.db.insertSite id row)
        ((insertSite_projects id row).symm ▸ h.projects) projectId id
      rw [heq]
      exact .siteCommitted (by rw [hrow]; rfl) hlower hnew (by simp only [unclaimed, hrow])
        hprojects
    · cases hstep
  | abort rid =>
    simp only [Hostnames.step] at hstep
    split_ifs at hstep
    cases hstep
    exact .aborted rid
  | writeProject id tenantId domain =>
    simp only [Hostnames.step] at hstep
    split at hstep
    · cases hstep
      exact h.moves_writeProject ⟨rfl, rfl, fun _ => rfl⟩ id (fun _ hnone => by cases hnone)
    · split at hstep
      · cases hstep
      · next hostname hname =>
        cases hstep
        refine h.moves_writeProject ⟨rfl, rfl, fun _ => rfl⟩ id (fun domain hdomain => ?_)
        cases hdomain
        exact lower_normalizeHostname hname
  | publish id ok =>
    simp only [Hostnames.step] at hstep
    split at hstep
    · cases hstep
    · next site hsite =>
      cases hstep
      exact .published ok hsite

/-- **Hostnames stay in lower case.** -/
theorem Sound.step (h : Sound env st) (hstep : Hostnames.step env st a = some t) : Sound env t := by
  cases h.step_moves hstep with
  | opened hquiet hnone hs => exact h.setSession hs st.vhosts
  | @called rid row ok hrow =>
    exact h.setSession
      (s := .createDomain { row with sslStatus := if ok then .pending else .error } (some ok))
      (h.sessions rid (.createDomain row none) hrow) _
  | domainCommitted hrow hnew => exact (h.insertDomain (h.sessions _ _ hrow) _).endSession _
  | siteCommitted hnone hrow hnew hclaimed hprojects =>
    exact (h.insertSite hrow hnew hprojects).endSession _
  | aborted rid => exact h.endSession rid
  | written hquiet hprojects =>
    exact ⟨h.sites, h.domains, hprojects,
      fun rid s hs => (h.sessions rid s hs).mono (fun _ _ x => x)⟩
  | published ok hsite => exact ⟨h.sites, h.domains, h.projects, h.sessions⟩

/-! ## Two tables, one owner -/

/-- A hostname in lower case that is free in both tables has no owner. -/
theorem Sound.not_owns (h : Sound env st) (hsites : st.db.siteFree hostname = true)
    (hdomains : st.db.domainFree hostname = true) (id : SiteId) : ¬ Owns env st.db hostname id := by
  rintro (⟨site, hsite, hlower⟩ | ⟨k, row, hrow, _, hlower⟩)
  · rw [h.sites id site hsite] at hlower
    exact siteFree_iff.mp hsites id site hsite hlower
  · rw [(h.domains k row hrow).1] at hlower
    exact domainFree_iff.mp hdomains k row hrow hlower

/-- One more owner of a hostname that has none. -/
theorem Exclusive.extend (h : Exclusive env db) (id : SiteId)
    (hnone : ∀ i, ¬ Owns env db hostname i)
    (hnew : ∀ name i, Owns env db' name i → (name = hostname ∧ i = id) ∨ Owns env db name i) :
    Exclusive env db' := by
  intro name i j hi hj
  rcases hnew name i hi with ⟨hname, rfl⟩ | hi
  · rcases hnew name j hj with ⟨_, rfl⟩ | hj
    · rfl
    · exact absurd (hname ▸ hj) (hnone j)
  · rcases hnew name j hj with ⟨hname, rfl⟩ | hj
    · exact absurd (hname ▸ hi) (hnone i)
    · exact h name i j hi hj

/-- **The insert of a site.** -/
theorem Sound.exclusive_insertSite_iff (h : Sound env st) (hex : Exclusive env st.db)
    (hlower : env.lower row.domain = row.domain) (hnew : st.db.sites.get id = none) :
    Exclusive env (st.db.insertSite id row) ↔
      (!st.db.siteFree row.domain || st.db.domainFree row.domain) = true := by
  unfold Db.insertSite
  cases hsites : st.db.siteFree row.domain with
  | false => simpa using hex
  | true =>
    rw [if_pos rfl, Bool.not_true, Bool.false_or]
    constructor
    · intro hex'
      refine domainFree_iff.mpr (fun k other hother hname => ?_)
      -- the new site and the site of the row would be the same, but that one is not new
      have hsame : other.siteId = id := hex' row.domain _ _
        (.inr ⟨k, other, hother, rfl, by rw [hname, hlower]⟩)
        (.inl ⟨row, Table.get_set_self .., hlower⟩)
      have hexists := (h.domains k other hother).2
      rw [hsame, hnew] at hexists
      cases hexists
    · intro hdomains
      refine hex.extend id (h.not_owns hsites hdomains) (fun name i hi => ?_)
      rcases hi with ⟨site, hsite, hname⟩ | hdomain
      · rcases Table.get_set_eq_some.mp hsite with ⟨rfl, rfl⟩ | ⟨_, hold⟩
        · exact .inl ⟨hname.symm.trans hlower, rfl⟩
        · exact .inr (.inl ⟨site, hold, hname⟩)
      · exact .inr (.inr hdomain)

/-- **The insert of a row of `domains`.** -/
theorem Sound.exclusive_insertDomain_iff (h : Sound env st) (hex : Exclusive env st.db)
    {row : Domain} (hrow : Checked env st.db (.createDomain row answer)) (id : DomainId) :
    Exclusive env (st.db.insertDomain id row) ↔
      (!st.db.domainFree row.hostname || st.db.siteFree row.hostname) = true := by
  obtain ⟨hlower, own, hown, hother⟩ := hrow
  unfold Db.insertDomain
  cases hdomains : st.db.domainFree row.hostname with
  | false => simpa using hex
  | true =>
    rw [if_pos rfl, Bool.not_true, Bool.false_or]
    constructor
    · intro hex'
      refine siteFree_iff.mpr (fun i site hsite hname => ?_)
      have hsame : i = row.siteId := hex' row.hostname _ _
        (.inl ⟨site, hsite, by rw [hname, hlower]⟩)
        (.inr ⟨id, row, Table.get_set_self .., rfl, hlower⟩)
      -- the request has seen its own site, and that has another domain
      rw [hsame, hown] at hsite
      cases hsite
      exact hother hname
    · intro hsites
      refine hex.extend row.siteId (h.not_owns hsites hdomains) (fun name i hi => ?_)
      rcases hi with hsite | ⟨k, x, hx, hxi, hname⟩
      · exact .inr (.inl hsite)
      rcases Table.get_set_eq_some.mp hx with ⟨_, rfl⟩ | ⟨_, hold⟩
      · exact .inl ⟨hname.symm.trans hlower, hxi.symm⟩
      · exact .inr (.inr ⟨k, x, hold, hxi, hname⟩)

/-- **A step keeps hostnames exclusive exactly when what it inserts is unclaimed.** -/
theorem Sound.exclusive_step_iff (h : Sound env st) (hex : Exclusive env st.db)
    (hstep : Hostnames.step env st a = some t) : Exclusive env t.db ↔ unclaimed st a = true := by
  cases h.step_moves hstep with
  | opened hquiet hnone hs => exact iff_of_true hex hquiet.unclaimed
  | called ok hrow => exact iff_of_true hex rfl
  | domainCommitted hrow hnew =>
    simp only [unclaimed, hrow]
    exact h.exclusive_insertDomain_iff hex (h.sessions _ _ hrow) _
  | siteCommitted hnone hrow hnew hclaimed hprojects =>
    rw [hclaimed]
    exact h.exclusive_insertSite_iff hex hrow hnew
  | aborted rid => exact iff_of_true hex rfl
  | written hquiet hprojects => exact iff_of_true hex hquiet.unclaimed
  | published ok hsite => exact iff_of_true hex rfl

/-! ## Routes -/

variable {failed : List (String × SiteId)}

/-- What a route is there for: a row of its site, or a request that Caddy has accepted. -/
def Backed (st : State) (failed : List (String × SiteId)) : Prop :=
  ∀ hostname id, st.vhosts hostname = some id →
    id ∈ claimants st.db hostname ∨ (hostname, id) ∈ openRoutes st ++ failed

theorem claimants_mono
    (hsites : ∀ id site, db.sites.get id = some site → db'.sites.get id = some site)
    (hdomains : ∀ id row, db.domains.get id = some row → db'.domains.get id = some row)
    (h : id ∈ claimants db hostname) : id ∈ claimants db' hostname := by
  rcases mem_claimants.mp h with ⟨site, hsite, hname⟩ | ⟨k, row, hrow, hid, hname⟩
  · exact mem_claimants.mpr (.inl ⟨site, hsites _ _ hsite, hname⟩)
  · exact mem_claimants.mpr (.inr ⟨k, row, hdomains _ _ hrow, hid, hname⟩)

/-- A request that Caddy has not accepted may be replaced. -/
theorem openRoutes_set {vhosts : String → Option SiteId}
    (hnone : (st.sessions.get rid).bind acceptedBy = none) (s : Session) (h : r ∈ openRoutes st) :
    r ∈ openRoutes { st with vhosts := vhosts, sessions := st.sessions.set rid s } := by
  obtain ⟨j, x, hx, hr⟩ := mem_openRoutes.mp h
  refine mem_openRoutes.mpr ⟨j, x, ?_, hr⟩
  have hne : j ≠ rid := fun heq => by
    rw [← heq, hx, Option.bind_some, hr] at hnone
    cases hnone
  rw [Table.get_set_ne _ hne, hx]

theorem openRoutes_set_or {vhosts : String → Option SiteId}
    (hnone : (st.sessions.get rid).bind acceptedBy = none) (s : Session)
    (h : r ∈ openRoutes st ++ failed) :
    r ∈ openRoutes { st with vhosts := vhosts, sessions := st.sessions.set rid s } ++ failed :=
  List.mem_append.mpr ((List.mem_append.mp h).imp_left (openRoutes_set hnone s))

/-- What Caddy has accepted from an ended request is no longer open. -/
theorem openRoutes_endSession (rid : RequestId) (db : Db) (h : r ∈ openRoutes st) :
    r ∈ openRoutes ({ st with db := db }.endSession rid) ∨
      (st.sessions.get rid).bind acceptedBy = some r := by
  obtain ⟨j, x, hx, hr⟩ := mem_openRoutes.mp h
  by_cases hj : j = rid
  · exact .inr (by rw [← hj, hx, Option.bind_some, hr])
  · exact .inl (mem_openRoutes.mpr ⟨j, x, Table.get_erase_eq_some.mpr ⟨hj, hx⟩, hr⟩)

theorem Backed.mono {failed' : List (String × SiteId)} (h : Backed st failed)
    (hvhosts : t.vhosts = st.vhosts) (hkept : ∀ hostname id,
      id ∈ claimants st.db hostname ∨ (hostname, id) ∈ openRoutes st ++ failed →
        id ∈ claimants t.db hostname ∨ (hostname, id) ∈ openRoutes t ++ failed') :
    Backed t failed' := by
  intro hostname id hroute
  rw [hvhosts] at hroute
  exact hkept hostname id (h hostname id hroute)

/-- The end of a request that leaves what Caddy has accepted to the history. -/
theorem Backed.fail (h : Backed st failed) (rid : RequestId) :
    Backed (st.endSession rid) (((st.sessions.get rid).bind acceptedBy).toList ++ failed) := by
  refine h.mono rfl (fun hostname id hback => hback.imp_right (fun hmem => ?_))
  rcases List.mem_append.mp hmem with hopen | hfailed
  · rcases openRoutes_endSession rid st.db hopen with hstill | hended
    · exact List.mem_append_left _ hstill
    · rw [hended]
      exact List.mem_append_right _ (List.mem_cons_self ..)
  · exact List.mem_append_right _ (List.mem_append_right _ hfailed)

/-- The commit of a request whose hostname and site are in a row from now on. -/
theorem Backed.commit (h : Backed st failed) (rid : RequestId)
    (hkept : ∀ hostname id, id ∈ claimants st.db hostname → id ∈ claimants db hostname)
    (hrow : ∀ hostname id, (st.sessions.get rid).bind acceptedBy = some (hostname, id) →
      id ∈ claimants db hostname) : Backed ({ st with db := db }.endSession rid) failed := by
  refine h.mono rfl (fun hostname id hback => ?_)
  rcases hback with hclaimed | hmem
  · exact .inl (hkept hostname id hclaimed)
  rcases List.mem_append.mp hmem with hopen | hfailed
  · rcases openRoutes_endSession rid db hopen with hstill | hended
    · exact .inr (List.mem_append_left _ hstill)
    · exact .inl (hrow hostname id hended)
  · exact .inr (List.mem_append_right _ hfailed)

/-- A new route is the one that Caddy has accepted. -/
theorem upsertSiteVhost_eq_some {vhosts : String → Option SiteId} {name : String} {i : SiteId}
    {ok : Bool} (h : upsertSiteVhost vhosts name i ok hostname = some id) :
    vhosts hostname = some id ∨ ok = true ∧ hostname = name ∧ id = i := by
  unfold upsertSiteVhost at h
  split at h
  · next hok =>
    by_cases hname : hostname = name
    · rw [hname, Function.update_self] at h
      cases h
      exact .inr ⟨hok, hname, rfl⟩
    · rw [Function.update_of_ne hname] at h
      exact .inl h
  · exact .inl h

/-- **Every route stays backed.** -/
theorem Backed.step (h : Backed st failed) (hsound : Sound env st)
    (hstep : Hostnames.step env st a = some t) : Backed t (note st a failed) := by
  cases hsound.step_moves hstep with
  | opened hquiet hnone hs =>
    rw [hquiet.note]
    exact h.mono rfl (fun _ _ hback => hback.imp_right (openRoutes_set_or (by rw [hnone]; rfl) _))
  | @called rid row ok hrow =>
    intro hostname id hroute
    have hnone : (st.sessions.get rid).bind acceptedBy = none := by rw [hrow]; rfl
    rcases upsertSiteVhost_eq_some hroute with hold | ⟨rfl, rfl, rfl⟩
    · exact (h hostname id hold).imp_right (openRoutes_set_or hnone _)
    · exact .inr (List.mem_append_left _ (mem_openRoutes.mpr ⟨rid, _, Table.get_set_self .., rfl⟩))
  | @domainCommitted rid id row answer hrow hnew =>
    simp only [note, hrow, Db.insertDomain]
    split
    · refine h.commit rid (fun hostname i hclaimed => ?_) (fun hostname i haccepted => ?_)
      · refine claimants_mono ?_ (fun k x hx => ?_) hclaimed
        · exact fun _ _ hsite => hsite
        have hne : k ≠ id := fun heq => by
          rw [heq, hnew] at hx
          cases hx
        rw [Table.get_set_ne _ hne, hx]
      · rw [hrow, Option.bind_some] at haccepted
        cases answer with
        | false => cases haccepted
        | true =>
          cases haccepted
          exact mem_claimants.mpr (.inr ⟨id, row, Table.get_set_self .., rfl, rfl⟩)
    · have hfailed := h.fail rid
      rw [hrow] at hfailed
      exact hfailed
  | @siteCommitted rid id row projects hnone hrow hnew hclaimed hprojects =>
    refine h.commit rid (fun hostname i hclaimed => ?_) (fun hostname i haccepted => ?_)
    · exact claimants_mono (fun _ _ hsite => insertSite_sites hnew row hsite)
        (fun k x hx => by rwa [insertSite_domains]) hclaimed
    · rw [hnone] at haccepted
      cases haccepted
  | aborted rid => exact h.fail rid
  | written hquiet hprojects =>
    rw [hquiet.note]
    exact h
  | @published id site ok hsite =>
    intro hostname i hroute
    rcases upsertSiteVhost_eq_some hroute with hold | ⟨_, rfl, rfl⟩
    · exact h hostname i hold
    · exact .inl (mem_claimants.mpr (.inl ⟨site, hsite, rfl⟩))

/-- What a step makes of the routes. -/
theorem Sound.vhosts_step (h : Sound env st) (hstep : Hostnames.step env st a = some t) :
    t.vhosts = match routed st a with
      | none => st.vhosts
      | some (hostname, id) => Function.update st.vhosts hostname (some id) := by
  cases h.step_moves hstep with
  | opened hquiet hnone hs => rw [hquiet.routed]
  | called ok hrow =>
    cases ok with
    | false => rfl
    | true =>
      simp only [routed, hrow]
      rfl
  | domainCommitted hrow hnew | siteCommitted hnone hrow hnew hclaimed hprojects | aborted rid =>
    rfl
  | written hquiet hprojects => rw [hquiet.routed]
  | published ok hsite =>
    cases ok with
    | false => rfl
    | true =>
      simp only [routed, hsite]
      rfl

/-- **An undisputed route replaces none of another site.** -/
theorem Backed.keepsRoutes (h : Backed st failed) (hsound : Sound env st)
    (hundisputed : undisputed st failed a = true) (hstep : Hostnames.step env st a = some t) :
    KeepsRoutes st.vhosts t.vhosts := by
  intro name other hroute
  rw [hsound.vhosts_step hstep]
  unfold undisputed at hundisputed
  split at hundisputed
  · exact hroute
  · next hostname id hrouted =>
    obtain ⟨hclaimants, hothers⟩ := Bool.and_eq_true_iff.mp hundisputed
    by_cases hname : name = hostname
    · rw [hname, Function.update_self]
      rw [hname] at hroute
      rcases h hostname other hroute with hclaimed | hmem
      · have heq := of_decide_eq_true (List.all_eq_true.mp hclaimants other hclaimed)
        rw [heq]
      · have heq : other = id := of_decide_eq_true (List.all_eq_true.mp hothers _ hmem) rfl
        rw [heq]
    · rw [Function.update_of_ne hname, hroute]

/-! ## Every run -/

/-- **Hostname exclusivity.** Every hostname belongs to at most one site in all committed states of a
run exactly when each row is inserted while the other table lacks its hostname. No route is replaced
by one of another site in a run whose accepted routes are undisputed. -/
theorem hostname_exclusive (env : Env) (as : List Action) :
    (Along (step env) (fun _ _ t => Exclusive env t.db) start as ↔
        Along (step env) (fun st a _ => unclaimed st a = true) start as) ∧
      (Along (withGhost (step env) note) (fun x a _ => undisputed x.1 x.2 a = true) (start, []) as →
        Along (step env) (fun st _ t => KeepsRoutes st.vhosts t.vhosts) start as) := by
  constructor
  · refine along_invariant_iff (J := Sound env) (I := fun st => Exclusive env st.db)
      (fun st a t h hstep => h.step hstep) (fun st a t h hex hstep => h.exclusive_step_iff hex hstep)
      (sound_start env) ?_
    rintro hostname i j (⟨site, hsite, _⟩ | ⟨k, row, hrow, _⟩)
    · cases hsite
    · cases hrow
  · intro hundisputed
    refine (along_withGhost note).mp (along_rule (I := fun x => Sound env x.1 ∧ Backed x.1 x.2)
      (fun x a y hx hq hstep => ?_) ⟨sound_start env, fun hostname id hroute => ?_⟩ hundisputed)
    · obtain ⟨hy, hnote⟩ := withGhost_eq_some.mp hstep
      rw [hnote]
      exact ⟨⟨hx.1.step hy, hx.2.step hx.1 hy⟩, hx.2.keepsRoutes hx.1 hq hy⟩
    · cases hroute

/-! ## Two runs -/

/-- `str.lower` of an ASCII character. -/
def asciiLower (c : Char) : Char :=
  if 65 ≤ c.toNat ∧ c.toNat ≤ 90 then Char.ofNat (c.toNat + 32) else c

theorem asciiLower_asciiLower (c : Char) : asciiLower (asciiLower c) = asciiLower c := by
  by_cases h : 65 ≤ c.toNat ∧ c.toNat ≤ 90
  · have hletters : ∀ n < 91, 65 ≤ n → asciiLower (Char.ofNat (n + 32)) = Char.ofNat (n + 32) := by
      decide
    have hlower : asciiLower c = Char.ofNat (c.toNat + 32) := if_pos h
    rw [hlower]
    exact hletters _ (by omega) h.1
  · have hlower : asciiLower c = c := if_neg h
    rw [hlower, hlower]

theorem asciiLower_uncased {c : Char} (h : isLabelChar c = true ∨ c = '.') : asciiLower c = c := by
  refine if_neg (fun hupper => ?_)
  rcases h with h | rfl
  · simp only [isLabelChar, Bool.or_eq_true, Bool.and_eq_true, decide_eq_true_eq, beq_iff_eq] at h
    rcases h with (⟨h, _⟩ | ⟨_, h⟩) | rfl
    · have hle : 97 ≤ c.toNat := h
      omega
    · have hle : c.toNat ≤ 57 := h
      omega
    · revert hupper
      decide
  · revert hupper
    decide

/-- An environment for texts in ASCII that are no addresses. -/
def asciiEnv : Env where
  lower := fun text => String.ofList (text.toList.map asciiLower)
  isIpAddress := fun _ => false
  lower_lower := fun text => by
    rw [String.toList_ofList, List.map_map]
    exact congrArg String.ofList (List.map_congr_left (fun c _ => asciiLower_asciiLower c))
  lower_uncased := fun text h => by
    have hmap : text.toList.map asciiLower = text.toList := by
      conv_rhs => rw [← List.map_id text.toList]
      exact List.map_congr_left (fun c hc => asciiLower_uncased (h c hc))
    rw [hmap, String.ofList_toList]

/-- The user of a tenant. -/
def tenantUser (tenantId : TenantId) : Caller := ⟨false, some tenantId⟩

/-- A tenant gives its site 1 a second hostname, and another tenant asks for a site of that name. -/
def secondClaim : List Action :=
  [.beginSite 0 (tenantUser 1) "alpha.example", .commitSite 0 1,
    .beginDomain 1 (tenantUser 1) ⟨"shop.example", 1, none, none⟩, .callCaddy 1 true,
    .commitDomain 1 1, .beginSite 2 (tenantUser 2) "Shop.example"]

/-- The second tenant gets its site, and a publication takes the route of the first. -/
theorem hostname_taken_twice :
    ¬ Along (step asciiEnv) (fun _ _ t => Exclusive asciiEnv t.db) start
        (secondClaim ++ [.commitSite 2 2]) ∧
      ¬ Along (step asciiEnv) (fun st _ t => KeepsRoutes st.vhosts t.vhosts) start
        ((secondClaim ++ [.commitSite 2 2]) ++ [.publish 2 true]) := by
  constructor
  · intro hall
    have hrun : (exec (step asciiEnv) start secondClaim).any (fun st =>
        (step asciiEnv st (.commitSite 2 2)).any (fun t =>
          (t.db.sites.get 2).any (fun site => decide (site.domain = "shop.example")) &&
            (t.db.domains.get 1).any (fun row =>
              decide (row.siteId = 1 ∧ row.hostname = "shop.example")))) = true := by
      decide +kernel
    obtain ⟨st, hst, hrun⟩ := (Option.any_eq_true _ _).mp hrun
    obtain ⟨t, ht, hfacts⟩ := (Option.any_eq_true _ _).mp hrun
    obtain ⟨hsite, hrow⟩ := Bool.and_eq_true_iff.mp hfacts
    obtain ⟨site, hsite, hdomain⟩ := (Option.any_eq_true _ _).mp hsite
    obtain ⟨row, hrow, hname⟩ := (Option.any_eq_true _ _).mp hrow
    obtain ⟨hrowSite, hname⟩ := of_decide_eq_true hname
    have hex := hall.at hst ht
    have hlower : asciiEnv.lower "shop.example" = "shop.example" := by decide +kernel
    have hsame : 2 = 1 := hex "shop.example" 2 1
      (.inl ⟨site, hsite, by rw [of_decide_eq_true hdomain, hlower]⟩)
      (.inr ⟨1, row, hrow, hrowSite, by rw [hname, hlower]⟩)
    omega
  · intro hall
    have hrun : (exec (step asciiEnv) start (secondClaim ++ [.commitSite 2 2])).any (fun st =>
        (step asciiEnv st (.publish 2 true)).any (fun t =>
          decide (st.vhosts "shop.example" = some 1 ∧ t.vhosts "shop.example" = some 2))) = true := by
      decide +kernel
    obtain ⟨st, hst, hrun⟩ := (Option.any_eq_true _ _).mp hrun
    obtain ⟨t, ht, hfacts⟩ := (Option.any_eq_true _ _).mp hrun
    obtain ⟨hold, hnew⟩ := of_decide_eq_true hfacts
    have hkept := hall.at hst ht "shop.example" 1 hold
    rw [hnew] at hkept
    cases hkept

/-- A tenant and a project of another get sites with hostnames of their own, and both publish. -/
def ownHostnames : List Action :=
  [.beginSite 0 (tenantUser 1) "alpha.example", .commitSite 0 1,
    .beginDomain 1 (tenantUser 1) ⟨"shop.example", 1, none, none⟩, .callCaddy 1 true,
    .writeProject 1 2 (some "beta.example."), .beginApply 2 (tenantUser 2) 1, .publish 1 true,
    .commitSite 2 2, .commitDomain 1 1, .publish 2 true, .publish 1 true]

theorem hostname_exclusive_ownHostnames :
    Along (step asciiEnv) (fun _ _ t => Exclusive asciiEnv t.db) start ownHostnames ∧
      Along (step asciiEnv) (fun st _ t => KeepsRoutes st.vhosts t.vhosts) start ownHostnames := by
  have hexclusive := hostname_exclusive asciiEnv ownHostnames
  exact ⟨hexclusive.1.mpr (by decide +kernel), hexclusive.2 (by decide +kernel)⟩

end MegaPanel.Hostnames
