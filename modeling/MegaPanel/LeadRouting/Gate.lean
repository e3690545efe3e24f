import MegaPanel.LeadRouting.Activation

set_option autoImplicit false

/-! # The gate of a publication and the deliveries of a lead

A build with a form is published when `_lead_routing_publish_blockers` finds no blocker, and the
leads that come then should be sent somewhere. The gate and `create_lead_deliveries` look for the
active policy with different filters. The gate lets a site without a project pass, and takes any
active policy of the site for its route; a lead is sent by a policy only if it is of the project of
the site, and else to the central address. So the deliveries of a lead are queued exactly if the
central transport is ready or the project of the site has its own active policy
(`publish_routing_gate`).
-/

namespace MegaPanel.LeadRouting

open MegaPanel.Lib
open MegaPanel.LeadDelivery (LeadId)

variable {env : Env}

/-! ## Which deliveries are queued -/

variable {w : World} {site : Site} {lead : LeadId} {now : Time} {id : PolicyId}

/-- The delivery will be tried, it is not dead from the start. -/
def RoutedDelivery.IsQueued (d : RoutedDelivery) : Prop := d.row.status = .queued

theorem boundTransport_isSome (w : World) (tenant : TenantId) :
    (boundTransport w tenant).isSome = centralLeadTransportReady w tenant := by
  rw [boundTransport, centralLeadTransportReady]
  cases w.transports.get tenant with
  | none => rfl
  | some t =>
    rw [Option.bind_some, Option.any_some]
    by_cases hready : t.isReady = true
    · rw [if_pos hready, hready, Bool.true_and, Option.isSome_map]
      cases hrecipient : t.recipient with
      | none => rfl
      | some recipient =>
        have hne : recipient ≠ "" := fun h => t.recipient_ne (by rw [hrecipient, h])
        simp [Option.filter, hne]
    · rw [if_neg hready, Bool.eq_false_iff.mpr hready]
      rfl

theorem createGlobalSmtpDelivery_isQueued :
    (createGlobalSmtpDelivery w site lead now).IsQueued ↔
      centralLeadTransportReady w site.tenantId = true := by
  rw [← boundTransport_isSome, RoutedDelivery.IsQueued, createGlobalSmtpDelivery]
  cases boundTransport w site.tenantId with
  | none => exact iff_of_false nofun nofun
  | some t => exact iff_of_true rfl rfl

/-- A delivery of a policy needs the central transport if it is an email. -/
theorem createPolicyDelivery_isQueued {d : Destination} (hd : d.isConfigured = true)
    (hready : d.channel = .email → centralLeadTransportReady w site.tenantId = true) :
    (createPolicyDelivery w site lead now id d).IsQueued := by
  rw [RoutedDelivery.IsQueued, createPolicyDelivery, LeadDelivery.createPolicyDelivery]
  rw [Destination.isConfigured] at hd
  cases hchannel : d.channel with
  | webhook =>
    rw [hchannel] at hd
    have htarget : d.forDelivery.hasTarget = true := hd
    simp only [Destination.forDelivery, hchannel]
    rw [show (decide (d.targetUrl.getD "" ≠ "") && decide (d.targetSecretEnc.getD "" ≠ ""))
      = true from htarget]
    rfl
  | email =>
    rw [hchannel] at hd
    have hbound := boundTransport_isSome w site.tenantId
    rw [hready hchannel] at hbound
    obtain ⟨t, ht⟩ := Option.isSome_iff_exists.mp hbound
    cases hrecipient : d.targetRecipientEnc with
    | none =>
      rw [hrecipient] at hd
      cases hd
    | some text =>
      rw [hrecipient] at hd
      have hne : text ≠ "" := of_decide_eq_true hd
      simp only [Destination.forDelivery, hchannel, hrecipient, ht]
      simp [Option.filter, hne, LeadDelivery.Delivery.configured]

/-! ## The two looks for a policy -/

variable {siteId : SiteId} {policy : Policy} {pages : List (List String)}

/-- The project of the site has an active policy for it. -/
def HasOwnRoute (w : World) (siteId : SiteId) (site : Site) : Prop :=
  ∃ id policy, w.policies.get id = some policy ∧ policy.state = .active ∧ policy.siteId = siteId ∧
    site.projectId = some policy.projectId

theorem projectSiteOr409_site {projectId : ProjectId} {project : Project}
    (h : projectSiteOr409 w projectId project = .ok (siteId, site)) :
    w.sites siteId = some site := by
  rw [projectSiteOr409] at h
  split at h
  · cases h
  split at h
  · cases h
  · next hsite =>
    split at h
    · cases h
    · cases h
      exact hsite

theorem activeRoutingPolicy_eq_some (h : activeRoutingPolicy w siteId site = some (id, policy)) :
    w.policies.get id = some policy ∧ policy.state = .active ∧ policy.siteId = siteId ∧
      site.projectId = some policy.projectId := by
  rw [activeRoutingPolicy] at h
  split at h
  · cases h
  · next project hproject =>
    have hfound := List.find?_some h
    obtain ⟨_, hmatch, hsite, hstate⟩ := of_decide_eq_true hfound
    refine ⟨Table.mem_rows.mp (List.mem_of_find?_eq_some h), hstate, hsite, ?_⟩
    rw [hproject]
    exact congrArg some hmatch.symm

/-- The own route of a site is the policy that its leads are sent by. -/
theorem Sound.activeRoutingPolicy (hs : Sound w) (hsite : w.sites siteId = some site)
    (hpolicy : w.policies.get id = some policy) (hactive : policy.state = .active)
    (hof : policy.siteId = siteId) (hproject : site.projectId = some policy.projectId) :
    LeadRouting.activeRoutingPolicy w siteId site = some (id, policy) := by
  obtain ⟨owner, howner, htenant⟩ := hs.scope id policy hpolicy
  rw [hof] at howner
  cases hsite.symm.trans howner
  cases hfind : LeadRouting.activeRoutingPolicy w siteId site with
  | none =>
    rw [LeadRouting.activeRoutingPolicy, hproject] at hfind
    have hnone := List.find?_eq_none.mp hfind (id, policy) (Table.mem_rows.mpr hpolicy)
    exact absurd (decide_eq_true ⟨htenant.symm, rfl, hof, hactive⟩) hnone
  | some found =>
    obtain ⟨j, other⟩ := found
    obtain ⟨hother, hstate, hof', _⟩ := activeRoutingPolicy_eq_some hfind
    have hj : j = id := hs.oneActive j id other policy hother hpolicy hstate hactive
      (hof'.trans hof.symm)
    subst hj
    cases hother.symm.trans hpolicy
    rfl

/-- The policy that the gate takes for the route of a site. -/
theorem Sound.gateActive (hs : Sound w) (hsite : w.sites siteId = some site)
    (hpolicy : w.policies.get id = some policy) (hactive : policy.state = .active)
    (hof : policy.siteId = siteId) :
    (w.policies.rows.filter (fun r => decide (r.2.tenantId = site.tenantId)
      && decide (r.2.siteId = siteId))).find? (fun r => decide (r.2.state = .active))
      = some (id, policy) := by
  obtain ⟨owner, howner, htenant⟩ := hs.scope id policy hpolicy
  rw [hof] at howner
  cases hsite.symm.trans howner
  cases hfind : (w.policies.rows.filter (fun r => decide (r.2.tenantId = site.tenantId)
      && decide (r.2.siteId = siteId))).find? (fun r => decide (r.2.state = .active)) with
  | none =>
    have hmem : (id, policy) ∈ w.policies.rows.filter (fun r =>
        decide (r.2.tenantId = site.tenantId) && decide (r.2.siteId = siteId)) :=
      List.mem_filter.mpr ⟨Table.mem_rows.mpr hpolicy, by simp [htenant, hof]⟩
    exact absurd (decide_eq_true hactive) (List.find?_eq_none.mp hfind _ hmem)
  | some found =>
    obtain ⟨j, other⟩ := found
    obtain ⟨hrow, hmatch⟩ := List.mem_filter.mp (List.mem_of_find?_eq_some hfind)
    have hfound := List.find?_some hfind
    have hstate : other.state = .active := of_decide_eq_true hfound
    have hof' : other.siteId = siteId := of_decide_eq_true (Bool.and_eq_true_iff.mp hmatch).2
    have hother := Table.mem_rows.mp hrow
    have hj : j = id := hs.oneActive j id other policy hother hpolicy hstate hactive
      (hof'.trans hof.symm)
    subst hj
    cases hother.symm.trans hpolicy
    rfl

/-- A gate that lets a form pass without the central transport has found an active policy of the
site that replaces the central delivery and has no email. -/
theorem Sound.gate_open (hs : Sound w) (hsite : w.sites siteId = some site)
    (hform : manifestHasLeadForm pages = true)
    (hgate : leadRoutingPublishBlockers w siteId site pages = [])
    (hpolicy : w.policies.get id = some policy) (hactive : policy.state = .active)
    (hof : policy.siteId = siteId) (hproject : site.projectId ≠ none)
    (hnot : centralLeadTransportReady w site.tenantId = false) :
    policy.deliveryMode = .replaceGlobal ∧ ∀ d ∈ policy.destinations.rows, d.channel ≠ .email := by
  have hskip : ¬ (site.projectId = none ∨ manifestHasLeadForm pages = false) := by
    rw [hform]
    rintro (h | h)
    · exact hproject h
    · cases h
  rw [leadRoutingPublishBlockers, if_neg hskip] at hgate
  dsimp only at hgate
  rw [hs.gateActive hsite hpolicy hactive hof, if_neg (fun h => nomatch h.2)] at hgate
  dsimp only at hgate
  rw [hnot, Bool.not_false, Bool.and_true] at hgate
  cases hmode : policy.deliveryMode with
  | appendGlobal =>
    rw [hmode] at hgate
    cases hgate
  | replaceGlobal =>
    rw [hmode] at hgate
    refine ⟨rfl, fun d hd hemail => ?_⟩
    have hany : policy.destinations.rows.any (fun d => decide (d.channel = .email)) = true :=
      List.any_eq_true.mpr ⟨d, hd, decide_eq_true hemail⟩
    rw [hany] at hgate
    cases hgate

/-! ## The theorem -/

/-- Every delivery of a lead is queued, and there is one. -/
def LeadIsSent (w : World) (siteId : SiteId) (site : Site) (lead : LeadId) (now : Time) : Prop :=
  createLeadDeliveries w siteId site lead now ≠ [] ∧
    ∀ d ∈ createLeadDeliveries w siteId site lead now, d.IsQueued

theorem LeadIsSent.of_ready (h : centralLeadTransportReady w site.tenantId = true) :
    LeadIsSent w siteId site lead now := by
  rw [LeadIsSent, createLeadDeliveries]
  cases LeadRouting.activeRoutingPolicy w siteId site with
  | none =>
    refine ⟨nofun, fun d hd => ?_⟩
    rw [List.mem_singleton.mp hd]
    exact createGlobalSmtpDelivery_isQueued.mpr h
  | some found =>
    obtain ⟨id, policy⟩ := found
    refine ⟨?_, fun d hd => ?_⟩
    · simp [policy.destinations.nonempty]
    · rcases List.mem_append.mp hd with hd | hd
      · split at hd
        · rw [List.mem_singleton.mp hd]
          exact createGlobalSmtpDelivery_isQueued.mpr h
        · cases hd
      · obtain ⟨destination, hmem, rfl⟩ := List.mem_map.mp hd
        exact createPolicyDelivery_isQueued (policy.destinations.configured destination hmem)
          (fun _ => h)

theorem Sound.leadIsSent_of_route (hs : Sound w) (hsite : w.sites siteId = some site)
    (hform : manifestHasLeadForm pages = true)
    (hgate : leadRoutingPublishBlockers w siteId site pages = [])
    (hnot : centralLeadTransportReady w site.tenantId = false)
    (hroute : HasOwnRoute w siteId site) : LeadIsSent w siteId site lead now := by
  obtain ⟨id, policy, hpolicy, hactive, hof, hproject⟩ := hroute
  have hsome : site.projectId ≠ none := by rw [hproject]; exact nofun
  obtain ⟨hmode, hchannels⟩ := hs.gate_open hsite hform hgate hpolicy hactive hof hsome hnot
  have hdeliveries : createLeadDeliveries w siteId site lead now
      = policy.destinations.rows.map (createPolicyDelivery w site lead now id) := by
    rw [createLeadDeliveries, hs.activeRoutingPolicy hsite hpolicy hactive hof hproject]
    simp [hmode]
  rw [LeadIsSent, hdeliveries]
  refine ⟨fun h => policy.destinations.nonempty (List.map_eq_nil_iff.mp h), fun d hd => ?_⟩
  obtain ⟨destination, hmem, rfl⟩ := List.mem_map.mp hd
  exact createPolicyDelivery_isQueued (policy.destinations.configured destination hmem)
    (fun hemail => absurd hemail (hchannels destination hmem))

/-- Without the central transport a lead that no policy routes is dead from the start. -/
theorem LeadIsSent.route (h : LeadIsSent w siteId site lead now)
    (hnot : centralLeadTransportReady w site.tenantId = false) : HasOwnRoute w siteId site := by
  cases hroute : LeadRouting.activeRoutingPolicy w siteId site with
  | some found => exact ⟨found.1, found.2, activeRoutingPolicy_eq_some hroute⟩
  | none =>
    rw [LeadIsSent, createLeadDeliveries, hroute] at h
    have hqueued := createGlobalSmtpDelivery_isQueued.mp (h.2 _ (List.mem_singleton_self _))
    rw [hnot] at hqueued
    cases hqueued

theorem leadIsSent_congr {v : World} (hpolicies : v.policies = w.policies)
    (htransports : v.transports = w.transports) :
    LeadIsSent v siteId site lead now ↔ LeadIsSent w siteId site lead now := by
  have hroute : LeadRouting.activeRoutingPolicy v siteId site
      = LeadRouting.activeRoutingPolicy w siteId site := by
    rw [LeadRouting.activeRoutingPolicy, LeadRouting.activeRoutingPolicy, hpolicies]
  have hbound : boundTransport v site.tenantId = boundTransport w site.tenantId := by
    rw [boundTransport, boundTransport, htransports]
  have hglobal : createGlobalSmtpDelivery v site lead now
      = createGlobalSmtpDelivery w site lead now := by
    rw [createGlobalSmtpDelivery, createGlobalSmtpDelivery, hbound]
  have hpolicy : createPolicyDelivery v site lead now = createPolicyDelivery w site lead now := by
    funext id d
    rw [createPolicyDelivery, createPolicyDelivery, hbound]
  have hdeliveries : createLeadDeliveries v siteId site lead now
      = createLeadDeliveries w siteId site lead now := by
    rw [createLeadDeliveries, createLeadDeliveries, hroute, hglobal, hpolicy]
  rw [LeadIsSent, LeadIsSent, hdeliveries]

/-- **The gate of a publication.** The site of a project has passed the gate with a form, in a
state that the routes have reached. As long as policies and transport are the same, a lead of the
site is sent, by deliveries that are all queued, exactly if the central transport is ready or the
project of the site has its own active policy. -/
theorem publish_routing_gate {w₀ w v : World} {run : List Action} {projectId : ProjectId}
    {project : Project} {siteId : SiteId} {site : Site} {pages : List (List String)}
    (hinit : Init w₀) (hrun : exec (step env) w₀ run = some w)
    (hsite : projectSiteOr409 w projectId project = .ok (siteId, site))
    (hform : manifestHasLeadForm pages = true)
    (hgate : leadRoutingPublishBlockers w siteId site pages = [])
    (hpolicies : v.policies = w.policies) (htransports : v.transports = w.transports)
    (lead : LeadId) (now : Time) :
    LeadIsSent v siteId site lead now ↔
      centralLeadTransportReady w site.tenantId = true ∨ HasOwnRoute w siteId site := by
  have hs : Sound w := Sound.of_exec hinit hrun
  rw [leadIsSent_congr hpolicies htransports]
  cases hready : centralLeadTransportReady w site.tenantId with
  | true => exact iff_of_true (.of_ready hready) (.inl rfl)
  | false =>
    constructor
    · exact fun h => .inr (h.route hready)
    · rintro (h | hroute)
      · cases h
      · exact hs.leadIsSent_of_route (projectSiteOr409_site hsite) hform hgate hready hroute

/-! ## A site with a route of its own, and a site without a project -/

def crmPolicy : PolicyIn :=
  ⟨[⟨"crm", .webhook, true, none, some "https://crm.example.com/hook", some "0123456789abcdef"⟩],
    .replaceGlobal, true⟩

/-- The policy of the CRM is created, submitted and activated; there is no central transport. -/
def crmActivated : List Action :=
  [.create 1 7 crmPolicy, .next 1 1, .submit 1 7 1, .next 1 0] ++ activation 1 7 1 ⟨none, true⟩

theorem publish_routing_gate_crm :
    ∃ w, exec (step plainEnv) emptySite crmActivated = some w ∧
      centralLeadTransportReady w 1 = false ∧ LeadIsSent w 3 ⟨1, some 7⟩ 5 100 := by
  have hend : (exec (step plainEnv) emptySite crmActivated).map (fun w =>
      (centralLeadTransportReady w 1,
        decide (projectSiteOr409 w 7 ⟨1, some 3, false⟩ = .ok (3, ⟨1, some 7⟩)),
        decide (leadRoutingPublishBlockers w 3 ⟨1, some 7⟩ [["hero", "lead_form"]] = []),
        decide ((w.policies.get 1).map (fun p => (p.state, p.siteId, p.projectId))
          = some (.active, 3, 7))))
      = some (false, true, true, true) := by decide +kernel
  obtain ⟨w, hrun, hfacts⟩ := Option.map_eq_some_iff.mp hend
  simp only [Prod.mk.injEq] at hfacts
  obtain ⟨hready, hsite, hgate, hpolicy⟩ := hfacts
  obtain ⟨policy, hget, hfields⟩ := Option.map_eq_some_iff.mp (of_decide_eq_true hpolicy)
  simp only [Prod.mk.injEq] at hfields
  obtain ⟨hactive, hof, hproject⟩ := hfields
  refine ⟨w, hrun, hready, (publish_routing_gate emptySite_init hrun (of_decide_eq_true hsite)
    (by decide) (of_decide_eq_true hgate) rfl rfl 5 100).mpr (.inr ⟨1, policy, hget, hactive, hof, ?_⟩)⟩
  rw [hproject]

/-- A site that its project is linked to, but that has no project itself. -/
def unownedSite : World := { emptySite with
  sites := fun id => if id = 3 then some ⟨1, none⟩ else none }

/-- The gate lets the form pass, and the lead is dead from the start. -/
theorem publish_routing_gate_unowned :
    Init unownedSite ∧ projectSiteOr409 unownedSite 7 ⟨1, some 3, false⟩ = .ok (3, ⟨1, none⟩) ∧
      manifestHasLeadForm [["lead_form"]] = true ∧
      leadRoutingPublishBlockers unownedSite 3 ⟨1, none⟩ [["lead_form"]] = [] ∧
      (createLeadDeliveries unownedSite 3 ⟨1, none⟩ 5 100).map (·.row.status) = [.deadLetter] ∧
      ¬ LeadIsSent unownedSite 3 ⟨1, none⟩ 5 100 := by
  have hstatus : (createLeadDeliveries unownedSite 3 ⟨1, none⟩ 5 100).map (·.row.status)
      = [.deadLetter] := by decide
  refine ⟨⟨rfl, rfl, rfl⟩, by decide, by decide, by decide, hstatus, fun hsent => ?_⟩
  have hqueued : ∀ s ∈ (createLeadDeliveries unownedSite 3 ⟨1, none⟩ 5 100).map (·.row.status),
      s = .queued := by
    intro s hs
    obtain ⟨d, hd, rfl⟩ := List.mem_map.mp hs
    exact hsent.2 d hd
  rw [hstatus] at hqueued
  cases hqueued _ (List.mem_singleton_self _)

end MegaPanel.LeadRouting
