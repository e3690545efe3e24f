import MegaPanel.LeadIntake.Model
import MegaPanel.LeadRouting.Activation

set_option autoImplicit false

/-! # A public lead is stored once

A row that has been inserted keeps its key from all other requests, whether it is committed or not:
they find it, or wait for it (`Sound.keys`, `Fresh`). So among the requests with one site and key
one stores the lead, with its consent and the deliveries of the route that it has read, and the
others answer its id (`public_lead_exactly_once`).

Two kinds of requests are outside of it. A filled honeypot is answered with `"suppressed"`, and
nothing is stored. A lead that looks like spam is stored without deliveries.
-/

namespace MegaPanel.LeadIntake

open MegaPanel.Lib MegaPanel.LeadRouting
open MegaPanel.LeadDelivery (LeadId)

variable {env : IntakeEnv}

/-! ## The route of a lead -/

variable {site : Site} {id : LeadId} {now : Time}

/-- The target keys of the route that is in force. -/
def routeKeys (routing : LeadRouting.World) (siteId : SiteId) (site : Site) : List String :=
  match activeRoutingPolicy routing siteId site with
  | none => [reservedTargetKey]
  | some (_, policy) =>
    (if policy.deliveryMode = .appendGlobal then [reservedTargetKey] else []) ++
      policy.destinations.rows.map (·.targetKey)

theorem routeKeys_nodup (routing : LeadRouting.World) (siteId : SiteId) (site : Site) :
    (routeKeys routing siteId site).Nodup := by
  rw [routeKeys]
  split
  · exact List.nodup_singleton _
  · next id policy _ =>
    refine List.nodup_append.mpr ⟨?_, policy.destinations.keys_nodup, ?_⟩
    · split
      · exact List.nodup_singleton _
      · exact List.nodup_nil
    · intro key hkey other hother heq
      split at hkey
      · rw [List.mem_singleton.mp hkey] at heq
        exact policy.destinations.not_reserved (heq ▸ hother)
      · cases hkey

theorem createLeadDeliveries_keys (routing : LeadRouting.World) (siteId : SiteId) (site : Site)
    (id : LeadId) (now : Time) :
    (createLeadDeliveries routing siteId site id now).map (·.targetKey)
      = routeKeys routing siteId site := by
  rw [createLeadDeliveries, routeKeys]
  cases activeRoutingPolicy routing siteId site with
  | none => rfl
  | some found =>
    dsimp only
    rw [List.map_append, List.map_map]
    split
    · rfl
    · rfl

theorem createPolicyDelivery_leadId (now : Time) (id : LeadId)
    (transport : Option LeadDelivery.Transport) (d : LeadDelivery.Destination) :
    (LeadDelivery.createPolicyDelivery now id transport d).leadId = id := by
  rw [LeadDelivery.createPolicyDelivery]
  split
  · rfl
  · dsimp only
    split <;> rfl

theorem createLeadDeliveries_leadId {routing : LeadRouting.World} {siteId : SiteId}
    {d : RoutedDelivery} (h : d ∈ createLeadDeliveries routing siteId site id now) :
    d.row.leadId = id := by
  have hglobal : (createGlobalSmtpDelivery routing site id now).row.leadId = id := by
    rw [createGlobalSmtpDelivery]
    cases boundTransport routing site.tenantId with
    | none | some transport => rfl
  rw [createLeadDeliveries] at h
  split at h
  · rw [List.mem_singleton.mp h]
    exact hglobal
  · rcases List.mem_append.mp h with h | h
    · split at h
      · rw [List.mem_singleton.mp h]
        exact hglobal
      · cases h
    · obtain ⟨destination, _, rfl⟩ := List.mem_map.mp h
      exact createPolicyDelivery_leadId ..

/-! ## The history -/

/-- The successful answers, and the route that each lead has been given. -/
structure History where
  answers : List Answered
  routes : LeadId → List String

def History.empty : History := ⟨[], fun _ => []⟩

/-- What a route statement reads. -/
def routeRead (w : World) : Action → Option (LeadId × List String)
  | .route rid _ =>
    match w.requests.get rid with
    | some (.inserted id site lead) => some (id, routeKeys w.routing lead.siteId site)
    | _ => none
  | _ => none

def note (env : IntakeEnv) (w : World) (a : Action) (g : History) : History where
  answers := g.answers ++ (answerOf env w a).toList
  routes :=
    match routeRead w a with
    | some (id, keys) => Function.update g.routes id keys
    | none => g.routes

/-! ## The property -/

/-- The target keys of the deliveries that a lead should have. -/
def expectedKeys (g : History) (id : LeadId) (lead : Lead) : List String :=
  if lead.status = .spam then [] else g.routes id

/-- Leads, consents, deliveries and answers agree. -/
structure ExactlyOnce (env : IntakeEnv) (w : World) (g : History) : Prop where
  /-- There is one lead at most for a site and a key. -/
  unique : ∀ a b ra rb, w.leads.get a = some ra → w.leads.get b = some rb →
    ra.siteId = rb.siteId → ra.idempotencyKey = rb.idempotencyKey → a = b
  /-- A successful answer names the lead of its site and key. -/
  answered : ∀ x ∈ g.answers, ∀ id, x.answer.leadId = some id → ∃ lead,
    w.leads.get id = some lead ∧ lead.siteId = x.siteId ∧ lead.idempotencyKey = x.idempotencyKey
  /-- Every lead is that of a request that has succeeded. -/
  created : ∀ id lead, w.leads.get id = some lead →
    ⟨lead.siteId, lead.idempotencyKey, .created id⟩ ∈ g.answers
  /-- The consents are those of the leads, one for each. -/
  consents : w.consents = w.leads.rows.map (fun r => consentOf env r.2)
  /-- A lead has one delivery for each target key of its route. -/
  deliveries : ∀ id lead, w.leads.get id = some lead →
    (w.deliveries.filter (fun d => decide (d.row.leadId = id))).map (·.targetKey)
      = expectedKeys g id lead
  deliveries_nodup : (w.deliveries.map (fun d => (d.row.leadId, d.targetKey))).Nodup
  owned : ∀ d ∈ w.deliveries, w.leads.get d.row.leadId ≠ none

/-! ## Requests in flight -/

variable {w t : World} {g : History} {s : Session} {lead : Lead}

/-- The lead is of a site of its tenant. -/
def InScope (w : World) (lead : Lead) : Prop :=
  ∃ site, w.routing.sites lead.siteId = some site ∧ site.tenantId = lead.tenantId

/-- A row that has been inserted: its id and its key are not those of a committed one. -/
structure Fresh (w : World) (id : LeadId) (lead : Lead) : Prop where
  scope : InScope w lead
  free : w.leads.get id = none
  key : ∀ other row, w.leads.get other = some row → row.indexKey ≠ lead.indexKey

inductive InFlight (w : World) (g : History) : Session → Prop
  | checked (site : Site) (lead : Lead) (hscope : InScope w lead) :
      InFlight w g (.checked site lead)
  | inserted (id : LeadId) (site : Site) (lead : Lead) (hfresh : Fresh w id lead) :
      InFlight w g (.inserted id site lead)
  | conflicted (lead : Lead) : InFlight w g (.conflicted lead)
  | routed (id : LeadId) (lead : Lead) (deliveries : List RoutedDelivery) (hfresh : Fresh w id lead)
      (hids : ∀ d ∈ deliveries, d.row.leadId = id)
      (hkeys : deliveries.map (·.targetKey) = expectedKeys g id lead)
      (hnodup : (deliveries.map (·.targetKey)).Nodup) : InFlight w g (.routed id lead deliveries)

theorem InFlight.fresh {p : LeadId × Lead} (h : InFlight w g s) (hp : s.pending = some p) :
    Fresh w p.1 p.2 := by
  cases h with
  | checked | conflicted => cases hp
  | inserted id site lead hfresh =>
    cases hp
    exact hfresh
  | routed id lead deliveries hfresh =>
    cases hp
    exact hfresh

/-- The state of a request depends on the sites, on the rows with its id or key, and on its own
route. -/
theorem InFlight.mono {g' : History} (h : InFlight w g s)
    (hsites : t.routing.sites = w.routing.sites)
    (hfresh : ∀ p, s.pending = some p → Fresh t p.1 p.2)
    (hroutes : ∀ id lead ds, s = .routed id lead ds → g'.routes id = g.routes id) :
    InFlight t g' s := by
  cases h with
  | checked site lead hscope => exact .checked site lead (by rw [InScope, hsites]; exact hscope)
  | conflicted lead => exact .conflicted lead
  | inserted id site lead => exact .inserted id site lead (hfresh _ rfl)
  | routed id lead deliveries _ hids hkeys hnodup =>
    refine .routed id lead deliveries (hfresh _ rfl) hids ?_ hnodup
    rw [hkeys, expectedKeys, expectedKeys, hroutes id lead deliveries rfl]

theorem Fresh.mono (h : Fresh w id lead) (hsites : t.routing.sites = w.routing.sites)
    (hleads : t.leads = w.leads) : Fresh t id lead where
  scope := by rw [InScope, hsites]; exact h.scope
  free := by rw [hleads]; exact h.free
  key := by rw [hleads]; exact h.key

/-! ## The invariant -/

variable {rid : RequestId} {x : Answered} {ds : List RoutedDelivery}

structure Sound (env : IntakeEnv) (w : World) (g : History) : Prop where
  once : ExactlyOnce env w g
  scope : ∀ id lead, w.leads.get id = some lead → InScope w lead
  flight : ∀ rid s, w.requests.get rid = some s → InFlight w g s
  /-- Two rows that are not committed have different ids and keys. -/
  keys : ∀ r r' s s' p p', w.requests.get r = some s → w.requests.get r' = some s' →
    s.pending = some p → s'.pending = some p' →
    p.1 = p'.1 ∨ p.2.indexKey = p'.2.indexKey → r = r'

theorem Init.sound (h : Init w) : Sound env w .empty where
  once :=
    { unique := fun a b ra rb ha => by rw [h.leads] at ha; cases ha
      answered := fun x hx => by cases hx
      created := fun id lead hl => by rw [h.leads] at hl; cases hl
      consents := by rw [h.consents, h.leads]; rfl
      deliveries := fun id lead hl => by rw [h.leads] at hl; cases hl
      deliveries_nodup := by rw [h.deliveries]; exact List.nodup_nil
      owned := fun d hd => by rw [h.deliveries] at hd; cases hd }
  scope := fun id lead hl => by rw [h.leads] at hl; cases hl
  flight := fun rid s hs => by rw [h.requests] at hs; cases hs
  keys := fun r r' s s' p p' hr => by rw [h.requests] at hr; cases hr

/-- A step that commits nothing, and changes one request at most. -/
theorem Sound.same (rid : RequestId) (hs : Sound env w g)
    (hsites : t.routing.sites = w.routing.sites) (hleads : t.leads = w.leads)
    (hconsents : t.consents = w.consents) (hdeliveries : t.deliveries = w.deliveries)
    (hothers : ∀ other s, other ≠ rid → t.requests.get other = some s →
      w.requests.get other = some s) (hself : ∀ s, t.requests.get rid = some s → InFlight w g s)
    (hkeys : ∀ s p, t.requests.get rid = some s → s.pending = some p →
      ∀ other s' p', other ≠ rid → w.requests.get other = some s' → s'.pending = some p' →
        p.1 ≠ p'.1 ∧ p.2.indexKey ≠ p'.2.indexKey) : Sound env t g where
  once :=
    { unique := by rw [hleads]; exact hs.once.unique
      answered := by rw [hleads]; exact hs.once.answered
      created := by rw [hleads]; exact hs.once.created
      consents := by rw [hleads, hconsents]; exact hs.once.consents
      deliveries := by rw [hleads, hdeliveries]; exact hs.once.deliveries
      deliveries_nodup := by rw [hdeliveries]; exact hs.once.deliveries_nodup
      owned := by rw [hleads, hdeliveries]; exact hs.once.owned }
  scope := by
    intro id lead hl
    rw [hleads] at hl
    rw [InScope, hsites]
    exact hs.scope id lead hl
  flight := by
    have hmono : ∀ s, InFlight w g s → InFlight t g s := fun s h =>
      h.mono hsites (fun p hp => (h.fresh hp).mono hsites hleads) (fun _ _ _ _ => rfl)
    intro other s hother
    by_cases heq : other = rid
    · subst heq
      exact hmono s (hself s hother)
    · exact hmono s (hs.flight other s (hothers other s heq hother))
  keys := by
    intro r r' s s' p p' hr hr' hp hp' hsame
    by_cases heq : r = rid
    · by_cases heq' : r' = rid
      · exact heq.trans heq'.symm
      · subst heq
        obtain ⟨hid, hkey⟩ := hkeys s p hr hp r' s' p' heq' (hothers r' s' heq' hr') hp'
        rcases hsame with hsame | hsame
        · exact absurd hsame hid
        · exact absurd hsame hkey
    · by_cases heq' : r' = rid
      · subst heq'
        obtain ⟨hid, hkey⟩ := hkeys s' p' hr' hp' r s p heq (hothers r s heq hr) hp
        rcases hsame with hsame | hsame
        · exact absurd hsame.symm hid
        · exact absurd hsame.symm hkey
      · exact hs.keys r r' s s' p p' (hothers r s heq hr) (hothers r' s' heq' hr') hp hp' hsame

/-- A request goes on without a new row. -/
theorem Sound.setSession (hs : Sound env w g) (hself : InFlight w g s)
    (hkeys : ∀ p, s.pending = some p → ∀ other s' p', other ≠ rid →
      w.requests.get other = some s' → s'.pending = some p' →
        p.1 ≠ p'.1 ∧ p.2.indexKey ≠ p'.2.indexKey) : Sound env (w.setSession rid s) g := by
  refine hs.same rid rfl rfl rfl rfl (fun other s' hne hother => ?_) (fun s' hs' => ?_)
    (fun s' p hs' hp => ?_)
  · rwa [World.setSession, Table.get_set_ne _ hne] at hother
  · rw [World.setSession, Table.get_set_self] at hs'
    cases hs'
    exact hself
  · rw [World.setSession, Table.get_set_self] at hs'
    cases hs'
    exact hkeys p hp

theorem Sound.endSession (hs : Sound env w g) : Sound env (w.endSession rid) g := by
  have hgone : ∀ s, (w.endSession rid).requests.get rid ≠ some s :=
    fun s h => absurd rfl (Table.get_erase_eq_some.mp h).1
  refine hs.same rid rfl rfl rfl rfl (fun other s _ hother => (Table.get_erase_eq_some.mp hother).2)
    (fun s h => absurd h (hgone s)) (fun s p h => absurd h (hgone s))

/-- An answer that names the lead of its site and key. -/
theorem Sound.answer (hs : Sound env w g)
    (hx : ∀ id, x.answer.leadId = some id → ∃ lead, w.leads.get id = some lead ∧
      lead.siteId = x.siteId ∧ lead.idempotencyKey = x.idempotencyKey) :
    Sound env w { g with answers := g.answers ++ [x] } where
  once := { hs.once with
    answered := by
      intro y hy
      rcases List.mem_append.mp hy with hy | hy
      · exact hs.once.answered y hy
      · rw [List.mem_singleton.mp hy]
        exact hx
    created := fun id lead hl => List.mem_append_left _ (hs.once.created id lead hl)
    deliveries := hs.once.deliveries }
  scope := hs.scope
  flight := fun rid s h => (hs.flight rid s h).mono rfl (fun _ hp => (hs.flight rid s h).fresh hp)
    (fun _ _ _ _ => rfl)
  keys := hs.keys

/-- The route of a lead that a request has inserted is read. -/
theorem Sound.reroute (hs : Sound env w g)
    (hget : w.requests.get rid = some (.inserted id site lead)) (keys : List String) :
    Sound env w { g with routes := Function.update g.routes id keys } where
  once := { hs.once with
    created := hs.once.created
    answered := hs.once.answered
    deliveries := by
      intro other row hrow
      have hne : other ≠ id := by
        rintro rfl
        cases ((hs.flight rid _ hget).fresh rfl).free.symm.trans hrow
      have hroute : Function.update g.routes id keys other = g.routes other :=
        Function.update_of_ne hne _ _
      simp only [hs.once.deliveries other row hrow, expectedKeys, hroute] }
  scope := hs.scope
  flight := by
    intro other s hother
    have h := hs.flight other s hother
    refine h.mono rfl (fun _ hp => h.fresh hp) (fun id' lead' ds heq => ?_)
    subst heq
    refine Function.update_of_ne (fun hid => ?_) _ _
    cases hs.keys other rid _ _ _ _ hother hget rfl rfl (.inl hid)
    cases hother.symm.trans hget
  keys := hs.keys

theorem InScope.indexKey_eq {a b : Lead} (ha : InScope w a) (hb : InScope w b)
    (hsite : a.siteId = b.siteId) (hkey : a.idempotencyKey = b.idempotencyKey) :
    a.indexKey = b.indexKey := by
  obtain ⟨sa, hsa, hta⟩ := ha
  obtain ⟨sb, hsb, htb⟩ := hb
  rw [hsite] at hsa
  cases hsa.symm.trans hsb
  rw [Lead.indexKey, Lead.indexKey, ← hta, ← htb, hsite, hkey]

/-- The deliveries of a lead that has just been stored, and those of another one. -/
theorem deliveries_append {other : LeadId}
    (howned : ∀ d ∈ w.deliveries, w.leads.get d.row.leadId ≠ none) (hfree : w.leads.get id = none)
    (hids : ∀ d ∈ ds, d.row.leadId = id) :
    (w.deliveries ++ ds).filter (fun d => decide (d.row.leadId = other)) =
      if other = id then ds else w.deliveries.filter (fun d => decide (d.row.leadId = other)) := by
  rw [List.filter_append]
  split
  · next heq =>
    have hold : w.deliveries.filter (fun d => decide (d.row.leadId = other)) = [] := by
      rw [List.filter_eq_nil_iff]
      intro d hd hmatch
      have hlead : d.row.leadId = id := (of_decide_eq_true hmatch).trans heq
      exact howned d hd (hlead ▸ hfree)
    have hnew : ds.filter (fun d => decide (d.row.leadId = other)) = ds :=
      List.filter_eq_self.mpr (fun d hd => decide_eq_true ((hids d hd).trans heq.symm))
    rw [hold, hnew, List.nil_append]
  · next hne =>
    have hnew : ds.filter (fun d => decide (d.row.leadId = other)) = [] := by
      rw [List.filter_eq_nil_iff]
      intro d hd hmatch
      exact hne ((of_decide_eq_true hmatch).symm.trans (hids d hd))
    rw [hnew, List.append_nil]

theorem Sound.commit (hs : Sound env w g) (hget : w.requests.get rid = some (.routed id lead ds))
    (h : LeadIntake.commit env w rid id lead ds = some t) :
    Sound env t { g with
      answers := g.answers ++ [⟨lead.siteId, lead.idempotencyKey, .created id⟩] } := by
  rw [LeadIntake.commit] at h
  split at h
  · next hnodup =>
    cases h
    cases hs.flight rid _ hget with
    | routed _ _ _ hfresh hids hkeys _ =>
      have hstored : ∀ a row, (w.leads.set id lead).get a = some row →
          a = id ∧ row = lead ∨ a ≠ id ∧ w.leads.get a = some row := by
        intro a row hrow
        rw [Table.get_set] at hrow
        split at hrow
        · next heq => exact .inl ⟨heq, (Option.some.inj hrow).symm⟩
        · next hne => exact .inr ⟨hne, hrow⟩
      have hkept : ∀ a row, w.leads.get a = some row →
          (w.leads.set id lead).get a = some row := by
        intro a row hrow
        have hne : a ≠ id := by
          rintro rfl
          cases hfresh.free.symm.trans hrow
        exact (Table.get_set_ne _ hne _).trans hrow
      refine ⟨⟨?_, ?_, ?_, ?_, ?_, hnodup, ?_⟩, ?_, ?_, ?_⟩
      · intro a b ra rb ha hb hsite hkey
        rcases hstored a ra ha with ⟨rfl, rfl⟩ | ⟨_, ha'⟩
        · rcases hstored b rb hb with ⟨rfl, _⟩ | ⟨_, hb'⟩
          · rfl
          · exact absurd ((hs.scope b rb hb').indexKey_eq hfresh.scope hsite.symm hkey.symm)
              (hfresh.key b rb hb')
        · rcases hstored b rb hb with ⟨rfl, rfl⟩ | ⟨_, hb'⟩
          · exact absurd ((hs.scope a ra ha').indexKey_eq hfresh.scope hsite hkey)
              (hfresh.key a ra ha')
          · exact hs.once.unique a b ra rb ha' hb' hsite hkey
      · intro x hx j hj
        rcases List.mem_append.mp hx with hx | hx
        · obtain ⟨row, hrow, hfields⟩ := hs.once.answered x hx j hj
          exact ⟨row, hkept j row hrow, hfields⟩
        · rw [List.mem_singleton.mp hx] at hj ⊢
          cases hj
          exact ⟨lead, Table.get_set_self _ _ _, rfl, rfl⟩
      · intro a row hrow
        rcases hstored a row hrow with ⟨rfl, rfl⟩ | ⟨_, hrow⟩
        · exact List.mem_append_right _ (List.mem_singleton_self _)
        · exact List.mem_append_left _ (hs.once.created a row hrow)
      · change w.consents ++ [consentOf env lead] = _
        rw [hs.once.consents]
        change _ = (w.leads.set id lead).rows.map _
        rw [Table.rows_set_of_none hfresh.free, List.map_append]
        rfl
      · intro a row hrow
        change ((w.deliveries ++ ds).filter _).map _ = _
        rw [deliveries_append hs.once.owned hfresh.free hids]
        rcases hstored a row hrow with ⟨rfl, rfl⟩ | ⟨hne, hrow⟩
        · rw [if_pos rfl]
          exact hkeys
        · rw [if_neg hne]
          exact hs.once.deliveries a row hrow
      · intro d hd
        change (w.leads.set id lead).get d.row.leadId ≠ none
        rw [Table.get_set]
        split
        · exact nofun
        · next hne =>
          rcases List.mem_append.mp hd with hd | hd
          · exact hs.once.owned d hd
          · exact absurd (hids d hd) hne
      · intro a row hrow
        rcases hstored a row hrow with ⟨_, rfl⟩ | ⟨_, hrow⟩
        · exact hfresh.scope
        · exact hs.scope a row hrow
      · intro other s hother
        obtain ⟨hne, hother⟩ := Table.get_erase_eq_some.mp hother
        have hflight := hs.flight other s hother
        refine hflight.mono rfl (fun p hp => ?_) (fun _ _ _ _ => rfl)
        have hfresh' := hflight.fresh hp
        have hdiff : ¬ (p.1 = id ∨ p.2.indexKey = lead.indexKey) := fun hsame =>
          hne (hs.keys other rid _ _ _ _ hother hget hp rfl hsame)
        refine ⟨hfresh'.scope, ?_, fun a row hrow => ?_⟩
        · exact (Table.get_set_ne _ (fun hid => hdiff (.inl hid)) _).trans hfresh'.free
        · rcases hstored a row hrow with ⟨_, rfl⟩ | ⟨_, hrow⟩
          · exact fun hkey => hdiff (.inr hkey.symm)
          · exact hfresh'.key a row hrow
      · intro r r' s s' p p' hr hr'
        exact hs.keys r r' s s' p p' (Table.get_erase_eq_some.mp hr).2
          (Table.get_erase_eq_some.mp hr').2
  · cases h

/-! ## Steps -/

variable {a : Action}

theorem leadWithKey_eq_some (h : w.leadWithKey lead = some id) :
    ∃ row, w.leads.get id = some row ∧ row.indexKey = lead.indexKey := by
  obtain ⟨⟨j, row⟩, hfind, rfl⟩ := Option.map_eq_some_iff.mp h
  have hmatch := List.find?_some hfind
  exact ⟨row, Table.mem_rows.mp (List.mem_of_find?_eq_some hfind), of_decide_eq_true hmatch⟩

theorem leadWithKey_eq_none (h : w.leadWithKey lead = none) (id : LeadId) (row : Lead)
    (hrow : w.leads.get id = some row) : row.indexKey ≠ lead.indexKey := by
  intro hkey
  have hall := List.find?_eq_none.mp (Option.map_eq_none_iff.mp h)
  exact hall (id, row) (Table.mem_rows.mpr hrow) (decide_eq_true hkey)

theorem checkPublicLead_scope {body : PublicLeadIn} {arrival : Arrival}
    (h : checkPublicLead env w body arrival = .ok (some (site, lead))) : InScope w lead := by
  rw [checkPublicLead] at h
  split at h
  · cases h
  split at h
  · cases h
  split at h
  · cases h
  split at h
  · cases h
  split at h
  · cases h
  · next hsite =>
    split at h
    · cases h
      exact ⟨site, (Option.filter_eq_some_iff.mp hsite).1, rfl⟩
    · cases h

theorem Sound.insert (hs : Sound env w g) (hscope : InScope w lead)
    (h : LeadIntake.insert w rid id site lead = some t) : Sound env t g := by
  rw [LeadIntake.insert] at h
  split at h
  · cases h
    exact hs.setSession (.conflicted lead) nofun
  · next hnone =>
    split_ifs at h with hfree
    cases h
    rw [not_or] at hfree
    obtain ⟨hkey, hid⟩ := hfree
    have hfresh : Fresh w id lead := by
      refine ⟨hscope, not_not.mp (fun hne => hid (.inl hne)), ?_⟩
      exact leadWithKey_eq_none (Option.not_isSome_iff_eq_none.mp hnone)
    refine hs.setSession (.inserted id site lead hfresh) (fun p hp other s' p' hne hs' hp' => ?_)
    cases hp
    have hmem := Table.mem_rows.mpr hs'
    exact ⟨fun heq => hid (.inr ⟨_, hmem, p', hp', heq.symm⟩),
      fun heq => hkey ⟨_, hmem, hne, p', hp', heq.symm⟩⟩

theorem note_none (hanswer : answerOf env w a = none) (hroute : routeRead w a = none) :
    note env w a g = g := by
  rw [note, hanswer, hroute]
  exact congrArg (fun answers => History.mk answers g.routes) (List.append_nil _)

theorem note_answer (hanswer : answerOf env w a = some x) (hroute : routeRead w a = none) :
    note env w a g = { g with answers := g.answers ++ [x] } := by
  rw [note, hanswer, hroute]
  rfl

theorem note_route (hget : w.requests.get rid = some (.inserted id site lead)) :
    note env w (.route rid now) g =
      { g with routes := Function.update g.routes id (routeKeys w.routing lead.siteId site) } := by
  have hroute : routeRead w (.route rid now)
      = some (id, routeKeys w.routing lead.siteId site) := by
    rw [routeRead, hget]
  rw [note, hroute]
  exact congrArg (fun answers => History.mk answers _) (List.append_nil _)

theorem Sound.step (hs : Sound env w g) (h : LeadIntake.step env w a = some t) :
    Sound env t (note env w a g) := by
  cases a with
  | routing a =>
    obtain ⟨routing, hrouting, rfl⟩ := Option.map_eq_some_iff.mp h
    rw [note_none rfl rfl]
    exact hs.same 0 (step_sites hrouting) rfl rfl rfl (fun _ _ _ hother => hother)
      (hs.flight 0) (fun s p hget hp other s' p' hne hother hp' =>
        not_or.mp (fun hsame => hne (hs.keys other 0 _ _ _ _ hother hget hp' hp
          (hsame.imp Eq.symm Eq.symm))))
  | submit rid body arrival =>
    simp only [LeadIntake.step] at h
    split at h
    · next hfree =>
      cases hcheck : checkPublicLead env w body arrival with
      | error e =>
        rw [hcheck] at h
        cases h
        rw [note_none (by simp [answerOf, hcheck]) rfl]
        exact hs
      | ok checked =>
        rw [hcheck] at h
        cases checked with
        | none =>
          cases h
          rw [note_answer (by rw [answerOf, if_pos ⟨hfree, hcheck⟩]) rfl]
          exact hs.answer nofun
        | some found =>
          cases h
          rw [note_none (by simp [answerOf, hcheck]) rfl]
          exact hs.setSession (.checked _ _ (checkPublicLead_scope hcheck)) nofun
    · cases h
  | insert rid id =>
    rw [note_none rfl rfl]
    simp only [LeadIntake.step] at h
    split at h
    · next site lead hget =>
      cases hs.flight rid _ hget with
      | checked _ _ hscope => exact hs.insert hscope h
    · cases h
  | lookUp rid =>
    simp only [LeadIntake.step] at h
    split at h
    · next lead hget =>
      obtain ⟨id, hfind, rfl⟩ := Option.map_eq_some_iff.mp h
      obtain ⟨row, hrow, hkey⟩ := leadWithKey_eq_some hfind
      rw [Lead.indexKey, Lead.indexKey, Prod.mk.injEq, Prod.mk.injEq] at hkey
      rw [note_answer (x := ⟨lead.siteId, lead.idempotencyKey, .deduped id⟩)
        (by rw [answerOf, hget]; dsimp only; rw [hfind]; rfl) rfl]
      refine (hs.answer (fun j hj => ?_)).endSession
      cases hj
      exact ⟨row, hrow, hkey.2.1, hkey.2.2⟩
    · cases h
  | route rid now =>
    simp only [LeadIntake.step] at h
    split at h
    · next id site lead hget =>
      cases h
      rw [note_route hget]
      have hreroute := hs.reroute hget (routeKeys w.routing lead.siteId site)
      have hfresh := (hs.flight rid _ hget).fresh rfl
      refine hreroute.setSession (.routed id lead _ hfresh (fun d hd => ?_) ?_ ?_)
        (fun p hp other s' p' hne hother hp' => ?_)
      · rw [leadDeliveries] at hd
        split at hd
        · cases hd
        · exact createLeadDeliveries_leadId hd
      · rw [leadDeliveries, expectedKeys]
        split
        · rfl
        rw [createLeadDeliveries_keys]
        show _ = Function.update g.routes id _ id
        rw [Function.update_self]
      · rw [leadDeliveries]
        split
        · exact List.nodup_nil
        · rw [createLeadDeliveries_keys]
          exact routeKeys_nodup ..
      · cases hp
        exact not_or.mp (fun hsame => hne (hs.keys other rid _ _ _ _ hother hget hp' rfl
          (hsame.imp Eq.symm Eq.symm)))
    · cases h
  | commit rid =>
    simp only [LeadIntake.step] at h
    split at h
    · next id lead ds hget =>
      rw [note_answer (x := ⟨lead.siteId, lead.idempotencyKey, .created id⟩)
        (by rw [answerOf, hget]) rfl]
      exact hs.commit hget h
    · cases h
  | fail rid =>
    obtain ⟨s, _, rfl⟩ := Option.map_eq_some_iff.mp h
    rw [note_none rfl rfl]
    exact hs.endSession

/-! ## The theorem -/

/-- **Public lead exactly once.** In every run of lead requests with steps of the routing requests
in between: a site and a key have one lead at most, whose consent and deliveries are there once,
one delivery for each target key of the route that was read for it; every successful answer that
names a lead names that of its site and key; every row belongs to a request that has succeeded; and
the commit of a request that has come so far is not refused. -/
theorem public_lead_exactly_once {w₀ w : World} {g : History} {run : List Action}
    (hinit : Init w₀) (hrun : exec (withGhost (step env) (note env)) (w₀, .empty) run = some (w, g)) :
    ExactlyOnce env w g ∧ ∀ rid id lead ds, w.requests.get rid = some (.routed id lead ds) →
      (step env w (.commit rid)).isSome := by
  have hkept : ∀ (s : World × History) (a : Action) (u : World × History),
      Sound env s.1 s.2 → True → withGhost (step env) (note env) s a = some u →
      Sound env u.1 u.2 := by
    rintro s a ⟨u, g'⟩ hs _ hstep
    obtain ⟨hu, rfl⟩ := withGhost_eq_some.mp hstep
    exact hs.step hu
  have hsound : Sound env w g := exec_invariant (G := fun _ _ _ => True) hkept hinit.sound
    (along_of_forall (Q := fun _ => True) (fun _ _ => trivial) _) hrun
  refine ⟨hsound.once, fun rid id lead ds hget => ?_⟩
  cases hsound.flight rid _ hget with
  | routed _ _ _ hfresh hids _ hnodup =>
    have hcommit : ((w.deliveries ++ ds).map (fun d => (d.row.leadId, d.targetKey))).Nodup := by
      rw [List.map_append]
      refine List.nodup_append.mpr ⟨hsound.once.deliveries_nodup, ?_, ?_⟩
      · refine List.Nodup.of_map Prod.snd ?_
        rw [List.map_map]
        exact hnodup
      · intro x hx y hy heq
        obtain ⟨d, hd, rfl⟩ := List.mem_map.mp hx
        obtain ⟨d', hd', rfl⟩ := List.mem_map.mp hy
        have hid : d.row.leadId = id := (congrArg Prod.fst heq).trans (hids d' hd')
        exact hsound.once.owned d hd (hid ▸ hfresh.free)
    simp only [step, hget, commit, if_pos hcommit, Option.isSome_some]

/-! ## A lead that is sent twice, a honeypot and spam -/

def plainIntake : IntakeEnv := { plainEnv with blindIndex := fun text => "b:" ++ text }

/-- One site, without policies. -/
def formSite : World where
  routing := emptySite
  leadTokens := fun _ => "token"
  leads := Table.empty
  consents := []
  deliveries := []
  requests := Table.empty

theorem formSite_init : Init formSite := ⟨emptySite_init, rfl, rfl, rfl, rfl⟩

/-- The body of a form that has been open for a minute. -/
def form (message website : Option String) : PublicLeadIn where
  siteId := 3
  leadToken := "token"
  phone := "+70000000000"
  email := none
  name := none
  message := message
  pageSlug := none
  website := website
  formTs := 40
  idempotencyKey := "0123456789abcdef"
  utm := "\x7b\x7d"
  consent := true

def visit : Arrival := ⟨false, "203.0.113.7", 100, true⟩

/-- The second request comes while the first one is in progress. -/
def sentTwice : List Action :=
  [.submit 1 (form none none) visit, .submit 2 (form none none) visit, .insert 1 11,
    .route 1 100, .commit 1, .insert 2 12, .lookUp 2]

theorem public_lead_exactly_once_sentTwice :
    ∃ w g, exec (withGhost (step plainIntake) (note plainIntake)) (formSite, .empty) sentTwice
        = some (w, g) ∧
      g.answers.map (·.answer) = [.created 11, .deduped 11] ∧ w.leads.keys = [11] ∧
      ExactlyOnce plainIntake w g := by
  have hend : (exec (withGhost (step plainIntake) (note plainIntake)) (formSite, .empty)
      sentTwice).map (fun s => (s.2.answers.map (·.answer), s.1.leads.keys))
      = some ([.created 11, .deduped 11], [11]) := by decide +kernel
  obtain ⟨⟨w, g⟩, hrun, hfacts⟩ := Option.map_eq_some_iff.mp hend
  rw [Prod.mk.injEq] at hfacts
  exact ⟨w, g, hrun, hfacts.1, hfacts.2, (public_lead_exactly_once formSite_init hrun).1⟩

/-- A filled honeypot is answered with success, and there is no lead. A lead that looks like spam
has no deliveries, though the site has a route. -/
theorem public_lead_exactly_once_suppressed :
    (exec (withGhost (step plainIntake) (note plainIntake)) (formSite, .empty)
        [.submit 1 (form none (some "https://spam.example")) visit]).map
          (fun s => (s.2.answers.map (·.answer), s.1.leads.keys)) = some ([.suppressed], []) ∧
      (exec (withGhost (step plainIntake) (note plainIntake)) (formSite, .empty)
        [.submit 1 (form (some "crypto") none) visit, .insert 1 11, .route 1 100, .commit 1]).map
          (fun s => (s.2.answers.map (·.answer), s.2.routes 11, s.1.deliveries))
        = some ([.created 11], [reservedTargetKey], []) := by
  constructor
  · decide +kernel
  · decide +kernel

end MegaPanel.LeadIntake
