import MegaPanel.LeadRouting.Model

set_option autoImplicit false

/-! # Activation of a routing policy

One policy of a site at most is active, because of the index, and a policy that has been rejected or
superseded stays so: a request locks the rows before it looks at their states, and writes them with
the locks (`InFlight`).

An activation updates two rows, the policy that was active and the one that is going to be. The
flush updates them in the order of their ids, and the index is checked by every statement. If the
new id is the smaller one, two policies of the site are active between the two statements, and the
request fails. Ids are random (`routing_activation`).
-/

namespace MegaPanel.LeadRouting

open MegaPanel.Lib

variable {env : Env}

/-! ## Updates -/

variable {policies : Table PolicyId Policy} {id : PolicyId} {row : Policy} {u : PolicyId × Policy}
  {updates : List (PolicyId × Policy)}

/-- Two active policies are of different sites. -/
def OneActive (policies : Table PolicyId Policy) : Prop :=
  ∀ a b ra rb, policies.get a = some ra → policies.get b = some rb → ra.state = .active →
    rb.state = .active → ra.siteId = rb.siteId → a = b

theorem updateRow_eq_some {t : Table PolicyId Policy} :
    updateRow policies id row = some t ↔ t = policies.set id row ∧
      (row.state = .active → ∀ a ra, policies.get a = some ra → a ≠ id → ra.state = .active →
        ra.siteId ≠ row.siteId) := by
  rw [updateRow]
  split
  · next h =>
    obtain ⟨hactive, r, hr, hne, hstate, hsite⟩ := h
    refine ⟨nofun, fun hall => ?_⟩
    exact absurd hsite (hall.2 hactive r.1 r.2 (Table.mem_rows.mp hr) hne hstate)
  · next h =>
    rw [Option.some.injEq]
    constructor
    · rintro rfl
      refine ⟨rfl, fun hactive a ra ha hne hstate hsite => h ⟨hactive, (a, ra), ?_⟩⟩
      exact ⟨Table.mem_rows.mpr ha, hne, hstate, hsite⟩
    · rintro ⟨rfl, _⟩
      rfl

theorem updateRow_oneActive {t : Table PolicyId Policy} (h : OneActive policies)
    (hupdate : updateRow policies id row = some t) : OneActive t := by
  obtain ⟨rfl, hindex⟩ := updateRow_eq_some.mp hupdate
  intro a b ra rb ha hb hra hrb hsite
  by_cases haid : a = id
  · by_cases hbid : b = id
    · exact haid.trans hbid.symm
    · rw [haid, Table.get_set_self] at ha
      rw [Table.get_set_ne _ hbid] at hb
      cases ha
      exact absurd hsite.symm (hindex hra b rb hb hbid hrb)
  · rw [Table.get_set_ne _ haid] at ha
    by_cases hbid : b = id
    · rw [hbid, Table.get_set_self] at hb
      cases hb
      exact absurd hsite (hindex hrb a ra ha haid hra)
    · rw [Table.get_set_ne _ hbid] at hb
      exact h a b ra rb ha hb hra hrb hsite

/-- The statements of a flush, whatever their order. -/
def runUpdates (policies : Table PolicyId Policy) (updates : List (PolicyId × Policy)) :
    Option (Table PolicyId Policy) :=
  updates.foldlM (fun t u => updateRow t u.1 u.2) policies

theorem runUpdates_cons {t : Table PolicyId Policy} {us : List (PolicyId × Policy)} :
    runUpdates policies (u :: us) = some t ↔
      ∃ p, updateRow policies u.1 u.2 = some p ∧ runUpdates p us = some t := by
  rw [runUpdates, List.foldlM_cons]
  exact Option.bind_eq_some_iff

theorem runUpdates_oneActive {t : Table PolicyId Policy} (h : OneActive policies)
    (hrun : runUpdates policies updates = some t) : OneActive t := by
  induction updates generalizing policies with
  | nil =>
    cases hrun
    exact h
  | cons u us ih =>
    obtain ⟨p, hp, hrest⟩ := runUpdates_cons.mp hrun
    exact ih (updateRow_oneActive h hp) hrest

/-- A row after the updates is one of them, or the row that was there. -/
theorem runUpdates_get {t : Table PolicyId Policy} (hrun : runUpdates policies updates = some t)
    (id : PolicyId) :
    (∃ u ∈ updates, u.1 = id ∧ t.get id = some u.2) ∨
      ((∀ u ∈ updates, u.1 ≠ id) ∧ t.get id = policies.get id) := by
  induction updates generalizing policies with
  | nil =>
    cases hrun
    exact .inr ⟨nofun, rfl⟩
  | cons u us ih =>
    obtain ⟨p, hp, hrest⟩ := runUpdates_cons.mp hrun
    rcases ih hrest with ⟨v, hv, hid, hget⟩ | ⟨hother, hget⟩
    · exact .inl ⟨v, List.mem_cons_of_mem _ hv, hid, hget⟩
    obtain ⟨rfl, _⟩ := updateRow_eq_some.mp hp
    by_cases hu : u.1 = id
    · refine .inl ⟨u, List.mem_cons_self .., hu, ?_⟩
      rw [hget, ← hu, Table.get_set_self]
    · refine .inr ⟨fun v hv => ?_, ?_⟩
      · rcases List.mem_cons.mp hv with rfl | hv
        · exact hu
        · exact hother v hv
      · rw [hget, Table.get_set_ne _ (Ne.symm hu)]

theorem flush_eq (policies : Table PolicyId Policy) (updates : List (PolicyId × Policy)) :
    flush policies updates
      = runUpdates policies (updates.insertionSort (fun a b => a.1 ≤ b.1)) := rfl

theorem flush_get {policies t : Table PolicyId Policy} {updates : List (PolicyId × Policy)}
    (h : flush policies updates = some t) (id : PolicyId) :
    (∃ u ∈ updates, u.1 = id ∧ t.get id = some u.2) ∨
      ((∀ u ∈ updates, u.1 ≠ id) ∧ t.get id = policies.get id) := by
  have hmem := fun u : PolicyId × Policy =>
    List.mem_insertionSort (fun a b : PolicyId × Policy => a.1 ≤ b.1) (l := updates) (x := u)
  rcases runUpdates_get h id with ⟨u, hu, hid⟩ | ⟨hother, hget⟩
  · exact .inl ⟨u, (hmem u).mp hu, hid⟩
  · exact .inr ⟨fun u hu => hother u ((hmem u).mpr hu), hget⟩

/-! ## Requests in flight -/

variable {w t : World} {sid : SessionId} {s : Session}

/-- The policy is of a site of its tenant. -/
def InScope (w : World) (row : Policy) : Prop :=
  ∃ site, w.sites row.siteId = some site ∧ site.tenantId = row.tenantId

/-- A row that the request has locked. -/
structure Locked (w : World) (sid : SessionId) (id : PolicyId) (row : Policy) : Prop where
  lock : w.locks.get id = some sid
  stored : w.policies.get id = some row

/-- What is known of a request between two of its statements. -/
inductive InFlight (w : World) (sid : SessionId) : Session → Prop
  | creating (row : Policy) (hstate : row.state = .draft) (hscope : InScope w row) :
      InFlight w sid (.creating row)
  | submitting (id : PolicyId) (row : Policy) (hrow : Locked w sid id row)
      (hstate : row.state = .draft) : InFlight w sid (.submitting id)
  | rejecting (id : PolicyId) (reason : String) (row : Policy) (hrow : Locked w sid id row)
      (hstate : row.state = .review) : InFlight w sid (.rejecting id reason)
  | activating (id : PolicyId) (reason : Option String) (row : Policy)
      (hrow : Locked w sid id row) (hstate : row.state = .review) :
      InFlight w sid (.activating id row.siteId reason)
  | finding (id : PolicyId) (reason : Option String) (candidate : Option PolicyId) (row : Policy)
      (hrow : Locked w sid id row) (hstate : row.state = .review) :
      InFlight w sid (.finding id row.siteId reason candidate)
  | found (id : PolicyId) (reason : Option String) (active : Option PolicyId) (row : Policy)
      (hrow : Locked w sid id row) (hstate : row.state = .review)
      (hactive : ∀ a, active = some a → ∃ old, Locked w sid a old ∧ old.state = .active
        ∧ old.siteId = row.siteId) :
      InFlight w sid (.found id reason active)

theorem InFlight.mono (h : InFlight w sid s) (hsites : t.sites = w.sites)
    (hlocked : ∀ id row, Locked w sid id row → Locked t sid id row) : InFlight t sid s := by
  cases h with
  | creating row hstate hscope =>
    exact .creating row hstate (by rw [InScope, hsites]; exact hscope)
  | submitting id row hrow hstate => exact .submitting id row (hlocked id row hrow) hstate
  | rejecting id reason row hrow hstate =>
    exact .rejecting id reason row (hlocked id row hrow) hstate
  | activating id reason row hrow hstate =>
    exact .activating id reason row (hlocked id row hrow) hstate
  | finding id reason candidate row hrow hstate =>
    exact .finding id reason candidate row (hlocked id row hrow) hstate
  | found id reason active row hrow hstate hactive =>
    refine .found id reason active row (hlocked id row hrow) hstate (fun a ha => ?_)
    obtain ⟨old, hold, hrest⟩ := hactive a ha
    exact ⟨old, hlocked a old hold, hrest⟩

/-! ## The invariant -/

variable {other : SessionId}

/-- A policy that has been rejected or superseded stays so. -/
def KeepsFinal (w t : World) : Prop :=
  ∀ id row, w.policies.get id = some row → row.state = .rejected ∨ row.state = .superseded →
    ∃ row', t.policies.get id = some row' ∧ row'.state = row.state

theorem KeepsFinal.of_eq (h : t.policies = w.policies) : KeepsFinal w t :=
  fun _ row hrow _ => ⟨row, by rw [h, hrow], rfl⟩

structure Sound (w : World) : Prop where
  oneActive : OneActive w.policies
  scope : ∀ id row, w.policies.get id = some row → InScope w row
  flight : ∀ sid s, w.sessions.get sid = some s → InFlight w sid s
  open' : ∀ id sid, w.locks.get id = some sid → w.sessions.get sid ≠ none

theorem Init.sound (h : Init w) : Sound w where
  oneActive := fun a b ra rb ha => by rw [h.policies] at ha; cases ha
  scope := fun id row hrow => by rw [h.policies] at hrow; cases hrow
  flight := fun sid s hs => by rw [h.sessions] at hs; cases hs
  open' := fun id sid hl => by rw [h.locks] at hl; cases hl

/-- A step that writes no policy. -/
theorem Sound.same (sid : SessionId) (hs : Sound w) (hsites : t.sites = w.sites)
    (hpolicies : t.policies = w.policies)
    (hothers : ∀ other s, other ≠ sid → t.sessions.get other = some s →
      w.sessions.get other = some s)
    (hlocks : ∀ other id, other ≠ sid → w.locks.get id = some other → t.locks.get id = some other)
    (hself : ∀ s, t.sessions.get sid = some s → InFlight t sid s)
    (hopen : ∀ id sid, t.locks.get id = some sid → t.sessions.get sid ≠ none) : Sound t where
  oneActive := hpolicies ▸ hs.oneActive
  scope := by
    intro id row hrow
    rw [hpolicies] at hrow
    rw [InScope, hsites]
    exact hs.scope id row hrow
  flight := by
    intro other s hother
    by_cases heq : other = sid
    · subst heq
      exact hself s hother
    · refine (hs.flight other s (hothers other s heq hother)).mono hsites (fun id row hl => ?_)
      exact ⟨hlocks other id heq hl.lock, by rw [hpolicies]; exact hl.stored⟩
  open' := hopen

theorem Sound.setSession (hs : Sound w) (hself : InFlight (w.setSession sid s) sid s) :
    Sound (w.setSession sid s) := by
  refine hs.same sid rfl rfl (fun other s' hne hother => ?_) (fun _ _ _ hl => hl)
    (fun s' hs' => ?_) (fun id other hl => ?_)
  · rwa [World.setSession, Table.get_set_ne _ hne] at hother
  · rw [World.setSession, Table.get_set_self] at hs'
    cases hs'
    exact hself
  · rw [World.setSession, Table.get_set]
    split
    · exact nofun
    · exact hs.open' id other hl

theorem Sound.lockRow (hs : Sound w) (hfree : w.locks.get id = none ∨ w.locks.get id = some sid)
    (hself : InFlight (w.lockRow sid id s) sid s) : Sound (w.lockRow sid id s) := by
  refine hs.same sid rfl rfl (fun other s' hne hother => ?_) (fun other j hne hl => ?_)
    (fun s' hs' => ?_) (fun j other hl => ?_)
  · rwa [World.lockRow, World.setSession, Table.get_set_ne _ hne] at hother
  · have hj : j ≠ id := by
      rintro rfl
      rcases hfree with hfree | hfree
      · rw [hfree] at hl
        cases hl
      · exact hne (Option.some.inj (hl.symm.trans hfree))
    rw [World.lockRow, Table.get_set_ne _ hj, hl]
  · rw [World.lockRow, World.setSession, Table.get_set_self] at hs'
    cases hs'
    exact hself
  · rw [World.lockRow, World.setSession, Table.get_set]
    split
    · exact nofun
    · next hne =>
      rw [World.lockRow, Table.get_set] at hl
      split at hl
      · exact absurd (Option.some.inj hl).symm hne
      · exact hs.open' j other hl

theorem get_endSession (h : (w.endSession sid).sessions.get other = some s) :
    other ≠ sid ∧ w.sessions.get other = some s := Table.get_erase_eq_some.mp h

theorem lock_endSession :
    (w.endSession sid).locks.get id = some other ↔ w.locks.get id = some other ∧ other ≠ sid := by
  rw [World.endSession, Table.get_deleteWhere]
  by_cases h : w.locks.get id = some sid
  · rw [if_pos (by simpa using h), h]
    exact ⟨nofun, fun hboth => absurd (Option.some.inj hboth.1).symm hboth.2⟩
  · rw [if_neg (by simpa using h)]
    refine ⟨fun hl => ⟨hl, ?_⟩, fun hboth => hboth.1⟩
    rintro rfl
    exact h hl

theorem Sound.open_endSession (hs : Sound w) (id : PolicyId) (other : SessionId)
    (hl : (w.endSession sid).locks.get id = some other) :
    (w.endSession sid).sessions.get other ≠ none := by
  obtain ⟨hl, hne⟩ := lock_endSession.mp hl
  rw [World.endSession, Table.get_erase_ne _ hne]
  exact hs.open' id other hl

theorem Sound.endSession (hs : Sound w) : Sound (w.endSession sid) := by
  refine hs.same sid rfl rfl (fun other s _ hother => (get_endSession hother).2)
    (fun other id hne hl => lock_endSession.mpr ⟨hl, hne⟩) (fun s hself => ?_) hs.open_endSession
  exact absurd rfl (get_endSession hself).1

/-- A request commits updates of rows that it has locked, none of them in a final state. -/
theorem Sound.commit (hs : Sound w) (h : w.commit sid updates = some t)
    (hrows : ∀ u ∈ updates, ∃ old, Locked w sid u.1 old ∧ u.2.siteId = old.siteId
      ∧ u.2.tenantId = old.tenantId ∧ old.state ≠ .rejected ∧ old.state ≠ .superseded) :
    Sound t ∧ KeepsFinal w t := by
  obtain ⟨policies, hflush, rfl⟩ := Option.map_eq_some_iff.mp h
  have hget := flush_get hflush
  refine ⟨⟨runUpdates_oneActive hs.oneActive hflush, fun id row hrow => ?_,
    fun other s hother => ?_, hs.open_endSession⟩, fun id row hrow hfinal => ?_⟩
  · rcases hget id with ⟨u, hu, rfl, hnew⟩ | ⟨_, hold⟩
    · obtain ⟨old, hlocked, hsite, htenant, _⟩ := hrows u hu
      cases hrow.symm.trans hnew
      rw [InScope, hsite, htenant]
      exact hs.scope _ old hlocked.stored
    · exact hs.scope id row (hold.symm.trans hrow)
  · obtain ⟨hne, hother⟩ := get_endSession hother
    refine (hs.flight other s hother).mono rfl (fun id row hl => ?_)
    refine ⟨lock_endSession.mpr ⟨hl.lock, hne⟩, ?_⟩
    rcases hget id with ⟨u, hu, rfl, _⟩ | ⟨_, hold⟩
    · obtain ⟨old, hlocked, _⟩ := hrows u hu
      exact absurd (Option.some.inj (hl.lock.symm.trans hlocked.lock)) hne
    · exact hold.trans hl.stored
  · rcases hget id with ⟨u, hu, rfl, _⟩ | ⟨_, hold⟩
    · obtain ⟨old, hlocked, _, _, hrejected, hsuperseded⟩ := hrows u hu
      cases hrow.symm.trans hlocked.stored
      rcases hfinal with hfinal | hfinal
      · exact absurd hfinal hrejected
      · exact absurd hfinal hsuperseded
    · exact ⟨row, hold.trans hrow, rfl⟩

/-! ## The checks -/

variable {projectId : ProjectId} {siteId : SiteId} {body : DecisionIn}

theorem projectSite_scope {project : Project}
    (h : projectSite w projectId = .ok (project, siteId)) :
    ∃ site, w.sites siteId = some site ∧ site.tenantId = project.tenantId := by
  rw [projectSite] at h
  split at h
  · cases h
  split at h
  · cases h
  split at h
  · cases h
  · next site hsite =>
    cases h
    obtain ⟨hget, htenant⟩ := Option.filter_eq_some_iff.mp hsite
    exact ⟨site, hget, of_decide_eq_true htenant⟩

theorem newPolicy_spec {body : PolicyIn} (h : newPolicy env w projectId body = .ok row) :
    row.state = .draft ∧ InScope w row := by
  rw [newPolicy] at h
  split at h
  · cases h
  · next hsite =>
    split at h
    · cases h
    · cases h
      exact ⟨rfl, projectSite_scope hsite⟩

theorem checkSubmit_spec (h : checkSubmit w projectId id = .ok ()) :
    ∃ row, w.policies.get id = some row ∧ row.state = .draft := by
  rw [checkSubmit] at h
  split at h
  · cases h
  split at h
  · cases h
  · next row hrow =>
    split_ifs at h
    next hstate => exact ⟨row, (Option.filter_eq_some_iff.mp hrow).1, not_not.mp hstate⟩

theorem checkReject_spec {reason : String} (h : checkReject w projectId id body = .ok reason) :
    ∃ row, w.policies.get id = some row ∧ row.state = .review := by
  rw [checkReject] at h
  split at h
  · cases h
  split at h
  · cases h
  · next row hrow =>
    obtain ⟨hget, hstate⟩ := Option.filter_eq_some_iff.mp hrow
    exact ⟨row, hget, of_decide_eq_true (Bool.and_eq_true_iff.mp hstate).2⟩

theorem checkActivate_spec (h : checkActivate w projectId id body = .ok siteId) :
    ∃ row, w.policies.get id = some row ∧ row.state = .review ∧ row.siteId = siteId := by
  rw [checkActivate] at h
  split at h
  · cases h
  split at h
  · cases h
  · next row hrow =>
    obtain ⟨hget, hmatch⟩ := Option.filter_eq_some_iff.mp hrow
    have hsite := of_decide_eq_true (Bool.and_eq_true_iff.mp hmatch).2
    dsimp only at h
    split at h
    · cases h
    · next hstate =>
      split at h
      · cases h
      split at h
      · cases h
      split at h
      · cases h
      · cases h
        exact ⟨row, hget, not_not.mp hstate, hsite⟩

/-! ## Steps -/

theorem activationUpdates_mem {reason : Option String} {active : Option PolicyId}
    (h : u ∈ activationUpdates w id row reason active) :
    (u.1 = id ∧ u.2.siteId = row.siteId ∧ u.2.tenantId = row.tenantId) ∨
      ∃ a old, active = some a ∧ w.policies.get a = some old ∧ u.1 = a
        ∧ u.2.siteId = old.siteId ∧ u.2.tenantId = old.tenantId := by
  rw [activationUpdates] at h
  dsimp only at h
  split at h
  · rw [List.mem_singleton.mp h]
    exact .inl ⟨rfl, rfl, rfl⟩
  · next a old hold =>
    obtain ⟨a', ha, hget⟩ := Option.bind_eq_some_iff.mp hold
    obtain ⟨old', hold', heq⟩ := Option.map_eq_some_iff.mp hget
    cases heq
    rcases List.mem_cons.mp h with rfl | h
    · exact .inr ⟨_, _, ha, hold', rfl, rfl, rfl⟩
    · rw [List.mem_singleton.mp h]
      exact .inl ⟨rfl, rfl, rfl⟩

theorem Sound.next {newId : PolicyId} (hs : Sound w) (hget : w.sessions.get sid = some s)
    (h : LeadRouting.next w sid newId s = some t) : Sound t ∧ KeepsFinal w t := by
  have hflight := hs.flight sid s hget
  cases s with
  | creating row =>
    rw [LeadRouting.next] at h
    split at h
    · next hfree =>
      cases h
      cases hflight with
      | creating _ hstate hscope =>
        refine ⟨⟨?_, fun id r hr => ?_, fun other s hother => ?_, hs.open_endSession⟩,
          fun id r hr _ => ?_⟩
        · refine updateRow_oneActive hs.oneActive (updateRow_eq_some.mpr ⟨rfl, ?_⟩)
          rw [hstate]
          simp
        · change (w.policies.set newId row).get id = some r at hr
          rw [Table.get_set] at hr
          split at hr
          · cases hr
            exact hscope
          · exact hs.scope id r hr
        · obtain ⟨hne, hother⟩ := get_endSession hother
          refine (hs.flight other s hother).mono rfl (fun id r hl => ?_)
          refine ⟨lock_endSession.mpr ⟨hl.lock, hne⟩, ?_⟩
          have hid : id ≠ newId := by
            rintro rfl
            cases hfree.1.symm.trans hl.stored
          exact (Table.get_set_ne _ hid _).trans hl.stored
        · have hid : id ≠ newId := by
            rintro rfl
            cases hfree.1.symm.trans hr
          exact ⟨r, (Table.get_set_ne _ hid _).trans hr, rfl⟩
    · cases h
  | submitting id =>
    obtain ⟨stored, hstored, hcommit⟩ := Option.bind_eq_some_iff.mp h
    cases hflight with
    | submitting _ row hrow hstate =>
      cases hrow.stored.symm.trans hstored
      refine hs.commit hcommit (fun u hu => ?_)
      rw [List.mem_singleton.mp hu]
      exact ⟨_, hrow, rfl, rfl, by simp [hstate], by simp [hstate]⟩
  | rejecting id reason =>
    obtain ⟨stored, hstored, hcommit⟩ := Option.bind_eq_some_iff.mp h
    cases hflight with
    | rejecting _ _ row hrow hstate =>
      cases hrow.stored.symm.trans hstored
      refine hs.commit hcommit (fun u hu => ?_)
      rw [List.mem_singleton.mp hu]
      exact ⟨_, hrow, rfl, rfl, by simp [hstate], by simp [hstate]⟩
  | activating id siteId reason =>
    cases h
    cases hflight with
    | activating _ _ row hrow hstate =>
      exact ⟨hs.setSession (.finding id reason _ row ⟨hrow.lock, hrow.stored⟩ hstate),
        .of_eq rfl⟩
  | finding id siteId reason candidate =>
    cases hflight with
    | finding _ _ _ row hrow hstate =>
      cases candidate with
      | none =>
        cases h
        exact ⟨hs.setSession (.found id reason none row ⟨hrow.lock, hrow.stored⟩ hstate
          (fun _ hb => by cases hb)), .of_eq rfl⟩
      | some a =>
        rw [LeadRouting.next] at h
        split at h
        · next hfree =>
          split at h
          · next hactive =>
            cases h
            refine ⟨hs.lockRow hfree (.found id reason (some a) row ⟨?_, hrow.stored⟩
              hstate (fun b hb => ?_)), .of_eq rfl⟩
            · rw [World.lockRow, Table.get_set]
              split
              · rfl
              · exact hrow.lock
            · cases hb
              obtain ⟨old, hold, hmatch⟩ := (Option.any_eq_true _ _).mp hactive
              obtain ⟨hsite, hstate'⟩ := of_decide_eq_true hmatch
              exact ⟨old, ⟨Table.get_set_self _ _ _, hold⟩, hstate', hsite⟩
          · cases h
            exact ⟨hs.setSession (.found id reason none row ⟨hrow.lock, hrow.stored⟩ hstate
              (fun _ hb => by cases hb)), .of_eq rfl⟩
        · cases h
  | found id reason active =>
    obtain ⟨stored, hstored, hcommit⟩ := Option.bind_eq_some_iff.mp h
    cases hflight with
    | found _ _ _ row hrow hstate hactive =>
      cases hrow.stored.symm.trans hstored
      refine hs.commit hcommit (fun u hu => ?_)
      rcases activationUpdates_mem hu with ⟨hid, hsite, htenant⟩
        | ⟨a, old, ha, hold, hid, hsite, htenant⟩
      · exact ⟨_, hid ▸ hrow, hsite, htenant, by simp [hstate], by simp [hstate]⟩
      · obtain ⟨old', hlocked, hstate', _⟩ := hactive a ha
        cases hold.symm.trans hlocked.stored
        exact ⟨_, hid ▸ hlocked, hsite, htenant, by simp [hstate'], by simp [hstate']⟩

theorem Sound.step {a : Action} (hs : Sound w) (h : LeadRouting.step env w a = some t) :
    Sound t ∧ KeepsFinal w t := by
  cases a with
  | create sid projectId body =>
    simp only [LeadRouting.step] at h
    split at h
    · obtain ⟨row, hrow, rfl⟩ := toOption_map_eq_some h
      obtain ⟨hstate, hscope⟩ := newPolicy_spec hrow
      exact ⟨hs.setSession (.creating row hstate hscope), .of_eq rfl⟩
    · cases h
  | submit sid projectId id =>
    simp only [LeadRouting.step] at h
    split at h
    · next hfree =>
      obtain ⟨u, hu, rfl⟩ := toOption_map_eq_some h
      obtain ⟨row, hrow, hstate⟩ := checkSubmit_spec hu
      exact ⟨hs.lockRow (.inl hfree.2)
        (.submitting id row ⟨Table.get_set_self _ _ _, hrow⟩ hstate), .of_eq rfl⟩
    · cases h
  | reject sid projectId id body =>
    simp only [LeadRouting.step] at h
    split at h
    · next hfree =>
      obtain ⟨reason, hreason, rfl⟩ := toOption_map_eq_some h
      obtain ⟨row, hrow, hstate⟩ := checkReject_spec hreason
      exact ⟨hs.lockRow (.inl hfree.2)
        (.rejecting id reason row ⟨Table.get_set_self _ _ _, hrow⟩ hstate), .of_eq rfl⟩
    · cases h
  | activate sid projectId id body =>
    simp only [LeadRouting.step] at h
    split at h
    · next hfree =>
      obtain ⟨siteId, hok, rfl⟩ := toOption_map_eq_some h
      obtain ⟨row, hrow, hstate, rfl⟩ := checkActivate_spec hok
      exact ⟨hs.lockRow (.inl hfree.2)
        (.activating id _ row ⟨Table.get_set_self _ _ _, hrow⟩ hstate), .of_eq rfl⟩
    · cases h
  | next sid newId =>
    obtain ⟨s, hget, hnext⟩ := Option.bind_eq_some_iff.mp h
    exact hs.next hget hnext
  | abort sid =>
    obtain ⟨s, _, rfl⟩ := Option.map_eq_some_iff.mp h
    exact ⟨hs.endSession, .of_eq rfl⟩
  | setTransport tenant transport =>
    cases h
    exact ⟨⟨hs.oneActive, hs.scope,
      fun sid s hget => (hs.flight sid s hget).mono rfl (fun _ _ hl => ⟨hl.lock, hl.stored⟩),
      hs.open'⟩, .of_eq rfl⟩

theorem Sound.of_exec {w₀ : World} {run : List Action} (hinit : Init w₀)
    (hrun : exec (LeadRouting.step env) w₀ run = some w) : Sound w :=
  exec_invariant (G := fun _ _ _ => True) (fun _ _ _ hs _ h => (hs.step h).1) hinit.sound
    (along_of_forall (Q := fun _ => True) (fun _ _ => trivial) w₀) hrun

/-! ## An activation alone -/

variable {a : PolicyId} {old : Policy}

/-- The request of an activation, from its first statement to its commit. -/
def activation (sid : SessionId) (projectId : ProjectId) (id : PolicyId) (body : DecisionIn) :
    List Action :=
  [.activate sid projectId id body, .next sid 0, .next sid 0, .next sid 0]

/-- The request commits, the policy is active then, and the policy of the site that was active is
superseded. -/
def ActivatesAlone (env : Env) (w : World) (sid : SessionId) (projectId : ProjectId)
    (id : PolicyId) (body : DecisionIn) : Prop :=
  ∃ u row, exec (step env) w (activation sid projectId id body) = some u ∧
    u.policies.get id = some row ∧ row.state = .active ∧
    ∀ a old, w.policies.get a = some old → old.state = .active → old.siteId = row.siteId →
      ∃ old', u.policies.get a = some old' ∧ old'.state = .superseded

theorem activeOf_eq_none (h : w.activeOf siteId = none) (a : PolicyId) (old : Policy)
    (hold : w.policies.get a = some old) (hstate : old.state = .active) : old.siteId ≠ siteId := by
  intro hsite
  have hall := List.find?_eq_none.mp (Option.map_eq_none_iff.mp h)
  exact hall (a, old) (Table.mem_rows.mpr hold) (decide_eq_true ⟨hsite, hstate⟩)

theorem activeOf_eq_some (h : w.activeOf siteId = some a) :
    ∃ old, w.policies.get a = some old ∧ old.siteId = siteId ∧ old.state = .active := by
  obtain ⟨⟨b, old⟩, hfind, rfl⟩ := Option.map_eq_some_iff.mp h
  have hmatch := List.find?_some hfind
  exact ⟨old, Table.mem_rows.mp (List.mem_of_find?_eq_some hfind), of_decide_eq_true hmatch⟩

theorem step_next {newId : PolicyId} (h : w.sessions.get sid = some s) :
    step env w (.next sid newId) = next w sid newId s := by
  rw [step, h, Option.bind_some]

theorem activationUpdates_eq {v : World} (h : v.policies = w.policies) (id : PolicyId)
    (row : Policy) (reason : Option String) (active : Option PolicyId) :
    activationUpdates v id row reason active = activationUpdates w id row reason active := by
  rw [activationUpdates, activationUpdates, h]

/-- The updates of an activation that supersedes a policy. -/
theorem activationUpdates_pair (id : PolicyId) (row : Policy) (reason : Option String)
    (hold : w.policies.get a = some old) :
    ∃ superseded activated : Policy, superseded.state = .superseded ∧ activated.state = .active ∧
      activated.siteId = row.siteId ∧
      activationUpdates w id row reason (some a) = [(a, superseded), (id, activated)] := by
  refine ⟨{ old with state := .superseded }, { row with
    state := .active
    decisionReason := reason
    supersedesId := some a }, rfl, rfl, rfl, ?_⟩
  rw [activationUpdates, Option.bind_some, hold]
  rfl

/-- What an activation that is alone flushes: the policy, and the active one of its site. -/
theorem exec_activation (hs : Sound w) (hidle : w.sessions.keys = [])
    (hcheck : checkActivate w projectId id body = .ok row.siteId)
    (hrow : w.policies.get id = some row) :
    ∃ (v : World) (reason : Option String), v.policies = w.policies ∧
      exec (step env) w (activation sid projectId id body) = v.commit sid
        (activationUpdates w id row reason (w.activeOf row.siteId)) := by
  have hfree : ∀ j, w.locks.get j = none := by
    intro j
    cases hl : w.locks.get j with
    | none => rfl
    | some other => exact absurd (Table.get_of_keys_nil hidle other) (hs.open' j other hl)
  obtain ⟨reason, hreason⟩ : ∃ reason, reason = (body.reason.filter (· ≠ "")).map Text.strip :=
    ⟨_, rfl⟩
  have hfirst : step env w (.activate sid projectId id body)
      = some (w.lockRow sid id (.activating id row.siteId reason)) := by
    simp only [step]
    rw [if_pos ⟨Table.get_of_keys_nil hidle sid, hfree id⟩, hcheck, ← hreason]
    rfl
  obtain ⟨w₁, hw₁⟩ : ∃ w₁, w₁ = w.lockRow sid id (.activating id row.siteId reason) := ⟨_, rfl⟩
  have hsecond : step env w₁ (.next sid 0)
      = some (w₁.setSession sid (.finding id row.siteId reason (w.activeOf row.siteId))) := by
    rw [hw₁, step_next (Table.get_set_self _ _ _)]
    rfl
  obtain ⟨w₂, hw₂⟩ : ∃ w₂, w₂ = w₁.setSession sid
    (.finding id row.siteId reason (w.activeOf row.siteId)) := ⟨_, rfl⟩
  have hthird : ∃ v, v.policies = w.policies ∧ step env w₂ (.next sid 0) = some v ∧
      v.sessions.get sid = some (.found id reason (w.activeOf row.siteId)) := by
    have hget : w₂.sessions.get sid
        = some (.finding id row.siteId reason (w.activeOf row.siteId)) := by
      rw [hw₂]
      exact Table.get_set_self _ _ _
    have hpolicies : w₂.policies = w.policies := by rw [hw₂, hw₁]; rfl
    rw [step_next hget]
    cases hactive : w.activeOf row.siteId with
    | none => exact ⟨w₂.setSession sid (.found id reason none), hpolicies, rfl,
        Table.get_set_self _ _ _⟩
    | some a =>
      obtain ⟨old, hold, hsite, hstate⟩ := activeOf_eq_some hactive
      have hlock : w₂.locks.get a = none ∨ w₂.locks.get a = some sid := by
        rw [hw₂, hw₁]
        by_cases ha : a = id
        · exact .inr (by rw [ha]; exact Table.get_set_self _ _ _)
        · exact .inl ((Table.get_set_ne _ ha _).trans (hfree a))
      refine ⟨w₂.lockRow sid a (.found id reason (some a)), hpolicies, ?_,
        Table.get_set_self _ _ _⟩
      rw [next, if_pos hlock, hpolicies, hold]
      simp [hsite, hstate]
  obtain ⟨v, hpolicies, hstep, hget⟩ := hthird
  refine ⟨v, reason, hpolicies, ?_⟩
  rw [activation, exec_cons, hfirst, ← hw₁, Option.bind_some, exec_cons, hsecond, ← hw₂,
    Option.bind_some, exec_cons, hstep, Option.bind_some, exec_cons, step_next hget, next,
    hpolicies, hrow, Option.bind_some, activationUpdates_eq hpolicies]
  exact Option.bind_fun_some _

/-- The two updates of an activation pass the index in the order of the ids, if the policy that is
superseded comes first. -/
theorem flush_activation {superseded activated : Policy} (hone : OneActive policies)
    (hold : policies.get a = some old) (hstate : old.state = .active) (hne : a ≠ id)
    (hsuperseded : superseded.state = .superseded) (hactivated : activated.state = .active)
    (hsite : old.siteId = activated.siteId) :
    flush policies [(a, superseded), (id, activated)] =
      if a < id then some ((policies.set a superseded).set id activated) else none := by
  rw [flush_eq]
  split
  · next hlt =>
    have horder : [(a, superseded), (id, activated)].insertionSort (fun x y => x.1 ≤ y.1)
        = [(a, superseded), (id, activated)] := by
      simp [List.insertionSort, hlt.le]
    rw [horder, runUpdates_cons]
    refine ⟨_, updateRow_eq_some.mpr ⟨rfl, fun hactive => ?_⟩, runUpdates_cons.mpr
      ⟨_, updateRow_eq_some.mpr ⟨rfl, fun _ b rb hb hbid hrb hbsite => ?_⟩, rfl⟩⟩
    · rw [hsuperseded] at hactive
      cases hactive
    · by_cases hba : b = a
      · rw [hba, Table.get_set_self] at hb
        cases hb
        rw [hsuperseded] at hrb
        cases hrb
      · rw [Table.get_set_ne _ hba] at hb
        exact hba (hone b a rb old hb hold hrb hstate (hbsite.trans hsite.symm))
  · next hnot =>
    have hle : ¬ a ≤ id := fun hle => hnot (Nat.lt_of_le_of_ne hle hne)
    have horder : [(a, superseded), (id, activated)].insertionSort (fun x y => x.1 ≤ y.1)
        = [(id, activated), (a, superseded)] := by
      simp [List.insertionSort, hle]
    rw [horder, Option.eq_none_iff_forall_ne_some]
    intro t hrun
    obtain ⟨p, hp, _⟩ := runUpdates_cons.mp hrun
    exact (updateRow_eq_some.mp hp).2 hactivated a old hold hne hstate hsite

theorem Sound.activatesAlone_iff (hs : Sound w) (hidle : w.sessions.keys = [])
    (hcheck : checkActivate w projectId id body = .ok siteId) :
    ActivatesAlone env w sid projectId id body ↔ ∀ a, w.activeOf siteId = some a → a < id := by
  obtain ⟨row, hrow, hreview, rfl⟩ := checkActivate_spec hcheck
  obtain ⟨v, reason, hpolicies, hexec⟩ := exec_activation hs hidle hcheck hrow
  have hcommit : exec (LeadRouting.step env) w (activation sid projectId id body)
      = (flush w.policies (activationUpdates w id row reason (w.activeOf row.siteId))).map
        (fun policies => World.endSession { v with policies := policies } sid) := by
    rw [hexec, World.commit, hpolicies]
  rw [ActivatesAlone, hcommit]
  cases hactive : w.activeOf row.siteId with
  | none =>
    have hflush : flush w.policies (activationUpdates w id row reason none) = some
        (w.policies.set id { row with state := .active, decisionReason := reason }) := by
      rw [flush_eq]
      refine runUpdates_cons.mpr ⟨_, updateRow_eq_some.mpr ⟨rfl, fun _ a old hold _ hstate => ?_⟩,
        rfl⟩
      exact activeOf_eq_none hactive a old hold hstate
    refine iff_of_true ⟨_, _, by rw [hflush]; rfl, Table.get_set_self _ _ _, rfl, ?_⟩ nofun
    intro a old hold hstate hsite
    exact absurd hsite (activeOf_eq_none hactive a old hold hstate)
  | some a =>
    obtain ⟨old, hold, hsite, hstate⟩ := activeOf_eq_some hactive
    have hne : a ≠ id := by
      rintro rfl
      cases hold.symm.trans hrow
      rw [hreview] at hstate
      cases hstate
    obtain ⟨superseded, activated, hsuperseded, hactivated, hactivatedSite, hupdates⟩ :=
      activationUpdates_pair id row reason hold
    rw [hupdates, flush_activation hs.oneActive hold hstate hne hsuperseded hactivated
      (hsite.trans hactivatedSite.symm)]
    split
    · next hlt =>
      refine iff_of_true ⟨_, _, rfl, Table.get_set_self _ _ _, hactivated, ?_⟩ (fun b hb => ?_)
      · intro b other hother hactive' hsite'
        have hb : b = a := hs.oneActive b a other old hother hold hactive' hstate
          ((hsite'.trans hactivatedSite).trans hsite.symm)
        refine ⟨superseded, ?_, hsuperseded⟩
        rw [hb]
        exact (Table.get_set_ne _ hne _).trans (Table.get_set_self _ _ _)
      · cases hb
        exact hlt
    · next hnot =>
      refine iff_of_false ?_ (fun hall => hnot (hall a rfl))
      rintro ⟨u, _, hu, _⟩
      cases hu

/-! ## The theorem -/

/-- **Routing policy activation.** After every run of creations, submissions, rejections and
activations, whatever their interleaving, one policy of a site at most is active, and no step has
left a rejected or superseded policy in another state. A policy under review that passes the checks
is activated by a request that runs alone exactly if the id of the active policy of its site, where
there is one, is smaller than its own. -/
theorem routing_activation {w₀ w : World} {run : List Action} (hinit : Init w₀)
    (hrun : exec (step env) w₀ run = some w) :
    OneActive w.policies ∧ Along (step env) (fun s _ t => KeepsFinal s t) w₀ run ∧
      ∀ sid projectId id body siteId, w.sessions.keys = [] →
        checkActivate w projectId id body = .ok siteId →
        (ActivatesAlone env w sid projectId id body ↔
          ∀ a, w.activeOf siteId = some a → a < id) := by
  have hsound : Sound w := Sound.of_exec hinit hrun
  refine ⟨hsound.oneActive, ?_, fun sid projectId id body siteId hidle hcheck =>
    hsound.activatesAlone_iff hidle hcheck⟩
  exact along_rule (G := fun _ _ _ => True) (fun s a t hs _ h => hs.step h) hinit.sound
    (along_of_forall (Q := fun _ => True) (fun _ _ => trivial) w₀)

/-! ## Two policies of a site -/

def plainEnv : Env where
  lower := fun text => text
  netlocValid := fun _ => true
  isIpAddress := fun _ => false
  encrypt := fun text => "v1:" ++ text
  encrypt_ne := fun text h => by simp at h

/-- One project with its site. -/
def emptySite : World where
  projects := fun id => if id = 7 then some ⟨1, some 3, false⟩ else none
  sites := fun id => if id = 3 then some ⟨1, some 7⟩ else none
  transports := Table.empty
  policies := Table.empty
  locks := Table.empty
  sessions := Table.empty

def centralSmtp : Transport where
  enabled := true
  host := "smtp.example.com"
  port := 587
  tlsMode := "starttls"
  senderEmail := "leads@example.com"
  recipientEnc := "v1:central@example.com"
  recipient := some "central@example.com"
  username := none
  password := none
  revision := 1
  recipient_ne := by simp

def salesPolicy : PolicyIn :=
  ⟨[⟨"sales", .email, true, some "sales@example.com", none, none⟩], .appendGlobal, false⟩

def confirmed : DecisionIn := ⟨none, false⟩

/-- A policy with this id is created and submitted. -/
def submitted (id : PolicyId) : List Action :=
  [.create id 7 salesPolicy, .next id id, .submit id 7 id, .next id 0]

/-- The first policy is active, and the second is under review. -/
def secondReviewed (first second : PolicyId) : List Action :=
  .setTransport 1 centralSmtp :: submitted first ++ activation first 7 first confirmed
    ++ submitted second

theorem emptySite_init : Init emptySite := ⟨rfl, rfl, rfl⟩

theorem routing_activation_ascendingIds :
    ∃ w, exec (step plainEnv) emptySite (secondReviewed 1 2) = some w ∧ w.activeOf 3 = some 1 ∧
      OneActive w.policies ∧ ActivatesAlone plainEnv w 2 7 2 confirmed := by
  have hend : (exec (step plainEnv) emptySite (secondReviewed 1 2)).map (fun w =>
      (w.activeOf 3, w.sessions.keys, decide (checkActivate w 7 2 confirmed = .ok 3)))
      = some (some 1, [], true) := by decide +kernel
  obtain ⟨w, hrun, hfacts⟩ := Option.map_eq_some_iff.mp hend
  simp only [Prod.mk.injEq] at hfacts
  obtain ⟨hactive, hidle, hcheck⟩ := hfacts
  obtain ⟨hone, _, halone⟩ := routing_activation emptySite_init hrun
  refine ⟨w, hrun, hactive, hone,
    (halone 2 7 2 confirmed 3 hidle (of_decide_eq_true hcheck)).mpr (fun a ha => ?_)⟩
  cases hactive.symm.trans ha
  decide

/-- The new policy has the smaller id: the checks pass, and the flush fails. -/
theorem routing_activation_descendingIds :
    Init emptySite ∧ ∃ w, exec (step plainEnv) emptySite (secondReviewed 2 1) = some w ∧
      w.sessions.keys = [] ∧ checkActivate w 7 1 confirmed = .ok 3 ∧
      exec (step plainEnv) w (activation 1 7 1 confirmed) = none ∧
      ¬ ActivatesAlone plainEnv w 1 7 1 confirmed := by
  have hend : (exec (step plainEnv) emptySite (secondReviewed 2 1)).map (fun w =>
      (w.sessions.keys, decide (checkActivate w 7 1 confirmed = .ok 3),
        (exec (step plainEnv) w (activation 1 7 1 confirmed)).isNone))
      = some ([], true, true) := by decide +kernel
  obtain ⟨w, hrun, hfacts⟩ := Option.map_eq_some_iff.mp hend
  simp only [Prod.mk.injEq] at hfacts
  obtain ⟨hidle, hcheck, hnone⟩ := hfacts
  have hfails : exec (step plainEnv) w (activation 1 7 1 confirmed) = none :=
    Option.isNone_iff_eq_none.mp hnone
  refine ⟨emptySite_init, w, hrun, hidle, of_decide_eq_true hcheck, hfails, ?_⟩
  rintro ⟨u, _, hu, _⟩
  cases hfails.symm.trans hu

end MegaPanel.LeadRouting
