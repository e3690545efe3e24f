import MegaPanel.DesignProfiles.Model

set_option autoImplicit false

/-! # The profile in force is the one approved last

The unique constraint orders the approvals of a scope: one that has not seen the assignment of
another fails, and an approval that commits is the only assignment of its scope. The state of the
revision is not protected so, since it has been read without a lock. What is resolved is the last
approval, and no rejected revision, exactly when an approval does not commit over a rejection of its
revision, nor a rejection over an approval that is in force (`effective_profile`).
-/

namespace MegaPanel.DesignProfiles

open MegaPanel.Lib

variable {tenantOf : ProjectId → TenantId}

/-! ## What is asked of the committed states -/

/-- A history variable: the last approval of each scope, and all rejections. -/
structure History where
  lastApproved : ProjectId → Scope → Option RevisionId
  rejected : List RevisionId

def note (st : State) (a : Action) (g : History) : History :=
  match a with
  | .commitApproval rid _ =>
    match st.sessions.get rid with
    | some (.replaced c doomed) =>
      if st.db.admits c doomed = true then
        { g with lastApproved := fun projectId scope =>
            if projectId = c.current.projectId ∧ scope = c.current.scope then some c.id
            else g.lastApproved projectId scope }
      else g
    | _ => g
  | .commitRejection rid =>
    match st.sessions.get rid with
    | some (.rejecting c) => { g with rejected := c.id :: g.rejected }
    | _ => g
  | _ => g

/-- Assignments point to approved revisions, what is resolved has been approved last, and it has not
been rejected. The master project of a family has the tenant of the child. -/
structure InForce (tenantOf : ProjectId → TenantId) (st : State) (g : History) : Prop where
  assigned : ∀ id a, st.db.assignments.get id = some a →
    ∃ r, st.db.revisions.get a.profileRevisionId = some r ∧ r.state = .approved
  resolved : ∀ projectId master, (∀ m, master = some m → tenantOf m = tenantOf projectId) →
    let resolved := resolveDesignProfile st.db (tenantOf projectId) master projectId
    resolved.projectProfile.map (·.1) = g.lastApproved projectId .project ∧
      resolved.familyProfile.map (·.1) = g.lastApproved (master.getD projectId) .family
  notRejected : ∀ projectId scope id r,
    assignmentRevision st.db (tenantOf projectId) projectId scope = some (id, r) → id ∉ g.rejected

/-! ## When it is met -/

/-- An approval commits for a revision that has not been rejected, and a rejection for one that is
not assigned. -/
def uncrossed (st : State) (g : History) : Action → Bool
  | .commitApproval rid _ =>
    match st.sessions.get rid with
    | some (.replaced c doomed) => !st.db.admits c doomed || decide (c.id ∉ g.rejected)
    | _ => true
  | .commitRejection rid =>
    match st.sessions.get rid with
    | some (.rejecting c) =>
      st.db.assignments.rows.all (fun row => decide (row.2.profileRevisionId ≠ c.id))
    | _ => true
  | _ => true

/-! ## Rows and sessions -/

variable {st : State} {last : ProjectId → Scope → Option RevisionId} {id : AssignmentId}
  {a : DesignProfileAssignment}

def DesignProfileRevision.key (r : DesignProfileRevision) : TenantId × ProjectId × Scope :=
  (r.tenantId, r.projectId, r.scope)

def DesignProfileAssignment.key (a : DesignProfileAssignment) : TenantId × ProjectId × Scope :=
  (a.tenantId, a.projectId, a.scope)

/-- What a decision knows of its revision. -/
structure Copied (revisions : Table RevisionId DesignProfileRevision) (c : Copy)
    (state : RevisionState) : Prop where
  loaded : c.loaded.state = .review
  current : c.current.state = state
  row : ∃ r, revisions.get c.id = some r ∧ r.key = c.current.key

/-- A decision between two of its statements. -/
def InFlight (revisions : Table RevisionId DesignProfileRevision) : Session → Prop
  | .approving c => Copied revisions c .approved
  | .replaced c _ => Copied revisions c .approved
  | .rejecting c => Copied revisions c .rejected

structure Sound (tenantOf : ProjectId → TenantId) (st : State)
    (last : ProjectId → Scope → Option RevisionId) : Prop where
  revisions : ∀ id r, st.db.revisions.get id = some r → r.tenantId = tenantOf r.projectId
  assignments : ∀ id a, st.db.assignments.get id = some a →
    ∃ r, st.db.revisions.get a.profileRevisionId = some r ∧ r.key = a.key
  unique : ∀ i j a b, st.db.assignments.get i = some a → st.db.assignments.get j = some b →
    a.projectId = b.projectId → a.scope = b.scope → i = j
  last : ∀ projectId scope id, last projectId scope = some id ↔
    ∃ i a, st.db.assignments.get i = some a ∧ a.projectId = projectId ∧ a.scope = scope ∧
      a.profileRevisionId = id
  flight : ∀ rid s, st.sessions.get rid = some s → InFlight st.db.revisions s

theorem sound_start : Sound tenantOf start (fun _ _ => none) where
  revisions := fun _ _ h => by cases h
  assignments := fun _ _ h => by cases h
  unique := fun _ _ _ _ h => by cases h
  last := fun _ _ _ => ⟨fun h => (by cases h), fun ⟨_, _, h, _⟩ => (by cases h)⟩
  flight := fun _ _ h => by cases h

theorem Sound.tenant (h : Sound tenantOf st last) (ha : st.db.assignments.get id = some a) :
    a.tenantId = tenantOf a.projectId := by
  obtain ⟨r, hr, hkey⟩ := h.assignments id a ha
  have htenant := h.revisions _ r hr
  simp only [DesignProfileRevision.key, DesignProfileAssignment.key, Prod.mk.injEq] at hkey
  rw [← hkey.1, ← hkey.2.1, htenant]

/-! ## What is resolved -/

variable {db : Db} {projectId : ProjectId} {r : DesignProfileRevision} {i : AssignmentId}
  {g : History}

theorem assignmentRevision_eq_some {tenantId : TenantId} {scope : Scope} {id : RevisionId}
    (h : assignmentRevision db tenantId projectId scope = some (id, r)) :
    ∃ i a, db.assignments.get i = some a ∧ a.projectId = projectId ∧ a.scope = scope ∧
      a.profileRevisionId = id := by
  obtain ⟨⟨i, a⟩, hmem, hrow⟩ := List.exists_of_findSome?_eq_some h
  dsimp only at hrow
  split_ifs at hrow with hkey
  obtain ⟨x, _, hx⟩ := Option.bind_eq_some_iff.mp hrow
  split_ifs at hx
  cases hx
  exact ⟨i, a, Table.mem_rows.mp hmem, hkey.2.1, hkey.2.2, rfl⟩

/-- The assignment of a scope is what is resolved, if its revision is approved. -/
theorem Sound.assignmentRevision_eq (h : Sound tenantOf st last)
    (ha : st.db.assignments.get i = some a) (hr : st.db.revisions.get a.profileRevisionId = some r)
    (happroved : r.state = .approved) :
    assignmentRevision st.db (tenantOf a.projectId) a.projectId a.scope =
      some (a.profileRevisionId, r) := by
  have hkey : r.tenantId = tenantOf a.projectId ∧ r.projectId = a.projectId ∧ r.scope = a.scope := by
    obtain ⟨x, hx, hkey⟩ := h.assignments i a ha
    rw [hr] at hx
    cases hx
    simp only [DesignProfileRevision.key, DesignProfileAssignment.key, Prod.mk.injEq] at hkey
    exact ⟨hkey.1.trans (h.tenant ha), hkey.2⟩
  cases hfound : assignmentRevision st.db (tenantOf a.projectId) a.projectId a.scope with
  | none =>
    have hnone := List.findSome?_eq_none_iff.mp hfound (i, a) (Table.mem_rows.mpr ha)
    simp [h.tenant ha, hr, hkey, happroved] at hnone
  | some found =>
    obtain ⟨⟨j, b⟩, hmem, hrow⟩ := List.exists_of_findSome?_eq_some hfound
    dsimp only at hrow
    split_ifs at hrow with hb
    have hb' := Table.mem_rows.mp hmem
    have hij := h.unique i j a b ha hb' hb.2.1.symm hb.2.2.symm
    rw [← hij, ha] at hb'
    cases hb'
    obtain ⟨x, hx, hxfound⟩ := Option.bind_eq_some_iff.mp hrow
    rw [hr] at hx
    cases hx
    split_ifs at hxfound
    exact hxfound.symm

/-- What the assignments have to satisfy, one by one. -/
def Held (st : State) (g : History) : Prop :=
  ∀ id a, st.db.assignments.get id = some a →
    (∃ r, st.db.revisions.get a.profileRevisionId = some r ∧ r.state = .approved) ∧
      a.profileRevisionId ∉ g.rejected

theorem Sound.lastApproved_eq (h : Sound tenantOf st g.lastApproved) (hheld : Held st g)
    (projectId : ProjectId) (scope : Scope) :
    (assignmentRevision st.db (tenantOf projectId) projectId scope).map (·.1) =
      g.lastApproved projectId scope := by
  cases hlast : g.lastApproved projectId scope with
  | none =>
    cases hfound : assignmentRevision st.db (tenantOf projectId) projectId scope with
    | none => rfl
    | some found =>
      obtain ⟨id, r⟩ := found
      obtain ⟨i, a, ha, hproject, hscope, _⟩ := assignmentRevision_eq_some hfound
      have hsome := (h.last projectId scope a.profileRevisionId).mpr
        ⟨i, a, ha, hproject, hscope, rfl⟩
      rw [hlast] at hsome
      cases hsome
  | some id =>
    obtain ⟨i, a, ha, rfl, rfl, rfl⟩ := (h.last projectId scope id).mp hlast
    obtain ⟨⟨r, hr, happroved⟩, _⟩ := hheld i a ha
    rw [h.assignmentRevision_eq ha hr happroved, Option.map_some]

/-- **The property, row by row.** -/
theorem Sound.inForce_iff (h : Sound tenantOf st g.lastApproved) :
    InForce tenantOf st g ↔ Held st g := by
  constructor
  · intro hforce id a ha
    obtain ⟨r, hr, happroved⟩ := hforce.assigned id a ha
    exact ⟨⟨r, hr, happroved⟩, hforce.notRejected a.projectId a.scope _ r
      (h.assignmentRevision_eq ha hr happroved)⟩
  · intro hheld
    refine ⟨fun id a ha => (hheld id a ha).1, fun projectId master hmaster => ⟨?_, ?_⟩,
      fun projectId scope id r hfound => ?_⟩
    · exact h.lastApproved_eq hheld projectId .project
    · have htenant : tenantOf (master.getD projectId) = tenantOf projectId := by
        cases master with
        | none => rfl
        | some m => exact hmaster m rfl
      show (assignmentRevision st.db (tenantOf projectId) (master.getD projectId) .family).map _ = _
      rw [← htenant]
      exact h.lastApproved_eq hheld _ .family
    · obtain ⟨i, a, ha, _, _, rfl⟩ := assignmentRevision_eq_some hfound
      exact (hheld i a ha).2

/-! ## The writes of a decision -/

variable {old new : Table RevisionId DesignProfileRevision} {c : Copy} {state : RevisionState}
  {s : Session} {doomed : List AssignmentId}

/-- Revisions stay, in the scope that they have. -/
def Keeps (old new : Table RevisionId DesignProfileRevision) : Prop :=
  ∀ id r, old.get id = some r → ∃ r', new.get id = some r' ∧ r'.key = r.key

theorem Copied.mono (hkeeps : Keeps old new) (h : Copied old c state) : Copied new c state where
  loaded := h.loaded
  current := h.current
  row := by
    obtain ⟨r, hr, hkey⟩ := h.row
    obtain ⟨r', hr', hkey'⟩ := hkeeps c.id r hr
    exact ⟨r', hr', hkey'.trans hkey⟩

theorem InFlight.mono (hkeeps : Keeps old new) (h : InFlight old s) : InFlight new s := by
  cases s with
  | approving c | replaced c doomed | rejecting c => exact Copied.mono hkeeps h

/-- A change of the revisions that keeps their scopes. -/
theorem Sound.setRevisions (h : Sound tenantOf st last) (hkeeps : Keeps st.db.revisions new)
    (htenant : ∀ id r, new.get id = some r → r.tenantId = tenantOf r.projectId) :
    Sound tenantOf { st with db := { st.db with revisions := new } } last where
  revisions := htenant
  assignments := fun id a ha => by
    obtain ⟨r, hr, hkey⟩ := h.assignments id a ha
    obtain ⟨r', hr', hkey'⟩ := hkeeps _ r hr
    exact ⟨r', hr', hkey'.trans hkey⟩
  unique := h.unique
  last := h.last
  flight := fun rid s hs => (h.flight rid s hs).mono hkeeps

theorem keeps_flush (revisions : Table RevisionId DesignProfileRevision) (c : Copy) :
    Keeps revisions (revisions.modify c.id (c.loaded.flush c.current)) := by
  intro id r hr
  rw [Table.get_modify]
  split
  · next heq =>
    rw [← heq, hr]
    exact ⟨_, rfl, rfl⟩
  · exact ⟨r, hr, rfl⟩

theorem Sound.flush (h : Sound tenantOf st last) (c : Copy) :
    let revisions := st.db.revisions.modify c.id (c.loaded.flush c.current)
    Sound tenantOf { st with db := { st.db with revisions := revisions } } last := by
  refine h.setRevisions (keeps_flush st.db.revisions c) (fun id r hr => ?_)
  rw [Table.get_modify] at hr
  split at hr
  · obtain ⟨old, hold, rfl⟩ := Option.map_eq_some_iff.mp hr
    exact h.revisions c.id old hold
  · exact h.revisions id r hr

theorem Sound.endSession (h : Sound tenantOf st last) (rid : RequestId) :
    Sound tenantOf (st.endSession rid) last where
  revisions := h.revisions
  assignments := h.assignments
  unique := h.unique
  last := h.last
  flight := fun j s hs => h.flight j s (Table.get_erase_eq_some.mp hs).2

theorem Sound.setSession (h : Sound tenantOf st last) {rid : RequestId}
    (hs : InFlight st.db.revisions s) :
    Sound tenantOf { st with sessions := st.sessions.set rid s } last where
  revisions := h.revisions
  assignments := h.assignments
  unique := h.unique
  last := h.last
  flight := Table.forall_set h.flight hs

/-- The assignment that an approval inserts. -/
def Copy.assignment (c : Copy) : DesignProfileAssignment where
  tenantId := c.current.tenantId
  projectId := c.current.projectId
  scope := c.current.scope
  profileRevisionId := c.id
  assignedBy := c.user

/-- **An approval that the constraints admit leaves its assignment as the only one of its scope**, and
the other scopes as they were. -/
theorem Sound.approve_assignments_iff (h : Sound tenantOf st last)
    (hc : Copied st.db.revisions c .approved) (hadmits : st.db.admits c doomed = true)
    (hnew : st.db.assignments.get id = none) :
    (st.db.approve c doomed id).assignments.get i = some a ↔
      (i = id ∧ a = c.assignment) ∨ (st.db.assignments.get i = some a ∧
        ¬ (a.projectId = c.current.projectId ∧ a.scope = c.current.scope)) := by
  have hother : ∀ {i a}, (st.db.withoutDoomed c.current doomed).get i = some a ↔
      st.db.assignments.get i = some a ∧
        ¬ (a.projectId = c.current.projectId ∧ a.scope = c.current.scope) := by
    intro i a
    simp only [Db.withoutDoomed, Table.get_deleteWhere]
    constructor
    · intro hget
      split_ifs at hget with hdoomed
      have hrow := List.all_eq_true.mp hadmits (i, a)
        (Table.mem_rows.mpr ((if_neg hdoomed).trans hget))
      exact ⟨hget, of_decide_eq_true (Bool.and_eq_true_iff.mp hrow).1⟩
    · rintro ⟨hget, hne⟩
      rw [if_neg ?_, hget]
      simp only [hget, Option.any_some, DesignProfileAssignment.isOf, Bool.and_eq_true,
        decide_eq_true_eq]
      exact fun hdoomed => hne ⟨hdoomed.2.1, hdoomed.2.2.2⟩
  show ((st.db.withoutDoomed c.current doomed).set id c.assignment).get i = some a ↔ _
  rw [Table.get_set_eq_some, hother]
  refine or_congr_right (and_iff_right_of_imp (fun hrow heq => ?_))
  rw [heq, hnew] at hrow
  cases hrow.1

theorem Sound.approve (h : Sound tenantOf st g.lastApproved)
    (hc : Copied st.db.revisions c .approved) (hadmits : st.db.admits c doomed = true)
    (hnew : st.db.assignments.get id = none) :
    Sound tenantOf { st with db := st.db.approve c doomed id } (fun projectId scope =>
      if projectId = c.current.projectId ∧ scope = c.current.scope then some c.id
      else g.lastApproved projectId scope) := by
  have hrows := fun {i : AssignmentId} {a : DesignProfileAssignment} =>
    h.approve_assignments_iff (i := i) (a := a) hc hadmits hnew
  have hflush := h.flush c
  refine ⟨hflush.revisions, fun i a ha => ?_, fun i j a b ha hb hproject hscope => ?_,
    fun projectId scope j => ?_, hflush.flight⟩
  · rcases hrows.mp ha with ⟨_, rfl⟩ | ⟨hold, _⟩
    · obtain ⟨r, hr, hkey⟩ := hc.row
      obtain ⟨r', hr', hkey'⟩ := keeps_flush st.db.revisions c c.id r hr
      exact ⟨r', hr', hkey'.trans hkey⟩
    · exact hflush.assignments i a hold
  · rcases hrows.mp ha with ⟨rfl, rfl⟩ | ⟨holda, hnea⟩
    · rcases hrows.mp hb with ⟨rfl, _⟩ | ⟨_, hneb⟩
      · rfl
      · exact absurd ⟨hproject.symm, hscope.symm⟩ hneb
    · rcases hrows.mp hb with ⟨_, rfl⟩ | ⟨holdb, _⟩
      · exact absurd ⟨hproject, hscope⟩ hnea
      · exact h.unique i j a b holda holdb hproject hscope
  · by_cases hkey : projectId = c.current.projectId ∧ scope = c.current.scope
    · rw [if_pos hkey]
      constructor
      · intro hj
        exact ⟨id, c.assignment, hrows.mpr (.inl ⟨rfl, rfl⟩), hkey.1.symm, hkey.2.symm,
          Option.some.inj hj⟩
      · rintro ⟨i, a, ha, hproject, hscope, rfl⟩
        rcases hrows.mp ha with ⟨_, rfl⟩ | ⟨_, hne⟩
        · rfl
        · exact absurd ⟨hproject.trans hkey.1, hscope.trans hkey.2⟩ hne
    · rw [if_neg hkey, h.last]
      constructor
      · rintro ⟨i, a, ha, rfl, rfl, hj⟩
        exact ⟨i, a, hrows.mpr (.inr ⟨ha, hkey⟩), rfl, rfl, hj⟩
      · rintro ⟨i, a, ha, hproject, hscope, hj⟩
        rcases hrows.mp ha with ⟨_, rfl⟩ | ⟨hold, _⟩
        · exact absurd ⟨hproject.symm, hscope.symm⟩ hkey
        · exact ⟨i, a, hold, hproject, hscope, hj⟩

/-! ## Steps -/

variable {caller : Caller} {reason : Option String} {now : Time} {loaded : DesignProfileRevision}
  {t : State}

theorem revisionOr404_eq_ok {id : RevisionId}
    (h : revisionOr404 tenantOf db caller projectId id = .ok r) : db.revisions.get id = some r := by
  unfold revisionOr404 at h
  split_ifs at h
  split at h
  · cases h
  · next x hx =>
    split_ifs at h
    cases h
    exact hx

/-- A decision begins with a copy of a revision in review. -/
theorem copied_approve {id : RevisionId} {isChild : Bool} {current : DesignProfileRevision}
    (h : approveDesignProfile tenantOf db caller projectId id isChild reason now =
      .ok (loaded, current)) :
    Copied db.revisions ⟨id, caller.userId, loaded, current⟩ .approved := by
  unfold approveDesignProfile at h
  split at h
  · cases h
  · next r hr =>
    split_ifs at h with hreview
    cases h
    exact ⟨not_not.mp hreview, rfl, _, revisionOr404_eq_ok hr, rfl⟩

theorem copied_reject {id : RevisionId} {current : DesignProfileRevision}
    (h : rejectDesignProfile tenantOf db caller projectId id reason now = .ok (loaded, current)) :
    Copied db.revisions ⟨id, caller.userId, loaded, current⟩ .rejected := by
  unfold rejectDesignProfile at h
  split_ifs at h
  split at h
  · cases h
  · next r hr =>
    split_ifs at h with hreview
    cases h
    exact ⟨not_not.mp hreview, rfl, _, revisionOr404_eq_ok hr, rfl⟩

/-- **Every step keeps the rows and the history together.** -/
theorem Sound.step {a : Action} (h : Sound tenantOf st g.lastApproved)
    (hstep : DesignProfiles.step tenantOf st a = some t) :
    Sound tenantOf t (note st a g).lastApproved := by
  cases a with
  | create id projectId scope profileHash =>
    simp only [DesignProfiles.step] at hstep
    split_ifs at hstep with hnew
    cases hstep
    refine h.setRevisions (fun j r hr => ?_) (fun j r hr => ?_)
    · have hne : j ≠ id := fun heq => by
        rw [heq, hnew] at hr
        cases hr
      exact ⟨r, by rw [Table.get_set_ne _ hne, hr], rfl⟩
    · exact Table.forall_set h.revisions rfl j r hr
  | submit id =>
    obtain ⟨r, hr, hstep⟩ := Option.bind_eq_some_iff.mp hstep
    split_ifs at hstep
    cases hstep
    refine h.setRevisions (fun j x hx => ?_) (fun j x hx => ?_)
    · by_cases hj : j = id
      · rw [hj, hr] at hx
        cases hx
        exact ⟨{ r with state := .review }, by rw [hj]; exact Table.get_set_self .., rfl⟩
      · exact ⟨x, by rw [Table.get_set_ne _ hj, hx], rfl⟩
    · refine Table.forall_set h.revisions ?_ j x hx
      exact h.revisions id r hr
  | approve rid caller projectId id isChild reason now =>
    simp only [DesignProfiles.step] at hstep
    split at hstep
    · next loaded current _ hcopy =>
      cases hstep
      exact h.setSession (copied_approve hcopy)
    · cases hstep
  | replace rid =>
    simp only [DesignProfiles.step] at hstep
    split at hstep
    · next c hc =>
      split_ifs at hstep
      cases hstep
      exact h.setSession (s := .replaced c _) (h.flight rid (.approving c) hc)
    · cases hstep
  | commitApproval rid id =>
    simp only [DesignProfiles.step] at hstep
    split at hstep
    · next c doomed hc hnew =>
      simp only [note, hc]
      split_ifs at hstep with hadmits
      · cases hstep
        rw [if_pos hadmits]
        exact (h.approve (h.flight rid _ hc) hadmits hnew).endSession rid
      · cases hstep
        rw [if_neg hadmits]
        exact h.endSession rid
    · cases hstep
  | reject rid caller projectId id reason now =>
    simp only [DesignProfiles.step] at hstep
    split at hstep
    · next loaded current _ hcopy =>
      cases hstep
      exact h.setSession (copied_reject hcopy)
    · cases hstep
  | commitRejection rid =>
    simp only [DesignProfiles.step] at hstep
    split at hstep
    · next c hc =>
      split_ifs at hstep
      cases hstep
      simp only [note, hc]
      exact (h.flush c).endSession rid
    · cases hstep
  | abort rid =>
    simp only [DesignProfiles.step] at hstep
    split_ifs at hstep
    cases hstep
    exact h.endSession rid

/-- Assigned revisions that keep their states stay as they should. -/
theorem Held.mono (h : Held st g) (hassignments : t.db.assignments = st.db.assignments)
    (hrevisions : ∀ id r, st.db.revisions.get id = some r → r.state = .approved →
      ∃ r', t.db.revisions.get id = some r' ∧ r'.state = .approved) : Held t g := by
  intro id a ha
  rw [hassignments] at ha
  obtain ⟨⟨r, hr, happroved⟩, hnot⟩ := h id a ha
  exact ⟨hrevisions _ r hr happroved, hnot⟩

theorem flush_state {revisions : Table RevisionId DesignProfileRevision}
    (hc : Copied revisions c state) (hstate : state ≠ .review) (stored : DesignProfileRevision) :
    (c.loaded.flush c.current stored).state = state := by
  show writeCol c.loaded.state c.current.state stored.state = state
  rw [hc.loaded, hc.current, writeCol_dirty hstate]

/-- The commit of an approval. -/
theorem Sound.held_approve_iff {g' : History} (h : Sound tenantOf st g.lastApproved)
    (hheld : Held st g) (hc : Copied st.db.revisions c .approved)
    (hadmits : st.db.admits c doomed = true) (hnew : st.db.assignments.get id = none)
    (hsame : g'.rejected = g.rejected) :
    Held { st with db := st.db.approve c doomed id } g' ↔ c.id ∉ g.rejected := by
  have hrows := fun {i : AssignmentId} {a : DesignProfileAssignment} =>
    h.approve_assignments_iff (i := i) (a := a) hc hadmits hnew
  constructor
  · intro hheld'
    have hnot := (hheld' id c.assignment (hrows.mpr (.inl ⟨rfl, rfl⟩))).2
    rwa [hsame] at hnot
  · intro hnot i a ha
    have hrevision : ∀ j r, st.db.revisions.get j = some r → r.state = .approved ∨ j = c.id →
        ∃ r', (st.db.approve c doomed id).revisions.get j = some r' ∧ r'.state = .approved := by
      intro j r hr hor
      show ∃ r', (st.db.revisions.modify c.id _).get j = some r' ∧ _
      by_cases hj : j = c.id
      · rw [hj, Table.get_modify_self, ← hj, hr]
        exact ⟨_, rfl, flush_state hc (by decide) r⟩
      · rw [Table.get_modify_ne _ hj, hr]
        exact ⟨r, rfl, hor.resolve_right hj⟩
    rw [hsame]
    rcases hrows.mp ha with ⟨_, rfl⟩ | ⟨hold, _⟩
    · obtain ⟨r, hr, _⟩ := hc.row
      exact ⟨hrevision c.id r hr (.inr rfl), hnot⟩
    · obtain ⟨⟨r, hr, happroved⟩, hnot'⟩ := hheld i a hold
      exact ⟨hrevision _ r hr (.inl happroved), hnot'⟩

/-- The commit of a rejection. -/
theorem held_reject_iff (hheld : Held st g) (c : Copy) :
    Held { st with db := { st.db with
        revisions := st.db.revisions.modify c.id (c.loaded.flush c.current) } }
      { g with rejected := c.id :: g.rejected } ↔
      ∀ i a, st.db.assignments.get i = some a → a.profileRevisionId ≠ c.id := by
  constructor
  · intro hheld' i a ha heq
    have hnot := (hheld' i a ha).2
    rw [heq] at hnot
    exact hnot (List.mem_cons_self ..)
  · intro hunassigned i a ha
    have hne := hunassigned i a ha
    obtain ⟨⟨r, hr, happroved⟩, hnot⟩ := hheld i a ha
    refine ⟨⟨r, ?_, happroved⟩, ?_⟩
    · show (st.db.revisions.modify c.id _).get _ = _
      rw [Table.get_modify_ne _ hne, hr]
    · rw [List.mem_cons, not_or]
      exact ⟨hne, hnot⟩

/-- **A step keeps the profiles in force exactly when it is uncrossed.** -/
theorem Sound.held_step_iff {a : Action} (h : Sound tenantOf st g.lastApproved) (hheld : Held st g)
    (hstep : DesignProfiles.step tenantOf st a = some t) :
    Held t (note st a g) ↔ uncrossed st g a = true := by
  cases a with
  | create id projectId scope profileHash =>
    simp only [DesignProfiles.step] at hstep
    split_ifs at hstep with hnew
    cases hstep
    refine iff_of_true (hheld.mono rfl (fun j r hr happroved => ⟨r, ?_, happroved⟩)) rfl
    have hne : j ≠ id := fun heq => by
      rw [heq, hnew] at hr
      cases hr
    exact (Table.get_set_ne _ hne _).trans hr
  | submit id =>
    obtain ⟨r, hr, hstep⟩ := Option.bind_eq_some_iff.mp hstep
    split_ifs at hstep with hdraft
    cases hstep
    refine iff_of_true (hheld.mono rfl (fun j x hx happroved => ⟨x, ?_, happroved⟩)) rfl
    have hne : j ≠ id := fun heq => by
      rw [heq, hr] at hx
      cases hx
      rw [hdraft] at happroved
      cases happroved
    exact (Table.get_set_ne _ hne _).trans hx
  | approve rid caller projectId id isChild reason now =>
    simp only [DesignProfiles.step] at hstep
    split at hstep
    · cases hstep
      exact iff_of_true hheld rfl
    · cases hstep
  | replace rid =>
    simp only [DesignProfiles.step] at hstep
    split at hstep
    · split_ifs at hstep
      cases hstep
      exact iff_of_true hheld rfl
    · cases hstep
  | commitApproval rid id =>
    simp only [DesignProfiles.step] at hstep
    split at hstep
    · next c doomed hc hnew =>
      simp only [note, uncrossed, hc]
      split_ifs at hstep with hadmits
      · cases hstep
        rw [hadmits, if_pos rfl, Bool.not_true, Bool.false_or, decide_eq_true_eq]
        exact h.held_approve_iff hheld (h.flight rid _ hc) hadmits hnew rfl
      · cases hstep
        rw [if_neg hadmits]
        exact iff_of_true hheld (by simp [hadmits])
    · cases hstep
  | reject rid caller projectId id reason now =>
    simp only [DesignProfiles.step] at hstep
    split at hstep
    · cases hstep
      exact iff_of_true hheld rfl
    · cases hstep
  | commitRejection rid =>
    simp only [DesignProfiles.step] at hstep
    split at hstep
    · next c hc =>
      split_ifs at hstep
      cases hstep
      simp only [note, uncrossed, hc, List.all_eq_true, Prod.forall, Table.mem_rows,
        decide_eq_true_eq]
      exact held_reject_iff hheld c
    · cases hstep
  | abort rid =>
    simp only [DesignProfiles.step] at hstep
    split_ifs at hstep
    cases hstep
    exact iff_of_true hheld rfl

/-! ## Every run -/

/-- No approvals and no rejections. -/
def noDecisions : History := ⟨fun _ _ => none, []⟩

/-- **The effective design profile.** In every run, all committed states resolve to the last approvals,
and to no rejected revision, exactly when its steps are uncrossed. -/
theorem effective_profile (tenantOf : ProjectId → TenantId) (as : List Action) :
    Along (withGhost (step tenantOf) note) (fun _ _ y => InForce tenantOf y.1 y.2)
        (start, noDecisions) as ↔
      Along (withGhost (step tenantOf) note) (fun x a _ => uncrossed x.1 x.2 a = true)
        (start, noDecisions) as := by
  refine along_invariant_iff
    (J := fun x : State × History => Sound tenantOf x.1 x.2.lastApproved)
    (I := fun x : State × History => InForce tenantOf x.1 x.2) (fun x a y h hxy => ?_)
    (fun x a y h hforce hxy => ?_)
    sound_start (sound_start.inForce_iff.mpr (fun _ _ h => by cases h))
  · obtain ⟨hy, hnote⟩ := withGhost_eq_some.mp hxy
    rw [hnote]
    exact h.step hy
  · obtain ⟨hy, hnote⟩ := withGhost_eq_some.mp hxy
    have hsound := h.step hy
    rw [hnote, hsound.inForce_iff]
    exact h.held_step_iff (h.inForce_iff.mp hforce) hy

/-- A user of the only tenant. -/
def reviewer : Caller := ⟨5, false, some 1⟩

/-- A revision is approved while a rejection that has read it is about to commit. -/
def crossed : List Action :=
  [.create 7 1 .project "h7", .submit 7, .reject 0 reviewer 1 7 (some "Not our colours") 20,
    .approve 1 reviewer 1 7 false none 21, .replace 1, .commitApproval 1 1]

/-- The assignment points to a rejected revision. -/
theorem assigned_profile_rejected :
    ¬ Along (withGhost (step (fun _ => 1)) note) (fun _ _ y => InForce (fun _ => 1) y.1 y.2)
      (start, noDecisions) (crossed ++ [.commitRejection 0]) := by
  intro hall
  have hrun : (exec (withGhost (step (fun _ => 1)) note) (start, noDecisions) crossed).any (fun x =>
      (withGhost (step (fun _ => 1)) note x (.commitRejection 0)).any (fun y =>
        (y.1.db.assignments.get 1).any (fun a => decide (a.profileRevisionId = 7)) &&
          (y.1.db.revisions.get 7).any (fun r => decide (r.state = .rejected)))) = true := by
    decide +kernel
  obtain ⟨x, hx, hrun⟩ := (Option.any_eq_true _ _).mp hrun
  obtain ⟨y, hy, hfacts⟩ := (Option.any_eq_true _ _).mp hrun
  obtain ⟨hassigned, hrejected⟩ := Bool.and_eq_true_iff.mp hfacts
  obtain ⟨a, ha, hid⟩ := (Option.any_eq_true _ _).mp hassigned
  obtain ⟨r, hr, hrejected⟩ := (Option.any_eq_true _ _).mp hrejected
  obtain ⟨r', hr', happroved⟩ := (hall.at hx hy).assigned 1 a ha
  rw [of_decide_eq_true hid, hr] at hr'
  cases hr'
  rw [of_decide_eq_true hrejected] at happroved
  cases happroved

end MegaPanel.DesignProfiles
