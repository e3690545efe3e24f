import MegaPanel.SystemOperations.Model

set_option autoImplicit false

/-! # Terminal operations stay so

A webhook works on a row that it has locked while it was active: nothing else writes that row
before it does. The dispatching request and the polls assign a status to a copy that they have read
before a call to GitHub, and their `UPDATE` has no condition on the status. `terminal_operations`
says when that does harm: exactly when the row has reached a terminal status in the meantime, and
the request writes another one.

That a tenant has one active operation at most is the work of the index, in every run.
-/

namespace MegaPanel.SystemOperations

open MegaPanel.Lib

/-- Operations with a terminal status keep it. -/
def Kept (w t : World) : Prop :=
  ∀ id operation, w.operations.get id = some operation → operation.status.isTerminal = true →
    ∃ operation', t.operations.get id = some operation' ∧ operation'.status = operation.status

/-- A tenant has one active operation at most. -/
def OneActive (w : World) : Prop :=
  ∀ id id' operation operation', w.operations.get id = some operation →
    w.operations.get id' = some operation' → operation.tenantId = operation'.tenantId →
    operation.status.isActive = true → operation'.status.isActive = true → id = id'

/-- The write leaves the status as it was read, or finds a row that is not terminal, or one that
has the status already. -/
def Write.harmless (w : World) (x : Write) : Bool :=
  (w.operations.get x.id).all (fun row => decide (x.current.status = x.loaded.status)
    || !row.status.isTerminal || decide (row.status = x.current.status))

/-- The outcome of a dispatch or of a poll finds no other terminal status in the row. -/
def undisturbed (w : World) : Action → Bool
  | .complete _ _ _ => true
  | a => (write w a).all (fun x => x.harmless w)

/-! ## Steps -/

variable {w t : World} {sid other : SessionId} {x : Write} {a : Action} {s : Session}
  {id : OperationId}

/-- What a step does. -/
inductive Move (w : World) : Action → World → Prop
  | create (sid : SessionId) (id : OperationId) (body : Create) (operation : Operation)
      (hnew : w.operations.get id = none) (hfits : w.fits id operation = true) :
      Move w (.create sid id body) { w with
        operations := w.operations.set id operation
        sessions := w.sessions.set sid (.created id) }
  | session {a : Action} (sid : SessionId) (s : Session) (hwrite : write w a = none)
      (hs : s.held = none) : Move w a (w.setSession sid s)
  | hold (sid : SessionId) (requestId workflow deliveryId : String) (id : OperationId)
      (row : Operation) (hrow : w.operations.get id = some row)
      (hactive : row.status.isActive = true) (hfree : w.locked sid id = false) :
      Move w (.webhook sid requestId workflow deliveryId)
        (w.setSession sid (.webhook id row deliveryId))
  | write {a : Action} {t : World} (sid : SessionId) (x : Write) (row : Operation)
      (hwrite : write w a = some x) (hrow : w.operations.get x.id = some row)
      (hfree : w.locked sid x.id = false)
      (hfits : w.fits x.id (Operation.flush x.loaded x.current row) = true)
      (hoperations : t.operations = w.operations.set x.id
        (Operation.flush x.loaded x.current row))
      (hsessions : ∀ other s id, t.sessions.get other = some s → s.held = some id →
        other ≠ sid ∧ w.sessions.get other = some s) : Move w a t
  | abort (sid : SessionId) : Move w (.abort sid) (w.endSession sid)

theorem apply_eq_some (h : w.apply sid x = some t) :
    ∃ row, w.operations.get x.id = some row ∧ w.locked sid x.id = false ∧
      w.fits x.id (Operation.flush x.loaded x.current row) = true ∧
      t = { w with
        operations := w.operations.set x.id (Operation.flush x.loaded x.current row) } := by
  obtain ⟨row, hrow, h⟩ := Option.bind_eq_some_iff.mp h
  dsimp only at h
  split at h
  · next hok =>
    cases h
    exact ⟨row, hrow, hok.1, hok.2, rfl⟩
  · cases h

/-- A write after which the session of the writer is over, or holds nothing. -/
theorem move_of_apply {u : World} (hwrite : write w a = some x) (h : w.apply sid x = some t)
    (hoperations : u.operations = t.operations)
    (hsessions : ∀ other s id, u.sessions.get other = some s → s.held = some id →
      other ≠ sid ∧ t.sessions.get other = some s) : Move w a u := by
  obtain ⟨row, hrow, hfree, hfits, rfl⟩ := apply_eq_some h
  exact .write sid x row hwrite hrow hfree hfits hoperations hsessions

/-- The sessions that hold a row after a session has ended. -/
theorem held_endSession (h : (w.endSession sid).sessions.get other = some s)
    (_ : s.held = some id) :
    other ≠ sid ∧ w.sessions.get other = some s := Table.get_erase_eq_some.mp h

theorem held_setSession {s' : Session} (hs : s'.held = none)
    (h : (w.setSession sid s').sessions.get other = some s) (hid : s.held = some id) :
    other ≠ sid ∧ w.sessions.get other = some s := by
  rcases Table.get_set_eq_some.mp h with ⟨_, rfl⟩ | hold
  · rw [hs] at hid
    cases hid
  · exact hold

theorem step_move (h : step w a = some t) : Move w a t := by
  cases a with
  | create sid id body =>
    simp only [step] at h
    split at h
    · next hok =>
      cases h
      exact .create sid id body _ hok.2.1 hok.2.2.1
    · cases h
  | load sid =>
    obtain ⟨s, hs, h⟩ := Option.bind_eq_some_iff.mp h
    cases s with
    | created id =>
      obtain ⟨row, _, rfl⟩ := Option.map_eq_some_iff.mp h
      exact .session sid _ rfl rfl
    | dispatching | polling | webhook => cases h
  | markQueued sid | dispatchFailure sid code now =>
    obtain ⟨x, hwrite, h⟩ := Option.bind_eq_some_iff.mp h
    obtain ⟨u, hu, rfl⟩ := Option.map_eq_some_iff.mp h
    exact move_of_apply hwrite hu rfl (fun _ _ _ => held_endSession)
  | poll sid ids =>
    simp only [step] at h
    split at h
    · cases h
      exact .session sid _ rfl rfl
    · cases h
  | refresh sid result now =>
    obtain ⟨s, hs, h⟩ := Option.bind_eq_some_iff.mp h
    cases s with
    | polling todo =>
      cases todo with
      | nil => cases h
      | cons r todo =>
        dsimp only at h
        split at h
        · next x hwrite =>
          obtain ⟨u, hu, rfl⟩ := Option.map_eq_some_iff.mp h
          exact move_of_apply hwrite hu rfl (fun _ _ _ => held_setSession rfl)
        · next hwrite =>
          cases h
          exact .session sid _ hwrite rfl
    | created | dispatching | webhook => cases h
  | webhook sid requestId workflow deliveryId =>
    simp only [step] at h
    split at h
    · obtain ⟨⟨id, row⟩, hfind, rfl⟩ := Option.map_eq_some_iff.mp h
      have hrow := Table.mem_rows.mp (List.mem_of_find?_eq_some hfind)
      have hok := List.find?_some hfind
      simp only [Bool.and_eq_true, Bool.not_eq_true'] at hok
      exact .hold sid requestId workflow deliveryId id row hrow hok.1.2 hok.2
    · cases h
  | complete sid run now =>
    obtain ⟨s, hs, h⟩ := Option.bind_eq_some_iff.mp h
    cases s with
    | webhook id loaded deliveryId =>
      dsimp only at h
      split_ifs at h
      obtain ⟨x, hwrite, h⟩ := Option.bind_eq_some_iff.mp h
      obtain ⟨u, hu, rfl⟩ := Option.map_eq_some_iff.mp h
      exact move_of_apply hwrite hu rfl (fun _ _ _ => held_endSession)
    | created | dispatching | polling => cases h
  | abort sid =>
    obtain ⟨s, _, rfl⟩ := Option.map_eq_some_iff.mp h
    exact .abort sid

/-! ## One active operation -/

variable {operation : Operation}

theorem fits_eq_true {other : OperationId} {operation' : Operation} (h : w.fits id operation = true)
    (hactive : operation.status.isActive = true) (hother : w.operations.get other = some operation')
    (htenant : operation'.tenantId = operation.tenantId)
    (hactive' : operation'.status.isActive = true) : other = id := by
  simp only [World.fits, hactive, Bool.not_true, Bool.false_or, List.all_eq_true] at h
  simpa [htenant, hactive'] using h (other, operation') (Table.mem_rows.mpr hother)

/-- The index after a row has been written that it admits. -/
theorem OneActive.set (h : OneActive w) (hfits : w.fits id operation = true)
    (ht : t.operations = w.operations.set id operation) : OneActive t := by
  intro j j' x x' hx hx' htenant hactive hactive'
  rw [ht] at hx hx'
  rcases Table.get_set_eq_some.mp hx with ⟨rfl, rfl⟩ | ⟨_, hold⟩
  · rcases Table.get_set_eq_some.mp hx' with ⟨rfl, _⟩ | ⟨_, hold'⟩
    · rfl
    · exact (fits_eq_true hfits hactive hold' htenant.symm hactive').symm
  · rcases Table.get_set_eq_some.mp hx' with ⟨rfl, rfl⟩ | ⟨_, hold'⟩
    · exact fits_eq_true hfits hactive' hold htenant hactive
    · exact h j j' x x' hold hold' htenant hactive hactive'

theorem OneActive.idle (h : Idle w) : OneActive w := by
  intro id id' operation operation' hget hget' htenant hactive hactive'
  exact fits_eq_true (h.index id' operation' hget') hactive' hget htenant hactive

theorem OneActive.step (h : OneActive w) (hstep : SystemOperations.step w a = some t) :
    OneActive t := by
  cases step_move hstep with
  | create sid id body operation hnew hfits => exact h.set hfits rfl
  | session | hold | abort => exact h
  | write sid x row hwrite hrow hfree hfits hoperations hsessions =>
    exact h.set hfits hoperations

/-! ## Rows that a webhook has locked -/

/-- A row that a webhook has locked is active, and no other webhook has locked it. -/
structure Held (w : World) : Prop where
  active : ∀ sid s id, w.sessions.get sid = some s → s.held = some id →
    ∃ row, w.operations.get id = some row ∧ row.status.isActive = true
  exclusive : ∀ sid sid' s s' id, w.sessions.get sid = some s → w.sessions.get sid' = some s' →
    s.held = some id → s'.held = some id → sid = sid'

theorem Held.idle (h : Idle w) : Held w where
  active := by
    intro sid s id hs
    rw [h.sessions] at hs
    cases hs
  exclusive := by
    intro sid sid' s s' id hs
    rw [h.sessions] at hs
    cases hs

theorem not_locked (h : w.locked sid id = false) (hs : w.sessions.get other = some s)
    (hid : s.held = some id) : other = sid := by
  by_contra hne
  rw [World.locked, List.any_eq_false] at h
  refine h (other, s) (Table.mem_rows.mpr hs) ?_
  simp [hne, hid]

/-- A step after which no session holds a row that it has not held before. -/
theorem Held.keep (h : Held w)
    (hsessions : ∀ sid s id, t.sessions.get sid = some s → s.held = some id →
      w.sessions.get sid = some s)
    (hrows : ∀ sid s id row, t.sessions.get sid = some s → s.held = some id →
      w.operations.get id = some row → t.operations.get id = some row) : Held t where
  active := by
    intro sid s id hs hid
    obtain ⟨row, hrow, hactive⟩ := h.active sid s id (hsessions sid s id hs hid) hid
    exact ⟨row, hrows sid s id row hs hid hrow, hactive⟩
  exclusive := by
    intro sid sid' s s' id hs hs' hid hid'
    exact h.exclusive sid sid' s s' id (hsessions sid s id hs hid) (hsessions sid' s' id hs' hid')
      hid hid'

theorem Held.step (h : Held w) (hstep : SystemOperations.step w a = some t) : Held t := by
  cases step_move hstep with
  | create sid id body operation hnew hfits =>
    refine h.keep (fun other s j hs hj => ?_) (fun other s j row hs hj hrow => ?_)
    · rcases Table.get_set_eq_some.mp hs with ⟨_, rfl⟩ | ⟨_, hold⟩
      · cases hj
      · exact hold
    · have hne : j ≠ id := by
        rintro rfl
        rw [hnew] at hrow
        cases hrow
      rw [Table.get_set_ne _ hne, hrow]
  | session sid s hwrite hs =>
    exact h.keep (fun other s' j hs' hj => (held_setSession hs hs' hj).2)
      (fun _ _ _ _ _ _ hrow => hrow)
  | abort sid =>
    exact h.keep (fun other s j hs hj => (held_endSession hs hj).2)
      (fun _ _ _ _ _ _ hrow => hrow)
  | hold sid requestId workflow deliveryId id row hrow hactive hfree =>
    refine ⟨fun other s j hs hj => ?_, fun other other' s s' j hs hs' hj hj' => ?_⟩
    · rcases Table.get_set_eq_some.mp hs with ⟨_, rfl⟩ | ⟨_, hold⟩
      · cases hj
        exact ⟨row, hrow, hactive⟩
      · exact h.active other s j hold hj
    · rcases Table.get_set_eq_some.mp hs with ⟨rfl, rfl⟩ | ⟨_, hold⟩
      · cases hj
        rcases Table.get_set_eq_some.mp hs' with ⟨rfl, _⟩ | ⟨_, hold'⟩
        · rfl
        · exact (not_locked hfree hold' hj').symm
      · rcases Table.get_set_eq_some.mp hs' with ⟨rfl, rfl⟩ | ⟨_, hold'⟩
        · cases hj'
          exact not_locked hfree hold hj
        · exact h.exclusive other other' s s' j hold hold' hj hj'
  | write sid x row hwrite hrow hfree hfits hoperations hsessions =>
    refine h.keep (fun other s j hs hj => (hsessions other s j hs hj).2)
      (fun other s j r hs hj hr => ?_)
    obtain ⟨hother, hold⟩ := hsessions other s j hs hj
    have hne : j ≠ x.id := by
      rintro rfl
      exact hother (not_locked hfree hold hj)
    rw [hoperations, Table.get_set_ne _ hne, hr]

/-! ## Runs -/

theorem flush_status (x : Write) (row : Operation) :
    (Operation.flush x.loaded x.current row).status = row.status ↔
      x.current.status = x.loaded.status ∨ row.status = x.current.status := by
  simp only [Operation.flush, writeCol]
  split
  · next hclean => simp [hclean]
  · next hdirty => simp [hdirty, eq_comm]

/-- The write of a webhook is about a row that is active. -/
theorem harmless_complete {run : WorkflowRun} {now : Time} (h : Held w)
    (hwrite : write w (.complete sid run now) = some x) : x.harmless w = true := by
  simp only [write] at hwrite
  split at hwrite
  · next id loaded deliveryId hs =>
    obtain ⟨current, _, rfl⟩ := Option.map_eq_some_iff.mp hwrite
    obtain ⟨row, hrow, hactive⟩ := h.active sid _ id hs rfl
    simp [Write.harmless, hrow, Status.not_terminal_of_active hactive]
  · cases hwrite

theorem undisturbed_iff (h : Held w) :
    undisturbed w a = true ↔ ∀ x, write w a = some x → x.harmless w = true := by
  cases a with
  | complete sid run now =>
    exact ⟨fun _ x hx => harmless_complete h hx, fun _ => rfl⟩
  | _ =>
    simp only [undisturbed]
    rw [Option.all_eq_true_iff_get]
    grind

theorem kept_iff (h : Held w) (hstep : SystemOperations.step w a = some t) :
    Kept w t ↔ undisturbed w a = true := by
  rw [undisturbed_iff h]
  cases step_move hstep with
  | create sid id body operation hnew hfits =>
    refine ⟨fun _ x hx => (by cases hx), fun _ j row hrow _ => ⟨row, ?_, rfl⟩⟩
    have hne : j ≠ id := by
      rintro rfl
      rw [hnew] at hrow
      cases hrow
    rw [Table.get_set_ne _ hne, hrow]
  | session sid s hwrite hs =>
    refine ⟨fun _ x hx => ?_, fun _ j row hrow _ => ⟨row, hrow, rfl⟩⟩
    rw [hwrite] at hx
    cases hx
  | hold | abort => exact ⟨fun _ x hx => (by cases hx), fun _ j row hrow _ => ⟨row, hrow, rfl⟩⟩
  | write sid x row hwrite hrow hfree hfits hoperations hsessions =>
    constructor
    · intro hkept y hy
      rw [hwrite] at hy
      cases hy
      rw [Write.harmless, hrow, Option.all_some]
      cases hterminal : row.status.isTerminal with
      | false => simp
      | true =>
        obtain ⟨row', hrow', hstatus⟩ := hkept x.id row hrow hterminal
        rw [hoperations, Table.get_set_self] at hrow'
        cases hrow'
        simpa using (flush_status x row).mp hstatus
    · intro hharmless id operation hget hterminal
      rw [hoperations]
      by_cases hid : id = x.id
      · subst hid
        rw [hrow] at hget
        cases hget
        refine ⟨_, Table.get_set_self _ _ _, (flush_status x row).mpr ?_⟩
        have hx := hharmless x hwrite
        rw [Write.harmless, hrow, Option.all_some, hterminal] at hx
        simpa using hx
      · exact ⟨operation, by rw [Table.get_set_ne _ hid, hget], rfl⟩

/-- **Terminal operations.** In every run a tenant has one active operation at most; and operations
with a terminal status keep it exactly if every outcome of a dispatch or a poll that assigns another
status finds the row without a terminal one. -/
theorem terminal_operations {w : World} (h : Idle w) (run : List Action) :
    Along step (fun _ _ t => OneActive t) w run ∧
      (Along step (fun s _ t => Kept s t) w run ↔
        Along step (fun s a _ => undisturbed s a = true) w run) := by
  constructor
  · exact along_rule (G := fun _ _ _ => True) (I := OneActive)
      (fun s a t hs _ hstep => ⟨hs.step hstep, hs.step hstep⟩) (OneActive.idle h)
      (along_of_forall (Q := fun _ => True) (fun _ _ => trivial) w)
  · exact along_iff (I := Held) (fun s a t hs hstep => hs.step hstep)
      (fun s a t hs hstep => kept_iff hs hstep) (Held.idle h)

/-! ## A deployment that a poll follows -/

def noOperations : World := ⟨Table.empty, [], Table.empty⟩

def deploy : Create := ⟨1, "update", "deploy", "deploy-production.yml", none, none, "r1"⟩

def running : WorkflowRun := ⟨5, none, "in_progress", none⟩

def succeeded : WorkflowRun := ⟨5, none, "completed", some "success"⟩

/-- The poll ends before the webhook comes. -/
def followed : List Action :=
  [.create 1 1 deploy, .load 1, .markQueued 1, .poll 2 [1], .refresh 2 (.ok (some running)) 10,
    .webhook 3 "r1" "deploy-production.yml" "d1", .complete 3 succeeded 20]

/-- GitHub has told the poll that the run is in progress, and the webhook that it has succeeded. -/
def overtaken : List Action :=
  [.create 1 1 deploy, .load 1, .markQueued 1, .poll 2 [1],
    .webhook 3 "r1" "deploy-production.yml" "d1", .complete 3 succeeded 20,
    .refresh 2 (.ok (some running)) 21]

theorem noOperations_idle : Idle noOperations where
  index := by
    intro id operation h
    cases h
  sessions := fun _ => rfl

theorem terminal_operations_followed :
    (exec step noOperations followed).map (fun t => (t.operations.get 1).map (·.status))
        = some (some .success) ∧
      Along step (fun _ _ t => OneActive t) noOperations followed ∧
      Along step (fun s _ t => Kept s t) noOperations followed := by
  obtain ⟨hone, hkept⟩ := terminal_operations noOperations_idle followed
  exact ⟨by decide +kernel, hone, hkept.mpr (by decide +kernel)⟩

/-- The poll takes the operation back from `success` to `in_progress`. -/
theorem terminal_operations_overtaken :
    Idle noOperations ∧
      (exec step noOperations overtaken).map (fun t => (t.operations.get 1).map (·.status))
        = some (some .inProgress) ∧
      ¬ Along step (fun s _ t => Kept s t) noOperations overtaken := by
  refine ⟨noOperations_idle, by decide +kernel, fun hkept => ?_⟩
  have hcond := (terminal_operations noOperations_idle overtaken).2.mp hkept
  revert hcond
  decide +kernel

end MegaPanel.SystemOperations
