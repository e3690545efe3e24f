import MegaPanel.StorageRetention.Deletions

set_option autoImplicit false

/-! # Retention runs and the deaths of sweeps

A queued run leaves the queue: each complete sweep takes the first queued run, so after as many
complete sweeps as there are runs before it the run has been taken (`sweeps_pass`). This holds
whatever dies meanwhile.

What does not hold is that the run then reaches its end. `process_queued_retention_runs` selects
the runs that are `queued`, nothing else looks for the runs that are `processing`, and the schedule
adds no run for a tenant that has one of either. So a run whose sweep dies after its first
transaction is `processing` for ever, and its tenant never gets another one. `retention_runs` has
the condition: no sweep dies while it is executing a run. The other recovery sweeps of `worker.py`
look for the work of dead workers; this one does not.
-/

namespace MegaPanel.StorageRetention

open MegaPanel.Lib

variable {hash : Policy → String}

/-! ## The order of the queue -/

variable {n limit : Nat} {w : World} {id k : RunId}

theorem lex_total (x y m n : Nat) : (x < y ∨ x = y ∧ m ≤ n) ∨ (y < x ∨ y = x ∧ n ≤ m) := by
  omega

theorem lex_trans {x y z m k : Nat} (h : x < y ∨ x = y ∧ m ≤ n) (h' : y < z ∨ y = z ∧ n ≤ k) :
    x < z ∨ x = z ∧ m ≤ k := by
  omega

instance : Std.Total runLe where
  total a b := lex_total a.2.createdAt b.2.createdAt a.1 b.1

instance : IsTrans (RunId × Run) runLe where
  trans _ _ _ h h' := lex_trans h h'

/-- The other runs that come before a run in the order of the sweeps. -/
def World.ahead (w : World) (id : RunId) : List RunId :=
  match w.runs.get id with
  | none => []
  | some run =>
    (w.runs.rows.filter (fun r => decide (r.1 ≠ id) && decide (runLe r (id, run)))).map (·.1)

/-- Those of them that have left the queue. -/
def World.passed (w : World) (id : RunId) : List RunId :=
  (w.ahead id).filter (fun k => (w.runs.get k).any (·.status.hasLeft))

theorem mem_ahead : k ∈ w.ahead id ↔ ∃ run other,
    w.runs.get id = some run ∧ w.runs.get k = some other ∧ k ≠ id ∧ runLe (k, other) (id, run) := by
  unfold World.ahead
  cases hrun : w.runs.get id with
  | none => simp
  | some run =>
    simp only [List.mem_map, List.mem_filter, Prod.exists, Table.mem_rows, Bool.and_eq_true,
      decide_eq_true_eq]
    constructor
    · rintro ⟨_, other, ⟨hother, hne, hle⟩, rfl⟩
      exact ⟨run, other, rfl, hother, hne, hle⟩
    · rintro ⟨_, other, ⟨⟩, hother, hne, hle⟩
      exact ⟨k, other, ⟨hother, hne, hle⟩, rfl⟩

theorem nodup_ahead (w : World) (id : RunId) : (w.ahead id).Nodup := by
  unfold World.ahead
  split
  · exact List.nodup_nil
  refine List.Nodup.sublist (List.filter_sublist.map _) ?_
  rw [Table.rows_keys]
  exact w.runs.nodup

theorem mem_passed : k ∈ w.passed id ↔
    k ∈ w.ahead id ∧ ∃ other, w.runs.get k = some other ∧ other.status.hasLeft = true := by
  rw [World.passed, List.mem_filter, Option.any_eq_true]

theorem nodup_passed (w : World) (id : RunId) : (w.passed id).Nodup := (nodup_ahead w id).filter _

theorem length_passed_le (w : World) (id : RunId) : (w.passed id).length ≤ (w.ahead id).length :=
  List.length_filter_le _ _

/-- A sweep that takes runs takes the first of the queue. -/
theorem queuedIds_first (hlimit : 0 < limit) {run : Run} (hrun : w.runs.get id = some run)
    (hqueued : run.status = .queued) :
    ∃ first other, first ∈ w.queuedIds limit ∧ w.runs.get first = some other
      ∧ other.status = .queued ∧ (first = id ∨ first ∈ w.ahead id) := by
  have hmem : (id, run) ∈ (w.runs.rows.filter
      (fun r => decide (r.2.status = .queued))).insertionSort runLe := by
    rw [List.mem_insertionSort, List.mem_filter]
    exact ⟨Table.mem_rows.mpr hrun, decide_eq_true hqueued⟩
  have hsorted := List.pairwise_insertionSort runLe
    (w.runs.rows.filter (fun r => decide (r.2.status = .queued)))
  unfold World.queuedIds
  cases hqueue : (w.runs.rows.filter
      (fun r => decide (r.2.status = .queued))).insertionSort runLe with
  | nil =>
    rw [hqueue] at hmem
    cases hmem
  | cons first rest =>
    rw [hqueue] at hmem hsorted
    have hfirst : first ∈ w.runs.rows.filter (fun r => decide (r.2.status = .queued)) := by
      rw [← List.mem_insertionSort runLe, hqueue]
      exact List.mem_cons_self ..
    obtain ⟨hrow, hstatus⟩ := List.mem_filter.mp hfirst
    have hget : w.runs.get first.1 = some first.2 := Table.mem_rows.mp hrow
    refine ⟨first.1, first.2, ?_, hget, of_decide_eq_true hstatus, ?_⟩
    · obtain ⟨n, rfl⟩ := Nat.exists_eq_succ_of_ne_zero (Nat.pos_iff_ne_zero.mp hlimit)
      exact List.mem_cons_self ..
    · by_cases hid : first.1 = id
      · exact .inl hid
      · rcases List.mem_cons.mp hmem with heq | hrest
        · exact absurd (by rw [← heq]) hid
        · have hle : runLe first (id, run) := List.rel_of_pairwise_cons hsorted hrest
          exact .inr (mem_ahead.mpr ⟨run, first.2, hrun, hget, hid, hle⟩)

/-! ## A sweep gets through what it has taken -/

variable {t : World} {as during : List Action} {sid : SweepId}

theorem Kept.trans {r s t : Run} (h : Kept r s) (h' : Kept s t) : Kept r t where
  tenantId := h'.tenantId.trans h.tenantId
  createdAt := h'.createdAt.trans h.createdAt
  startedAt := fun hleft => (h'.startedAt (h.hasLeft hleft)).trans (h.startedAt hleft)
  rank := h.rank.trans h'.rank

theorem exec_kept (he : exec (step hash) w as = some t) {run : Run}
    (hrun : w.runs.get id = some run) : ∃ run', t.runs.get id = some run' ∧ Kept run run' := by
  refine exec_invariant (G := fun _ _ _ => True)
    (I := fun s => ∃ run', s.runs.get id = some run' ∧ Kept run run') ?_ ⟨run, hrun, .rfl run⟩
    (along_of_forall (fun _ _ => trivial) w) he
  rintro s a u ⟨run', hrun', hkept⟩ _ hstep
  obtain ⟨run'', hrun'', hkept'⟩ := run_kept (step_move hstep) hrun'
  exact ⟨run'', hrun'', hkept.trans hkept'⟩

/-- The runs ahead of a run stay ahead of it. -/
theorem ahead_mono (he : exec (step hash) w as = some t) : w.ahead id ⊆ t.ahead id := by
  intro k hk
  obtain ⟨run, other, hrun, hother, hne, hle⟩ := mem_ahead.mp hk
  obtain ⟨run', hrun', hkept⟩ := exec_kept he hrun
  obtain ⟨other', hother', hkept'⟩ := exec_kept he hother
  refine mem_ahead.mpr ⟨run', other', hrun', hother', hne, ?_⟩
  simp only [runLe, hkept.createdAt, hkept'.createdAt] at hle ⊢
  exact hle

/-- Those that have left the queue stay out of it. -/
theorem passed_mono (he : exec (step hash) w as = some t) : w.passed id ⊆ t.passed id := by
  intro k hk
  obtain ⟨hahead, _, hother, hleft⟩ := mem_passed.mp hk
  obtain ⟨other', hother', hkept⟩ := exec_kept he hother
  exact mem_passed.mpr ⟨ahead_mono he hahead, other', hother', hkept.hasLeft hleft⟩

/-- As long as a sweep goes on, a run that it has taken waits its turn or is not queued. -/
theorem todo_step {w t : World} {a : Action} (h : Move w a t) {sid : SweepId} {sweep : Sweep}
    {id : RunId} (hget : w.sweeps.get sid = some sweep) (hlive : a ≠ .complete sid ∧ a ≠ .die sid) :
    ∃ sweep', t.sweeps.get sid = some sweep' ∧ (id ∈ sweep.todo → id ∈ sweep'.todo
      ∨ ∀ run, t.runs.get id = some run → run.status ≠ .queued) := by
  have hset : ∀ {j : SweepId} {old new : Sweep}, w.sweeps.get j = some old →
      (id ∈ old.todo → id ∈ new.todo ∨ ∀ run, t.runs.get id = some run → run.status ≠ .queued) →
      ∃ sweep', (w.sweeps.set j new).get sid = some sweep' ∧ (id ∈ sweep.todo → id ∈ sweep'.todo
        ∨ ∀ run, t.runs.get id = some run → run.status ≠ .queued) := by
    intro j old new hold hnew
    by_cases hj : sid = j
    · subst hj
      cases hold.symm.trans hget
      exact ⟨new, Table.get_set_self .., hnew⟩
    · exact ⟨sweep, by rw [Table.get_set_ne _ hj, hget], .inl⟩
  cases h with
  | configure | change | request | pass | scheduleCommit => exact ⟨sweep, hget, .inl⟩
  | start j limit now hidle =>
    have hj : sid ≠ j := fun heq => by rw [← heq, hget] at hidle; cases hidle
    exact ⟨sweep, (Table.get_set_ne _ hj _).trans hget, .inl⟩
  | skip j now k rest hold hrun =>
    refine hset hold (fun hmem => ?_)
    rcases List.mem_cons.mp hmem with rfl | hmem
    · exact .inr hrun
    · exact .inl hmem
  | policyChanged j now k rest run hold | claim j now k rest run hold =>
    refine hset hold (fun hmem => ?_)
    rcases List.mem_cons.mp hmem with rfl | hmem
    · refine .inr (fun run' hrun' => ?_)
      cases (Table.get_set_self ..).symm.trans hrun'
      exact nofun
    · exact .inl hmem
  | phase j now todo old op phase hold | finish j now _ todo old d hold
  | fail j now _ todo old hold => exact hset hold .inl
  | complete j =>
    have hj : sid ≠ j := fun heq => hlive.1 (by rw [heq])
    exact ⟨sweep, (Table.get_erase_ne _ hj).trans hget, .inl⟩
  | die j =>
    have hj : sid ≠ j := fun heq => hlive.2 (by rw [heq])
    exact ⟨sweep, (Table.get_erase_ne _ hj).trans hget, .inl⟩

/-- The run is queued or has been. -/
def WasQueued (w : World) (id : RunId) : Prop :=
  ∃ run, w.runs.get id = some run ∧ 1 ≤ run.status.rank

/-- The run has left the queue. -/
def HasLeft (w : World) (id : RunId) : Prop :=
  ∃ run, w.runs.get id = some run ∧ run.status.hasLeft = true

theorem hasLeft_of_not_queued {status : Status} (hrank : 1 ≤ status.rank)
    (hother : status ≠ .queued) : status.hasLeft = true := by
  cases status with
  | preview => cases hrank
  | queued => exact absurd rfl hother
  | processing | succeeded | failed => rfl

/-- When a sweep completes, the runs that it has taken have left the queue. -/
theorem sweep_takes {s : World} {sweep : Sweep} (hw : WasQueued w id)
    (hget : w.sweeps.get sid = some sweep) (hid : id ∈ sweep.todo)
    (hlive : ∀ a ∈ during, a ≠ .complete sid ∧ a ≠ .die sid)
    (hs : exec (step hash) w during = some s) (ht : step hash s (.complete sid) = some t) :
    HasLeft t id := by
  have hkept : WasQueued s id ∧ ∃ sweep, s.sweeps.get sid = some sweep
      ∧ (id ∈ sweep.todo ∨ ∀ run, s.runs.get id = some run → run.status ≠ .queued) := by
    refine exec_invariant (G := fun _ (a : Action) _ => a ≠ .complete sid ∧ a ≠ .die sid)
      (I := fun u => WasQueued u id ∧ ∃ sweep, u.sweeps.get sid = some sweep
        ∧ (id ∈ sweep.todo ∨ ∀ run, u.runs.get id = some run → run.status ≠ .queued)) ?_
      ⟨hw, sweep, hget, .inl hid⟩ (along_of_forall hlive w) hs
    rintro u a v ⟨⟨run, hrun, hrank⟩, sweep, hget, htodo⟩ hlive hstep
    have hmove := step_move hstep
    obtain ⟨run', hrun', hkept⟩ := run_kept hmove hrun
    refine ⟨⟨run', hrun', hrank.trans hkept.rank⟩, ?_⟩
    obtain ⟨sweep', hget', htodo'⟩ := @todo_step _ _ _ hmove _ _ id hget hlive
    refine ⟨sweep', hget', ?_⟩
    rcases htodo with hmem | hleft
    · exact htodo' hmem
    refine .inr (fun r hr hqueued => ?_)
    have hlater := hkept.hasLeft (hasLeft_of_not_queued hrank (hleft run hrun))
    cases hrun'.symm.trans hr
    rw [hqueued] at hlater
    cases hlater
  obtain ⟨⟨run, hrun, hrank⟩, sweep', hget', htodo⟩ := hkept
  simp only [step] at ht
  split at ht
  · next now hdone =>
    cases ht
    cases hget'.symm.trans hdone
    exact ⟨run, hrun,
      hasLeft_of_not_queued hrank (htodo.resolve_left List.not_mem_nil run hrun)⟩
  · cases ht

/-! ## Enough sweeps empty the queue -/

variable {now : Time}

/-- A run of the panel contains `n` sweeps that complete, one after the other. -/
inductive CompleteSweeps : Nat → List Action → Prop
  | zero (as : List Action) : CompleteSweeps 0 as
  | next (n : Nat) (before during after : List Action) (sid : SweepId) (limit : Nat) (now : Time)
      (hlimit : 0 < limit) (hlive : ∀ a ∈ during, a ≠ .complete sid ∧ a ≠ .die sid)
      (hrest : CompleteSweeps n after) :
      CompleteSweeps (n + 1)
        (before ++ .start sid limit now :: (during ++ .complete sid :: after))

theorem HasLeft.exec (he : exec (step hash) w as = some t) (h : HasLeft w id) : HasLeft t id := by
  obtain ⟨run, hrun, hleft⟩ := h
  obtain ⟨run', hrun', hkept⟩ := exec_kept he hrun
  exact ⟨run', hrun', hkept.hasLeft hleft⟩

theorem WasQueued.exec (he : exec (step hash) w as = some t) (h : WasQueued w id) :
    WasQueued t id := by
  obtain ⟨run, hrun, hrank⟩ := h
  obtain ⟨run', hrun', hkept⟩ := exec_kept he hrun
  exact ⟨run', hrun', hrank.trans hkept.rank⟩

/-- A complete sweep takes a run or one ahead of it. -/
theorem sweep_passes (hlimit : 0 < limit) (hlive : ∀ a ∈ during, a ≠ .complete sid ∧ a ≠ .die sid)
    (hw : WasQueued w id)
    (he : exec (step hash) w (.start sid limit now :: (during ++ [.complete sid])) = some t) :
    HasLeft t id ∨ (w.passed id).length < (t.passed id).length := by
  obtain ⟨run, hrun, hrank⟩ := hw
  by_cases hqueued : run.status = .queued
  swap
  · exact .inl (HasLeft.exec he ⟨run, hrun, hasLeft_of_not_queued hrank hqueued⟩)
  obtain ⟨first, other, hfirst, hother, hstatus, hahead⟩ := queuedIds_first hlimit hrun hqueued
  obtain ⟨s, hs, he'⟩ := exec_cons_eq_some.mp he
  rw [exec_append] at he'
  obtain ⟨u, hu, hcomplete⟩ := Option.bind_eq_some_iff.mp he'
  obtain ⟨t', ht, hnil⟩ := exec_cons_eq_some.mp hcomplete
  cases hnil
  have hbegun : s.runs = w.runs ∧ s.sweeps.get sid = some ⟨now, w.queuedIds limit, none⟩ := by
    simp only [step] at hs
    split at hs
    · cases hs
      exact ⟨rfl, Table.get_set_self ..⟩
    · cases hs
  have hleft : HasLeft t first := by
    refine sweep_takes ⟨other, by rw [hbegun.1, hother], ?_⟩ hbegun.2 hfirst hlive hu ht
    rw [hstatus]
    exact le_refl _
  rcases hahead with rfl | hahead
  · exact .inl hleft
  have hnew : first ∉ w.passed id := fun hmem => by
    obtain ⟨_, _, hget, hl⟩ := mem_passed.mp hmem
    cases hother.symm.trans hget
    rw [hstatus] at hl
    cases hl
  have hsub : (first :: w.passed id) ⊆ t.passed id :=
    List.cons_subset.mpr ⟨mem_passed.mpr ⟨ahead_mono he hahead, hleft⟩, passed_mono he⟩
  have hlength := ((List.nodup_cons.mpr ⟨hnew, nodup_passed w id⟩).subperm hsub).length_le
  exact .inr hlength

/-- **The queue moves.** Each complete sweep that leaves a run in the queue has taken another one
ahead of it. -/
theorem sweeps_pass (hn : CompleteSweeps n as) :
    ∀ {w t : World}, WasQueued w id → exec (step hash) w as = some t →
      HasLeft t id ∨ n + (w.passed id).length ≤ (t.passed id).length := by
  induction hn with
  | zero as =>
    intro w t _ he
    have hlength := ((nodup_passed w id).subperm (passed_mono he)).length_le
    exact .inr (by omega)
  | next n before during after sid limit now hlimit hlive _ ih =>
    intro w t hw he
    rw [exec_append] at he
    obtain ⟨s, hs, he⟩ := Option.bind_eq_some_iff.mp he
    have hsplit : Action.start sid limit now :: (during ++ .complete sid :: after)
        = (.start sid limit now :: (during ++ [.complete sid])) ++ after := by simp
    rw [hsplit, exec_append] at he
    obtain ⟨u, hu, he⟩ := Option.bind_eq_some_iff.mp he
    have hbefore := ((nodup_passed w id).subperm (passed_mono hs)).length_le
    have hws := WasQueued.exec hs hw
    rcases sweep_passes hlimit hlive hws hu with hleft | hpassed
    · exact .inl (HasLeft.exec he hleft)
    rcases ih (WasQueued.exec hu hws) he with hleft | hrest
    · exact .inl hleft
    · exact .inr (by omega)

/-! ## The properties and the condition -/

/-- A sweep is executing the run. -/
def Executed (w : World) (id : RunId) : Prop :=
  ∃ sid now e, Executes w.sweeps sid now e ∧ e.runId = id

/-- In a run of the panel that ends in `w`, every retention run that is queued at some point has
reached its end, or is executed by a sweep, once more sweeps have completed than there are runs
ahead of it. -/
def Recovers (policy : Policy) (as : List Action) (w : World) : Prop :=
  ∀ (bs cs : List Action) (u : World) (id : RunId) (run : Run) (n : Nat), as = bs ++ cs →
    exec (step policyHash) (.empty policy) bs = some u → u.runs.get id = some run →
    run.status = .queued → CompleteSweeps n cs → (w.ahead id).length < n →
    ∃ run', w.runs.get id = some run' ∧ (run'.status.isSettled = true ∨ Executed w id)

/-- A schedule pass adds a run for its next tenant unless one is queued or executed by a sweep, and
what it adds is queued when it commits. -/
def Schedules (w : World) (a : Action) (t : World) : Prop :=
  match a with
  | .scheduleNext pid _ _ => ∀ pass tenantId rest, w.passes.get pid = some pass →
      pass.todo = tenantId :: rest →
      (∃ pass', t.passes.get pid = some pass' ∧ ∃ r ∈ pass'.fresh, r.2.tenantId = tenantId) ∨
        ∃ id run, w.runs.get id = some run ∧ run.tenantId = tenantId
          ∧ (run.status = .queued ∨ Executed w id)
  | .scheduleCommit pid => ∀ pass, w.passes.get pid = some pass → ∀ r ∈ pass.fresh,
      ∃ run, t.runs.get r.1 = some run ∧ run.tenantId = r.2.tenantId ∧ run.status = .queued
  | _ => True

/-- What the retention runs have done to the data. -/
structure Purged (w : World) (g : Ledger) : Prop where
  /-- What was selected for a run matched the selectors of its tenant. -/
  matched : ∀ x ∈ g.selected, ∃ run, w.runs.get x.runId = some run
    ∧ run.startedAt = some x.now ∧ x.source.selects x.policy x.now run.tenantId x.row = true
  /-- Nothing but what was selected for a run has been deleted, and for that run. -/
  selected : ∀ x ∈ g.deleted, ∃ y ∈ g.selected, x = (some y.runId, y.id)
  failed : ∀ id run, w.runs.get id = some run → run.status = .failed →
    ∀ x ∈ g.deleted, x.1 ≠ some id
  succeeded : ∀ id run, w.runs.get id = some run → run.status = .succeeded →
    ∀ x ∈ g.selected, x.runId = id → (some id, x.id) ∈ g.deleted ∨ x.id ∈ g.lost
  /-- A run succeeds after its selectors have found nothing more. -/
  drained : ∀ id run, w.runs.get id = some run → run.status = .succeeded →
    ∀ source, (id, source) ∈ g.drained

/-- No sweep dies while it is executing a run. -/
def diesIdle (w : World) : Action → Bool
  | .die sid => (w.sweeps.get sid).all (fun sweep => sweep.executing.isNone)
  | _ => true

theorem not_executes_of_diesIdle {e : Execution} (h : diesIdle w (.die sid) = true) :
    ¬ Executes w.sweeps sid now e := by
  rintro ⟨todo, hget⟩
  rw [diesIdle, hget] at h
  cases h

theorem Accounted.purged {g : Ledger} (h : Accounted w g) : Purged w g where
  matched := by
    intro x hx
    obtain ⟨run, hrun, _, hrest⟩ := h.selected x hx
    exact ⟨run, hrun, hrest⟩
  selected := by
    intro x hx
    obtain ⟨id, _, hid, _, _, y, hy, rfl, hyid⟩ := h.deleted x hx
    exact ⟨y, hy, Prod.ext hid hyid.symm⟩
  failed := by
    intro id run hrun hstatus x hx hid
    obtain ⟨id', run', hid', hrun', hsucceeded, _⟩ := h.deleted x hx
    cases hid.symm.trans hid'
    cases hrun.symm.trans hrun'
    rw [hstatus] at hsucceeded
    cases hsucceeded
  succeeded := fun id run hrun hstatus => (h.succeeded id run hrun hstatus).1
  drained := fun id run hrun hstatus => (h.succeeded id run hrun hstatus).2

theorem Sound.schedules {a : Action} (hs : Sound w) (hw : Attended w)
    (h : StorageRetention.step hash w a = some t) : Schedules w a t := by
  cases a with
  | scheduleNext pid id createdAt =>
    intro pass tenantId rest hpass htodo
    simp only [StorageRetention.step, hpass, Option.bind_some, htodo] at h
    split at h
    · next hactive =>
      cases h
      obtain ⟨r, hr, hactive⟩ := List.any_eq_true.mp hactive
      rw [Bool.and_eq_true, decide_eq_true_eq] at hactive
      rcases List.mem_append.mp hr with hr | hr
      · refine .inr ⟨r.1, r.2, Table.mem_rows.mp hr, hactive.1, ?_⟩
        cases hstatus : r.2.status with
        | queued => exact .inl rfl
        | processing => exact .inr (hw r.1 r.2 (Table.mem_rows.mp hr) hstatus)
        | preview | succeeded | failed =>
          rw [hstatus] at hactive
          cases hactive.2
      · exact .inl ⟨_, Table.get_set_self .., r, hr, hactive.1⟩
    · cases h
      exact .inl ⟨_, Table.get_set_self .., _, List.mem_append_right _ (List.mem_singleton_self _),
        rfl⟩
  | scheduleCommit pid =>
    intro pass hpass r hr
    simp only [StorageRetention.step, hpass, Option.bind_some] at h
    split at h
    · next hnew =>
      cases h
      exact ⟨r.2, Table.get_insertAll_of_mem hnew.2.1 hr _, rfl, hs.fresh pid pass hpass r hr⟩
    · cases h
  | _ => trivial

/-- **Retention runs.** In every run of the panel, nothing is deleted for a run that fails, and
exactly what its selectors found for one that succeeds. If no sweep dies while it executes a run,
then every queued run reaches its end in a later sweep, and a tenant is kept from a scheduled run
only by one that is queued or executed. -/
theorem retention_runs {policy : Policy} {as : List Action} {w : World} {g : Ledger}
    (hrun : exec (withGhost (step policyHash) (note policyHash)) (.empty policy, .empty) as
      = some (w, g)) :
    Purged w g ∧
      (Along (step policyHash) (fun s a _ => diesIdle s a = true) (.empty policy) as →
        Recovers policy as w ∧ Along (step policyHash) Schedules (.empty policy) as) := by
  have hplain : exec (step policyHash) (.empty policy) as = some w := exec_of_withGhost hrun
  have hkept : ∀ (s : World) (a : Action) (t : World), Sound s ∧ Attended s →
      diesIdle s a = true → step policyHash s a = some t → Sound t ∧ Attended t := by
    rintro s a t ⟨hs, hw⟩ hidle hstep
    refine ⟨hs.step (step_move hstep), hw.step hs (step_move hstep) ?_⟩
    rintro sid now e rfl
    exact not_executes_of_diesIdle hidle
  have hempty : Sound (.empty policy) ∧ Attended (.empty policy) :=
    ⟨.empty policy, fun id run h => by cases h⟩
  constructor
  · have hledger : Sound w ∧ Accounted w g := by
      refine exec_invariant (G := fun _ _ _ => True)
        (I := fun s : World × Ledger => Sound s.1 ∧ Accounted s.1 s.2) ?_
        ⟨.empty policy, .empty policy⟩ (along_of_forall (fun _ _ => trivial) _) hrun
      rintro s a t ⟨hs, hg⟩ _ hstep
      obtain ⟨hw, hnote⟩ := withGhost_eq_some.mp hstep
      rw [note, hw] at hnote
      exact ⟨hs.step (step_move hw), hnote ▸ hg.step hs (step_move hw)⟩
    exact hledger.2.purged
  · intro hidle
    constructor
    · intro bs cs u id run n hsplit hu hget hqueued hn hahead
      subst hsplit
      rw [exec_append, hu] at hplain
      have hwas : WasQueued u id := ⟨run, hget, by rw [hqueued]; exact le_refl _⟩
      have hattended := exec_invariant hkept hempty hidle (by rw [exec_append, hu]; exact hplain)
      have hlength := length_passed_le w id
      rcases sweeps_pass hn hwas hplain with ⟨run', hrun', hleft⟩ | hcount
      · refine ⟨run', hrun', ?_⟩
        cases hstatus : run'.status with
        | preview | queued =>
          rw [hstatus] at hleft
          cases hleft
        | processing => exact .inr (hattended.2 id run' hrun' hstatus)
        | succeeded | failed => exact .inl rfl
      · omega
    · exact along_rule (I := fun s => Sound s ∧ Attended s)
        (fun s a t hs hq hstep => ⟨hkept s a t hs hq hstep, hs.1.schedules hs.2 hstep⟩)
        hempty hidle

/-! ## One run, executed and abandoned -/

theorem claim_queued {rest : List RunId} {run : Run}
    (hget : w.sweeps.get sid = some ⟨now, id :: rest, none⟩) (hrun : w.runs.get id = some run)
    (hqueued : run.status = .queued) (hhash : run.policyHash = hash w.policy) :
    step hash w (.claim sid) = some ((w.setRun id (run.claimed now)).setSweep sid
      ⟨now, rest, some ⟨id, run.tenantId, .claimed⟩⟩) := by
  simp only [step, hget, World.claim, hrun]
  rw [if_neg (not_not.mpr hqueued), if_neg (not_not.mpr hhash)]

def thirtyDays : Policy := ⟨30, 30, 30, 30, 24⟩

/-- A tenant with one old event gets a scheduled run. -/
def scheduledRuns : List Action :=
  [.change 0 (some (.operationalEvent 5 0)), .schedule 0 [5] 100, .scheduleNext 0 7 100,
    .scheduleCommit 0]

def scheduledWorld (hash : Policy → String) : World :=
  (exec (step hash) (.empty thirtyDays) scheduledRuns).getD (.empty thirtyDays)

/-- A sweep forty days later. -/
def begunWorld (hash : Policy → String) : World :=
  (step hash (scheduledWorld hash) (.start 0 1 (days 40))).getD (.empty thirtyDays)

def claimedWorld (hash : Policy → String) : World :=
  ((begunWorld hash).setRun 7 ((scheduledRun 5 (hash thirtyDays) 100 100).claimed (days 40))).setSweep
    0 ⟨days 40, [], some ⟨7, 5, .claimed⟩⟩

theorem scheduledWorld_run :
    (scheduledWorld hash).runs.get 7 = some (scheduledRun 5 (hash thirtyDays) 100 100) := rfl

theorem eq_some_getD {α : Type*} {o : Option α} (h : o.isSome = true) (d : α) :
    o = some (o.getD d) := by
  cases o with
  | none => cases h
  | some x => rfl

theorem exec_scheduled :
    exec (step policyHash) (.empty thirtyDays) scheduledRuns = some (scheduledWorld policyHash) :=
  eq_some_getD (by decide +kernel) _

theorem exec_claimed (as : List Action) :
    exec (step policyHash) (scheduledWorld policyHash) (.start 0 1 (days 40) :: .claim 0 :: as)
      = exec (step policyHash) (claimedWorld policyHash) as := by
  have hbegun : step policyHash (scheduledWorld policyHash) (.start 0 1 (days 40))
      = some (begunWorld policyHash) := eq_some_getD (by decide +kernel) _
  have hrun : (begunWorld policyHash).runs.get 7
      = some (scheduledRun 5 (policyHash thirtyDays) 100 100) := by
    have hgeneral : ∀ hash, (begunWorld hash).runs.get 7
        = some (scheduledRun 5 (hash thirtyDays) 100 100) := fun _ => rfl
    exact hgeneral policyHash
  have hpolicy : (begunWorld policyHash).policy = thirtyDays := by decide +kernel
  have hsweep : (begunWorld policyHash).sweeps.get 0 = some ⟨days 40, [7], none⟩ := by
    decide +kernel
  rw [exec_cons, hbegun, Option.bind_some, exec_cons,
    claim_queued hsweep hrun rfl (by rw [hpolicy]; rfl), Option.bind_some]
  rfl

/-- The sweep deletes the event and commits. -/
def executed : List Action :=
  [.execute 0 .lock, .execute 0 (.select []), .execute 0 (.select []), .execute 0 (.select [0]),
    .execute 0 .delete, .execute 0 (.select []), .execute 0 (.select []),
    .execute 0 (.finish (days 40)), .complete 0]

def executedWorld : World :=
  (exec (step policyHash) (claimedWorld policyHash) executed).get (by decide +kernel)

theorem retention_runs_executed :
    ∃ w g, exec (withGhost (step policyHash) (note policyHash)) (.empty thirtyDays, .empty)
      (scheduledRuns ++ .start 0 1 (days 40) :: .claim 0 :: executed) = some (w, g)
      ∧ Purged w g
      ∧ Recovers thirtyDays (scheduledRuns ++ .start 0 1 (days 40) :: .claim 0 :: executed) w := by
  have hrun : exec (step policyHash) (.empty thirtyDays)
      (scheduledRuns ++ .start 0 1 (days 40) :: .claim 0 :: executed) = some executedWorld := by
    rw [exec_append, exec_scheduled, Option.bind_some, exec_claimed]
    exact (Option.some_get _).symm
  obtain ⟨g, hg⟩ := exec_withGhost hrun (note policyHash) .empty
  obtain ⟨hpurged, hrecovers⟩ := retention_runs hg
  have hidle : ∀ a ∈ scheduledRuns ++ Action.start 0 1 (days 40) :: .claim 0 :: executed,
      ∀ w, diesIdle w a = true := by
    simp [scheduledRuns, executed, diesIdle]
  exact ⟨executedWorld, g, hg, hpurged,
    (hrecovers (along_of_forall (Q := fun a => ∀ w, diesIdle w a = true) hidle _ |>.mono
      (fun s a t h => h s))).1⟩

/-- The sweep dies, two others complete, and the schedule asks for the tenant again. -/
def abandoned : List Action :=
  [.die 0, .start 0 1 (days 41), .complete 0, .start 0 1 (days 42), .complete 0,
    .schedule 1 [5] (days 43)]

def abandonedWorld : World :=
  (exec (step policyHash) (claimedWorld policyHash) abandoned).get (by decide +kernel)

/-- The run whose sweep died after its first transaction is `processing` for ever: two complete
sweeps have passed it by, and the schedule adds no run for its tenant. -/
theorem retention_runs_abandoned :
    exec (step policyHash) (.empty thirtyDays)
        (scheduledRuns ++ .start 0 1 (days 40) :: .claim 0 :: abandoned) = some abandonedWorld
      ∧ ¬ Recovers thirtyDays (scheduledRuns ++ .start 0 1 (days 40) :: .claim 0 :: abandoned)
        abandonedWorld
      ∧ ∃ w, step policyHash abandonedWorld (.scheduleNext 1 8 (days 43)) = some w
        ∧ ¬ Schedules abandonedWorld (.scheduleNext 1 8 (days 43)) w := by
  have hrun : exec (step policyHash) (.empty thirtyDays)
      (scheduledRuns ++ .start 0 1 (days 40) :: .claim 0 :: abandoned) = some abandonedWorld := by
    rw [exec_append, exec_scheduled, Option.bind_some, exec_claimed]
    exact (Option.some_get _).symm
  have hidle : ¬ Executed abandonedWorld 7 := by
    rintro ⟨sid, now, e, ⟨todo, hget⟩, _⟩
    have hsweeps : abandonedWorld.sweeps.keys = [] := by decide +kernel
    have hmem : sid ∈ abandonedWorld.sweeps.keys :=
      (abandonedWorld.sweeps.mem_keys sid).mpr (by rw [hget]; rfl)
    rw [hsweeps] at hmem
    cases hmem
  have hprocessing : (abandonedWorld.runs.get 7).all (fun run =>
      decide (run.status = .processing)) = true := by decide +kernel
  refine ⟨hrun, fun hrecovers => ?_, ?_⟩
  · have hsweeps : CompleteSweeps 2 (.start 0 1 (days 40) :: .claim 0 :: abandoned) :=
      .next 1 [.start 0 1 (days 40), .claim 0, .die 0] [] _ 0 1 (days 41) (by decide) nofun
        (.next 0 [] [] _ 0 1 (days 42) (by decide) nofun (.zero _))
    obtain ⟨run, hget, hsettled | hexecuted⟩ := hrecovers scheduledRuns _ _ 7 _ 2 rfl exec_scheduled
      scheduledWorld_run rfl hsweeps (by decide +kernel)
    · rw [hget, Option.all_some, decide_eq_true_eq] at hprocessing
      rw [hprocessing] at hsettled
      cases hsettled
    · exact hidle hexecuted
  · refine ⟨(step policyHash abandonedWorld (.scheduleNext 1 8 (days 43))).get (by decide +kernel),
      (Option.some_get _).symm, fun hschedules => ?_⟩
    have hpass : (abandonedWorld.passes.get 1).map (·.todo) = some [5] := by decide +kernel
    obtain ⟨pass, hget, htodo⟩ := Option.map_eq_some_iff.mp hpass
    rcases hschedules pass 5 [] hget htodo with ⟨pass', hget', r, hr, _⟩ | ⟨id, run, hrow, _, hactive⟩
    · have hfresh : ((((step policyHash abandonedWorld (.scheduleNext 1 8 (days 43))).get
          (by decide +kernel)).passes.get 1).map (·.fresh.length)) = some 0 := by decide +kernel
      rw [hget', Option.map_some, Option.some.injEq, List.length_eq_zero_iff] at hfresh
      rw [hfresh] at hr
      cases hr
    · have hkeys : abandonedWorld.runs.keys = [7] := by decide +kernel
      have hid : id ∈ abandonedWorld.runs.keys :=
        (abandonedWorld.runs.mem_keys id).mpr (by rw [hrow]; rfl)
      rw [hkeys, List.mem_singleton] at hid
      subst hid
      rw [hrow, Option.all_some, decide_eq_true_eq] at hprocessing
      rcases hactive with hqueued | hexecuted
      · rw [hprocessing] at hqueued
        cases hqueued
      · exact hidle hexecuted

end MegaPanel.StorageRetention
