import MegaPanel.Scheduler.Effects

set_option autoImplicit false

/-! # What a dispatch takes

`dispatchLoop` walks over the projects in rotation order and leases one due job of each, until
the free slots are used up. `Takes` is the trace of such a walk: which projects were given a
job, in which order. What a dispatch does to jobs, turns, leases and selected keys follows from
its trace, by induction on the trace.
-/

namespace MegaPanel.Scheduler

open MegaPanel.Lib

variable {now : Time} {slots : Nat} {locked : List JobKey}

/-! ## The trace of a dispatch -/

variable {d d' : Dispatch} {taken : List ProjectKey}

/-- The loop gets from the first dispatch to the second by leasing one job of each of the
listed projects, in this order. -/
inductive Takes (now : Time) (slots : Nat) (locked : List JobKey) :
    Dispatch → List ProjectKey → Dispatch → Prop
  | nil (d : Dispatch) : Takes now slots locked d [] d
  | cons {d d' : Dispatch} {project : ProjectKey} {key : JobKey} {job : Job}
      {rest : List ProjectKey} :
      d.selected.length < slots → some project ∉ d.activeKeys →
      dueJobOf now locked d.db project = some (key, job) →
      Takes now slots locked (d.take now project key job) rest d' →
      Takes now slots locked d (project :: rest) d'

/-- **The loop takes a sublist of the projects it is given.** -/
theorem dispatchLoop_takes (projects : List ProjectKey) (d : Dispatch) :
    ∃ taken, taken.Sublist projects ∧
      Takes now slots locked d taken (dispatchLoop now slots locked projects d) := by
  induction projects generalizing d with
  | nil => exact ⟨[], .slnil, .nil d⟩
  | cons project rest ih =>
    unfold dispatchLoop
    split
    · exact ⟨[], List.nil_sublist _, .nil d⟩
    · next hfull =>
      split
      · obtain ⟨taken, hsub, htakes⟩ := ih d
        exact ⟨taken, hsub.cons _, htakes⟩
      · next hactive =>
        split
        · obtain ⟨taken, hsub, htakes⟩ := ih d
          exact ⟨taken, hsub.cons _, htakes⟩
        · next key job hdue =>
          obtain ⟨taken, hsub, htakes⟩ := ih (d.take now project key job)
          exact ⟨project :: taken, hsub.cons_cons _,
            .cons (Nat.lt_of_not_le hfull) hactive hdue htakes⟩

/-- A dispatch that has used up its slots does nothing more. -/
theorem dispatchLoop_full (projects : List ProjectKey) (h : slots ≤ d.selected.length) :
    dispatchLoop now slots locked projects d = d := by
  cases projects with
  | nil => rfl
  | cons project rest =>
    unfold dispatchLoop
    rw [if_pos h]

theorem dispatchLoop_append (before after : List ProjectKey) (d : Dispatch) :
    dispatchLoop now slots locked (before ++ after) d
      = dispatchLoop now slots locked after (dispatchLoop now slots locked before d) := by
  induction before generalizing d with
  | nil => rfl
  | cons project rest ih =>
    rw [List.cons_append]
    by_cases hfull : slots ≤ d.selected.length
    · rw [dispatchLoop_full _ hfull, dispatchLoop_full _ hfull, dispatchLoop_full _ hfull]
    conv_lhs => unfold dispatchLoop
    conv_rhs => rw [dispatchLoop.eq_def now slots locked (project :: rest)]
    simp only [ge_iff_le, hfull, if_false]
    split
    · exact ih d
    split
    · exact ih d
    · exact ih _

/-- **The rule for a trace.** What every lease of a job keeps is kept by the dispatch. -/
theorem Takes.invariant {P : Dispatch → Prop}
    (htake : ∀ d project key job, P d → dueJobOf now locked d.db project = some (key, job) →
      P (d.take now project key job)) (h : Takes now slots locked d taken d') (hd : P d) :
    P d' := by
  induction h with
  | nil d => exact hd
  | cons _ _ hdue _ ih => exact ih (htake _ _ _ _ hd hdue)

/-! ## Jobs and slots -/

theorem take_jobs (d : Dispatch) (project : ProjectKey) (key : JobKey) (job : Job) :
    (d.take now project key job).db.jobs = d.db.jobs.set key (job.lease now d.nextLease) := rfl

theorem take_turns (d : Dispatch) (project : ProjectKey) (key : JobKey) (job : Job) :
    (d.take now project key job).db.turns = d.db.turns.set project
      { dispatchTurn := d.nextTurn + 1, lastDispatchedAt := some now } := rfl

/-- A dispatch selects no more jobs than there are free slots. -/
theorem Takes.length_le (h : Takes now slots locked d taken d') (hd : d.selected.length ≤ slots) :
    d'.selected.length ≤ slots := by
  induction h with
  | nil d => exact hd
  | @cons d _ project key job _ hfree _ _ _ ih =>
    refine ih ?_
    have hlen : (d.take now project key job).selected.length = d.selected.length + 1 := by
      simp [Dispatch.take]
    rw [hlen]
    exact hfree

/-- A dispatch leaves the jobs it does not select alone. -/
theorem Takes.job (h : Takes now slots locked d taken d') :
    (∀ key ∈ d.selected, key ∈ d'.selected) ∧
      ∀ key, key ∈ d'.selected ∨ d'.db.jobs.get key = d.db.jobs.get key := by
  induction h with
  | nil d => exact ⟨fun _ hk => hk, fun _ => .inr rfl⟩
  | @cons d d' project key job _ _ _ _ _ ih =>
    have hkey : key ∈ d'.selected := ih.1 key (by simp [Dispatch.take])
    refine ⟨fun k hk => ih.1 k (by simp [Dispatch.take, hk]), fun k => ?_⟩
    by_cases hk : k = key
    · exact .inl (hk ▸ hkey)
    rcases ih.2 k with h | h
    · exact .inl h
    · rw [take_jobs, Table.get_set_ne _ hk] at h
      exact .inr h

/-! ## Projects -/

variable {project : ProjectKey} {key : JobKey} {job : Job}

/-- The project of a stored job. -/
def Db.projectOf (db : Db) (key : JobKey) : Option ProjectKey :=
  (db.jobs.get key).bind Job.projectKey

theorem dueJobOf_some {db : Db} (h : dueJobOf now locked db project = some (key, job)) :
    db.jobs.get key = some job ∧ job.due now = true ∧ job.projectKey = some project
      ∧ key ∉ locked := by
  have hmem := firstDue_mem h
  rw [List.mem_filter] at hmem
  obtain ⟨hrow, hdue⟩ := hmem
  simp only [Bool.and_eq_true, decide_eq_true_eq, Bool.not_eq_true', decide_eq_false_iff_not]
    at hdue
  exact ⟨Table.mem_rows.mp hrow, hdue.1.1, hdue.1.2, hdue.2⟩

/-- Leasing a job keeps its project. -/
theorem take_projectOf (hjob : d.db.jobs.get key = some job) :
    (d.take now project key job).db.projectOf = d.db.projectOf := by
  funext k
  unfold Db.projectOf
  rw [take_jobs, Table.get_set]
  by_cases hk : k = key
  · rw [if_pos hk, hk, hjob]
    rfl
  · rw [if_neg hk]

/-- The projects of the selected jobs are the projects taken, in the same order. -/
theorem Takes.selected (h : Takes now slots locked d taken d') :
    ∃ keys, d'.selected = d.selected ++ keys ∧ keys.map d.db.projectOf = taken.map some := by
  induction h with
  | nil d => exact ⟨[], (List.append_nil _).symm, rfl⟩
  | @cons d d' project key job rest _ _ hdue _ ih =>
    obtain ⟨keys, hsel, hkeys⟩ := ih
    obtain ⟨hjob, -, hproject, -⟩ := dueJobOf_some hdue
    refine ⟨key :: keys, ?_, ?_⟩
    · rw [hsel]
      simp [Dispatch.take]
    · rw [List.map_cons, List.map_cons]
      congr 1
      · rw [Db.projectOf, hjob, Option.bind_some, hproject]
      · rw [← hkeys, take_projectOf hjob]

/-- The projects taken get turns of their own, above every turn the dispatch has loaded; the
turns of the others stay. -/
theorem Takes.turn (h : Takes now slots locked d taken d') :
    (∀ project ∉ taken, d'.db.turns.get project = d.db.turns.get project) ∧
      ∀ project ∈ taken, ∃ turn, d'.db.turns.get project = some turn
        ∧ d.nextTurn < turn.dispatchTurn := by
  induction h with
  | nil d => exact ⟨fun _ _ => rfl, fun _ hp => absurd hp (List.not_mem_nil)⟩
  | @cons d d' project key job rest _ _ _ _ ih =>
    obtain ⟨hother, htaken⟩ := ih
    refine ⟨fun p hp => ?_, fun p hp => ?_⟩
    · rw [List.mem_cons, not_or] at hp
      rw [hother p hp.2, take_turns, Table.get_set_ne _ hp.1]
    · by_cases hrest : p ∈ rest
      · obtain ⟨turn, hturn, hlt⟩ := htaken p hrest
        exact ⟨turn, hturn, (Nat.lt_succ_self d.nextTurn).trans hlt⟩
      · obtain rfl : p = project := (List.mem_cons.mp hp).resolve_right hrest
        refine ⟨{ dispatchTurn := d.nextTurn + 1, lastDispatchedAt := some now }, ?_,
          Nat.lt_succ_self d.nextTurn⟩
        rw [hother p hrest, take_turns, Table.get_set_self]

/-! ## The dispatch as a whole -/

/-- The locals of a dispatch before its loop. -/
def dispatchStart (now : Time) (nextLease : LeaseId) (db : Db) : Dispatch where
  db := db
  nextLease := nextLease
  nextTurn := ((loadedTurns db (projectKeys now db)).map (·.2.dispatchTurn)).foldl max 0
  activeKeys := (db.jobs.rows.filter (fun r => r.2.state.isActive)).map (·.2.projectKey)
  selected := []

theorem dispatchDueJobs_eq (now : Time) (slots : Nat) (locked : List JobKey)
    (nextLease : LeaseId) (db : Db) :
    dispatchDueJobs now slots locked nextLease db
      = dispatchLoop now slots locked (orderedKeys db (projectKeys now db))
          (dispatchStart now nextLease db) := rfl

theorem dispatchDueJobs_takes (now : Time) (slots : Nat) (locked : List JobKey)
    (nextLease : LeaseId) (db : Db) :
    ∃ taken, taken.Sublist (orderedKeys db (projectKeys now db)) ∧
      Takes now slots locked (dispatchStart now nextLease db) taken
        (dispatchDueJobs now slots locked nextLease db) :=
  dispatchLoop_takes ..

end MegaPanel.Scheduler
