import MegaPanel.Scheduler.Sweep

set_option autoImplicit false

/-! # Bounded bypass

A dispatch walks over the projects with due work in the order of their turns and hands each
project it serves a turn above every turn it has loaded. A waiting project has due work, so its
own turn is among those loaded: whoever is served before it comes after it from then on. The
turn numbers are not globally ordered, since the turns of projects without due work are not
loaded, but relative to one waiting project the order is kept.
-/

namespace MegaPanel.Scheduler

open MegaPanel.Lib

variable {now : Time} {slots : Nat} {locked : List JobKey}

/-! ## The order of a dispatch -/

variable {db : Db} {project : ProjectKey}

theorem le_foldl_max {x : Nat} {l : List Nat} (h : x ∈ l) (b : Nat) : x ≤ l.foldl max b := by
  have hstart : ∀ (l : List Nat) (b : Nat), b ≤ l.foldl max b := by
    intro l
    induction l with
    | nil => intro b; exact le_rfl
    | cons y l ih => intro b; exact (le_max_left b y).trans (ih _)
  induction l generalizing b with
  | nil => cases h
  | cons y l ih =>
    rw [List.foldl_cons]
    rcases List.mem_cons.mp h with rfl | hl
    · exact (le_max_right b x).trans (hstart l _)
    · exact ih hl _

theorem mem_projectKeys :
    project ∈ projectKeys now db ↔
      ∃ key job, db.jobs.get key = some job ∧ job.due now = true
        ∧ job.projectKey = some project := by
  simp only [projectKeys, List.mem_dedup, List.mem_filterMap, List.mem_filter]
  constructor
  · rintro ⟨⟨key, job⟩, ⟨hrow, hdue⟩, hproject⟩
    exact ⟨key, job, Table.mem_rows.mp hrow, hdue, hproject⟩
  · rintro ⟨key, job, hjob, hdue, hproject⟩
    exact ⟨(key, job), ⟨Table.mem_rows.mpr hjob, hdue⟩, hproject⟩

theorem orderedKeys_perm (db : Db) (keys : List ProjectKey) :
    (orderedKeys db keys).Perm keys := List.perm_insertionSort _ keys

/-- The projects before `project` in the order have no later turn. -/
theorem orderedKeys_before {keys before after : List ProjectKey}
    (h : orderedKeys db keys = before ++ project :: after) {other : ProjectKey}
    (hother : other ∈ before) : (turnRank db other).1 ≤ (turnRank db project).1 := by
  have hsorted : (orderedKeys db keys).Pairwise (fun a b =>
      (turnRank db a).1 < (turnRank db b).1 ∨
        ((turnRank db a).1 = (turnRank db b).1 ∧ (turnRank db a).2 ≤ (turnRank db b).2)) := by
    have htotal : Std.Total (fun a b : ProjectKey =>
        (turnRank db a).1 < (turnRank db b).1 ∨
          ((turnRank db a).1 = (turnRank db b).1 ∧ (turnRank db a).2 ≤ (turnRank db b).2)) :=
      ⟨fun a b => by
        rcases lt_trichotomy (turnRank db a).1 (turnRank db b).1 with h | h | h
        · exact .inl (.inl h)
        · rcases le_total (turnRank db a).2 (turnRank db b).2 with h' | h'
          · exact .inl (.inr ⟨h, h'⟩)
          · exact .inr (.inr ⟨h.symm, h'⟩)
        · exact .inr (.inl h)⟩
    have htrans : IsTrans ProjectKey (fun a b : ProjectKey =>
        (turnRank db a).1 < (turnRank db b).1 ∨
          ((turnRank db a).1 = (turnRank db b).1 ∧ (turnRank db a).2 ≤ (turnRank db b).2)) :=
      ⟨fun a b c hab hbc => by
        rcases hab with hab | ⟨hab, hab'⟩
        · rcases hbc with hbc | ⟨hbc, -⟩
          · exact .inl (hab.trans hbc)
          · exact .inl (hbc ▸ hab)
        · rcases hbc with hbc | ⟨hbc, hbc'⟩
          · exact .inl (hab ▸ hbc)
          · exact .inr ⟨hab.trans hbc, hab'.trans hbc'⟩⟩
    exact List.pairwise_insertionSort _ keys
  rw [h, List.pairwise_append] at hsorted
  rcases hsorted.2.2 other hother project (List.mem_cons_self ..) with hlt | ⟨heq, -⟩
  · exact hlt.le
  · exact heq.le

/-- The turn of a project with due work is loaded. -/
theorem turnRank_le_start (next : LeaseId) (h : project ∈ projectKeys now db) :
    (turnRank db project).1 ≤ ((dispatchStart now next db).nextTurn : Int) := by
  unfold turnRank
  cases hturn : db.turns.get project with
  | none => exact (Int.negSucc_lt_zero 0).le.trans (Int.natCast_nonneg _)
  | some turn =>
    have hloaded : (project, turn) ∈ loadedTurns db (projectKeys now db) := by
      rw [loadedTurns, List.mem_filter]
      exact ⟨Table.mem_rows.mpr hturn,
        decide_eq_true (List.mem_map.mpr ⟨project, h, rfl⟩)⟩
    have hle : turn.dispatchTurn ≤ (dispatchStart now next db).nextTurn :=
      le_foldl_max (List.mem_map_of_mem (f := (·.2.dispatchTurn)) hloaded) 0
    exact Int.ofNat_le.mpr hle

/-! ## A waiting project -/

variable {d d' : Dispatch} {taken : List ProjectKey}

/-- The project has a due job that no other transaction has locked, and no active job. -/
structure Waiting (now : Time) (locked : List JobKey) (db : Db) (project : ProjectKey) :
    Prop where
  due : ∃ key job, db.jobs.get key = some job ∧ job.due now = true ∧
    job.projectKey = some project ∧ key ∉ locked
  idle : ∀ key job, db.jobs.get key = some job → job.projectKey = some project →
    job.state.isActive = false

instance (now : Time) (locked : List JobKey) (db : Db) (project : ProjectKey) :
    Decidable (Waiting now locked db project) :=
  decidable_of_iff
    ((∃ r ∈ db.jobs.rows, r.2.due now = true ∧ r.2.projectKey = some project ∧ r.1 ∉ locked) ∧
      ∀ r ∈ db.jobs.rows, r.2.projectKey = some project → r.2.state.isActive = false)
    (by
      constructor
      · rintro ⟨⟨⟨key, job⟩, hrow, hdue⟩, hidle⟩
        exact ⟨⟨key, job, Table.mem_rows.mp hrow, hdue⟩,
          fun k j hj => hidle (k, j) (Table.mem_rows.mpr hj)⟩
      · rintro ⟨⟨key, job, hjob, hdue⟩, hidle⟩
        exact ⟨⟨(key, job), Table.mem_rows.mpr hjob, hdue⟩,
          fun r hr => hidle r.1 r.2 (Table.mem_rows.mp hr)⟩)

theorem firstDue_isSome {rows : List (JobKey × Job)} (h : rows ≠ []) :
    (firstDue now rows).isSome := by
  have hrun : ∀ f : Option (JobKey × Job) → JobKey × Job → Option (JobKey × Job),
      (∀ best r, (f best r).isSome) → ∀ (rows : List (JobKey × Job)) (best : Option (JobKey × Job)),
        best.isSome → (rows.foldl f best).isSome := by
    intro f hf rows
    induction rows with
    | nil => exact fun _ hbest => hbest
    | cons r rows ih => exact fun best _ => ih _ (hf best r)
  cases rows with
  | nil => exact absurd rfl h
  | cons r rows =>
    refine hrun _ (fun best r => ?_) rows (some r) rfl
    cases best with
    | none => rfl
    | some b =>
      dsimp only
      split <;> rfl

theorem dueJobOf_isSome {key : JobKey} {job : Job} (hjob : db.jobs.get key = some job)
    (hdue : job.due now = true) (hproject : job.projectKey = some project)
    (hlocked : key ∉ locked) : (dueJobOf now locked db project).isSome := by
  refine firstDue_isSome (List.ne_nil_of_mem (a := (key, job)) ?_)
  rw [List.mem_filter]
  exact ⟨Table.mem_rows.mpr hjob, by simp [hdue, hproject, hlocked]⟩

/-- A dispatch keeps a project waiting as long as it does not take it. -/
theorem Takes.waiting (h : Takes now slots locked d taken d') (hnot : project ∉ taken)
    (hw : Waiting now locked d.db project) (hactive : some project ∉ d.activeKeys) :
    Waiting now locked d'.db project ∧ some project ∉ d'.activeKeys := by
  induction h with
  | nil d => exact ⟨hw, hactive⟩
  | @cons d d' other key job rest _ _ hdue _ ih =>
    rw [List.mem_cons, not_or] at hnot
    obtain ⟨hjob, -, hother, -⟩ := dueJobOf_some hdue
    have hne : ∀ k j, d.db.jobs.get k = some j → j.projectKey = some project → k ≠ key := by
      rintro k j hj hproject rfl
      rw [hjob] at hj
      rw [← Option.some.inj hj, hother] at hproject
      exact hnot.1 (Option.some.inj hproject).symm
    refine ih hnot.2 ⟨?_, fun k j hj hproject => ?_⟩ ?_
    · obtain ⟨k, j, hj, hjdue, hproject, hlocked⟩ := hw.due
      refine ⟨k, j, ?_, hjdue, hproject, hlocked⟩
      rw [take_jobs, Table.get_set_ne _ (hne k j hj hproject)]
      exact hj
    · rw [take_jobs, Table.get_set_eq_some] at hj
      rcases hj with ⟨-, rfl⟩ | ⟨-, hj⟩
      · exact absurd (Option.some.inj (hother.symm.trans hproject)).symm hnot.1
      · exact hw.idle k j hj hproject
    · show some project ∉ some other :: d.activeKeys
      rw [List.mem_cons, not_or]
      exact ⟨fun he => hnot.1 (Option.some.inj he), hactive⟩

theorem Takes.append {d'' : Dispatch} {rest : List ProjectKey}
    (h : Takes now slots locked d taken d') (h' : Takes now slots locked d' rest d'') :
    Takes now slots locked d (taken ++ rest) d'' := by
  induction h with
  | nil d => exact h'
  | cons hfree hactive hdue _ ih => exact .cons hfree hactive hdue (ih h')

/-- A waiting project is taken when the loop gets to it with a free slot. -/
theorem dispatchLoop_waiting (rest : List ProjectKey) (hfree : d.selected.length < slots)
    (hactive : some project ∉ d.activeKeys) (hw : Waiting now locked d.db project) :
    ∃ key job, dueJobOf now locked d.db project = some (key, job) ∧
      dispatchLoop now slots locked (project :: rest) d
        = dispatchLoop now slots locked rest (d.take now project key job) := by
  obtain ⟨k, j, hj, hdue, hproject, hlocked⟩ := hw.due
  obtain ⟨⟨key, job⟩, hfirst⟩ := Option.isSome_iff_exists.mp
    (dueJobOf_isSome hj hdue hproject hlocked)
  refine ⟨key, job, hfirst, ?_⟩
  conv_lhs => unfold dispatchLoop
  rw [if_neg (Nat.not_le.mpr hfree), if_neg hactive, hfirst]

/-- **A dispatch over a waiting project.** The projects it serves before the waiting one are
distinct and have no later turn. Either these are all, or the waiting project is the next. -/
theorem dispatchDueJobs_waiting (slots : Nat) (next : LeaseId)
    (hw : Waiting now locked db project) :
    ∃ before rest, Takes now slots locked (dispatchStart now next db) (before ++ rest)
        (dispatchDueJobs now slots locked next db) ∧
      before.Nodup ∧ project ∉ before ∧
      (∀ other ∈ before, (turnRank db other).1 ≤ (turnRank db project).1) ∧
      (rest = [] ∨ ∃ rest', rest = project :: rest') := by
  obtain ⟨key, job, hjob, hdue, hproject, hlocked⟩ := hw.due
  have hkeys : project ∈ projectKeys now db := mem_projectKeys.mpr ⟨key, job, hjob, hdue, hproject⟩
  have hordered : project ∈ orderedKeys db (projectKeys now db) :=
    (orderedKeys_perm ..).mem_iff.mpr hkeys
  obtain ⟨front, back, hsplit⟩ := List.append_of_mem hordered
  have hnodup : (front ++ project :: back).Nodup := by
    rw [← hsplit]
    exact (orderedKeys_perm ..).nodup_iff.mpr (List.nodup_dedup _)
  have hfront : project ∉ front := by
    intro hmem
    exact (List.nodup_append.mp hnodup).2.2 project hmem project (List.mem_cons_self ..) rfl
  rw [dispatchDueJobs_eq, hsplit, dispatchLoop_append]
  obtain ⟨before, hsub, htakes⟩ := @dispatchLoop_takes now slots locked front
    (dispatchStart now next db)
  generalize dispatchLoop now slots locked front (dispatchStart now next db) = d at htakes
  have hnot : project ∉ before := fun hmem => hfront (hsub.subset hmem)
  have hidle : some project ∉ (dispatchStart now next db).activeKeys := by
    simp only [dispatchStart, List.mem_map, List.mem_filter, not_exists, not_and]
    rintro ⟨k, j⟩ ⟨hrow, hactive⟩ hp
    rw [hw.idle k j (Table.mem_rows.mp hrow) hp] at hactive
    cases hactive
  obtain ⟨hw', hactive'⟩ := htakes.waiting hnot hw hidle
  have hbefore : before.Nodup := hsub.nodup (List.nodup_append.mp hnodup).1
  have hrank : ∀ other ∈ before, (turnRank db other).1 ≤ (turnRank db project).1 :=
    fun other hmem => orderedKeys_before hsplit (hsub.subset hmem)
  by_cases hfree : d.selected.length < slots
  · obtain ⟨k, j, hfirst, hloop⟩ := dispatchLoop_waiting back hfree hactive' hw'
    obtain ⟨rest, -, hrest⟩ := @dispatchLoop_takes now slots locked back
      (d.take now project k j)
    refine ⟨before, project :: rest, ?_, hbefore, hnot, hrank, .inr ⟨rest, rfl⟩⟩
    rw [hloop]
    exact htakes.append (.cons hfree hactive' hfirst hrest)
  · refine ⟨before, [], ?_, hbefore, hnot, hrank, .inl rfl⟩
    rw [dispatchLoop_full _ (Nat.not_lt.mp hfree), List.append_nil]
    exact htakes

/-! ## Runs -/

variable {w w' : World} {a : Action} {seen : List ProjectKey}

/-- The projects a step dispatches, in the order in which their jobs are selected. -/
def dispatchedProjects (w : World) : Action → List ProjectKey
  | .dispatchCommit locked =>
    match w.dispatching with
    | none => []
    | some slots =>
      (dispatchDueJobs w.now slots locked w.nextLease w.db).selected.filterMap w.db.projectOf
  | _ => []

theorem dispatchedProjects_other (h : ∀ locked, a ≠ .dispatchCommit locked) :
    dispatchedProjects w a = [] := by
  unfold dispatchedProjects
  split
  · next locked => exact absurd rfl (h locked)
  · rfl

/-- The projects a run dispatches, in order. -/
def dispatchLog (w : World) (as : List Action) : List ProjectKey :=
  emitted step dispatchedProjects w as

/-- Whenever the step dispatches, the project is waiting. -/
def WaitingStep (project : ProjectKey) (w : World) (a : Action) (_ : World) : Prop :=
  ∀ locked, a = .dispatchCommit locked → Waiting w.now locked w.db project

instance (project : ProjectKey) (w : World) (a : Action) (w' : World) :
    Decidable (WaitingStep project w a w') :=
  match a with
  | .dispatchCommit locked =>
    decidable_of_iff (Waiting w.now locked w.db project)
      ⟨fun h _ he => by cases he; exact h, fun h => h locked rfl⟩
  | .tick _ | .create _ _ _ | .dispatchBegin _ | .dispatchAbort | .publish _ _ _ | .claim _ _ _
  | .start _ _ | .finish _ _ | .write _ | .complete _ | .die _ | .recover _ | .expireBuilds
  | .recoverRuns | .recoverCrawls | .pause _ | .resume _ | .cancel _ | .crawlRead _ _
  | .crawlCancel _ | .retry _ _ | .retryRead _ _ | .retryCommit _ _ => .isTrue (fun _ => nofun)

/-- The projects dispatched before `project` are distinct, and until it is dispatched itself
they all have later turns. -/
structure Bypassed (project : ProjectKey) (w : World) (seen : List ProjectKey) : Prop where
  distinct : (seen.takeWhile (· ≠ project)).Nodup
  later : project ∉ seen → ∀ other ∈ seen,
    (turnRank w.db project).1 < (turnRank w.db other).1

theorem takeWhile_ne_of_notMem (h : project ∉ seen) (l : List ProjectKey) :
    (seen ++ l).takeWhile (· ≠ project) = seen ++ l.takeWhile (· ≠ project) := by
  refine List.takeWhile_append_of_pos (fun other hother => decide_eq_true ?_)
  rintro rfl
  exact h hother

theorem takeWhile_ne_of_mem (h : project ∈ seen) (l : List ProjectKey) :
    (seen ++ l).takeWhile (· ≠ project) = seen.takeWhile (· ≠ project) := by
  obtain ⟨front, back, rfl, hfront⟩ := List.eq_append_cons_of_mem h
  rw [List.append_assoc, takeWhile_ne_of_notMem hfront, takeWhile_ne_of_notMem hfront,
    List.cons_append]
  simp

theorem Bypassed.of_turns (h : Bypassed project w seen) (hturns : w'.db.turns = w.db.turns) :
    Bypassed project w' seen where
  distinct := h.distinct
  later := by
    have hrank : ∀ key, turnRank w'.db key = turnRank w.db key := by
      intro key
      rw [turnRank, turnRank, hturns]
    intro hnot other hother
    rw [hrank, hrank]
    exact h.later hnot other hother

theorem publishWakeup_turns (now : Time) (db : Db) (key : JobKey) (lease : LeaseId)
    (sent : Bool) : (publishWakeup now db key lease sent).1.turns = db.turns := by
  unfold publishWakeup
  split
  · rfl
  split
  · rfl
  dsimp only
  split
  · split <;> rfl
  · rfl

/-- The projects a dispatch serves, in order, are those of its trace. -/
theorem dispatchedProjects_takes {slots : Nat} {locked : List JobKey}
    (hslots : w.dispatching = some slots)
    (h : Takes w.now slots locked (dispatchStart w.now w.nextLease w.db) taken
      (dispatchDueJobs w.now slots locked w.nextLease w.db)) :
    dispatchedProjects w (.dispatchCommit locked) = taken := by
  obtain ⟨keys, hselected, hkeys⟩ := h.selected
  have hkeys' : keys.map w.db.projectOf = taken.map some := hkeys
  simp only [dispatchedProjects, hslots]
  calc (dispatchDueJobs w.now slots locked w.nextLease w.db).selected.filterMap w.db.projectOf
      = keys.filterMap w.db.projectOf := by rw [hselected]; rfl
    _ = (keys.map w.db.projectOf).filterMap id := by rw [List.filterMap_map]; rfl
    _ = taken := by rw [hkeys', List.filterMap_map, Function.id_comp, List.filterMap_some]

theorem Bypassed.dispatch (h : Bypassed project w seen) {slots : Nat} {locked : List JobKey}
    (hslots : w.dispatching = some slots) (hw : Waiting w.now locked w.db project) :
    Bypassed project (w.dispatched slots locked)
      (seen ++ dispatchedProjects w (.dispatchCommit locked)) := by
  obtain ⟨before, rest, htakes, hnodup, hnot, hrank, hrest⟩ :=
    dispatchDueJobs_waiting slots w.nextLease hw
  rw [dispatchedProjects_takes hslots htakes]
  by_cases hseen : project ∈ seen
  · refine ⟨?_, fun hn => absurd (List.mem_append_left _ hseen) hn⟩
    rw [takeWhile_ne_of_mem hseen]
    exact h.distinct
  have hlater := h.later hseen
  have hfresh : ∀ other ∈ before, other ∉ seen := by
    intro other hbefore hother
    exact absurd (hrank other hbefore) (not_le.mpr (hlater other hother))
  have hdistinct : (seen ++ before).Nodup := by
    have hseen' := h.distinct
    rw [← List.append_nil seen, takeWhile_ne_of_notMem hseen] at hseen'
    refine List.nodup_append.mpr ⟨by simpa using hseen', hnodup, ?_⟩
    rintro a ha b hb rfl
    exact hfresh a hb ha
  refine ⟨?_, fun hn => ?_⟩
  · rw [takeWhile_ne_of_notMem hseen, takeWhile_ne_of_notMem hnot]
    rcases hrest with rfl | ⟨rest', rfl⟩
    · simpa using hdistinct
    · simpa using hdistinct
  · -- the waiting project was not reached: nothing was taken after `before`
    obtain rfl : rest = [] := by
      rcases hrest with hrest | ⟨rest', rfl⟩
      · exact hrest
      · exact absurd (by simp) hn
    rw [List.append_nil] at htakes ⊢
    obtain ⟨hkept, htaken⟩ := htakes.turn
    have hproject : turnRank (w.dispatched slots locked).db project = turnRank w.db project := by
      unfold turnRank
      rw [show (w.dispatched slots locked).db.turns.get project = _ from hkept project hnot]
      rfl
    intro other hother
    rw [hproject]
    by_cases hbefore : other ∈ before
    · obtain ⟨turn, hturn, hlt⟩ := htaken other hbefore
      obtain ⟨key, job, hjob, hdue, hkey, -⟩ := hw.due
      have hloaded := turnRank_le_start w.nextLease
        (mem_projectKeys.mpr ⟨key, job, hjob, hdue, hkey⟩)
      have hother : (turnRank (w.dispatched slots locked).db other).1 = turn.dispatchTurn := by
        unfold turnRank
        rw [show (w.dispatched slots locked).db.turns.get other = _ from hturn]
      rw [hother]
      exact hloaded.trans_lt (Int.ofNat_lt.mpr hlt)
    · have hold : turnRank (w.dispatched slots locked).db other = turnRank w.db other := by
        unfold turnRank
        rw [show (w.dispatched slots locked).db.turns.get other = _ from hkept other hbefore]
        rfl
      rw [hold]
      exact hlater other ((List.mem_append.mp hother).resolve_right hbefore)

theorem Bypassed.step (h : Bypassed project w seen) (hw : WaitingStep project w a w')
    (hstep : step w a = some w') : Bypassed project w' (seen ++ dispatchedProjects w a) := by
  cases step_sweep hstep with
  | count limit =>
    have hne : ∀ locked, Action.dispatchBegin limit ≠ .dispatchCommit locked := fun _ => nofun
    rw [dispatchedProjects_other hne, List.append_nil]
    exact h.of_turns rfl
  | dispatch slots locked hslots => exact h.dispatch hslots (hw locked rfl)
  | publish key lease delivery =>
    have hne : ∀ locked, Action.publish key lease delivery ≠ .dispatchCommit locked :=
      fun _ => nofun
    rw [dispatchedProjects_other hne, List.append_nil]
    refine h.of_turns ?_
    cases delivery with
    | sent | refused => exact publishWakeup_turns ..
    | crashed => rfl
  | other _ _ hne _ _ _ hkept =>
    rw [dispatchedProjects_other hne, List.append_nil]
    exact h.of_turns hkept.turns

/-- **Bounded bypass.** While a project waits, every other project, new ones included, is
dispatched at most once before it: the projects dispatched before it are distinct. -/
theorem bypass_bounded (project : ProjectKey) (w : World) (as : List Action)
    (h : Along step (WaitingStep project) w as) :
    ((dispatchLog w as).takeWhile (· ≠ project)).Nodup := by
  have hstart : Bypassed project w [] := ⟨List.nodup_nil, fun _ _ hother => nomatch hother⟩
  exact emitted_rule (P := fun log => (log.takeWhile (· ≠ project)).Nodup)
    (fun _ _ _ _ hs hwait hstep => hs.step hwait hstep) (fun _ _ hs => hs.distinct) hstart h

/-- Three builds of the new projects 2 and 3 and one of the project 4, which waits while the
others are served. -/
def threeProjects : List Action :=
  [.create (.siteBuild, 0) 0 { buildRequest with projectId := some 2 },
   .create (.siteBuild, 1) 1 { buildRequest with projectId := some 2 },
   .create (.siteBuild, 2) 2 { buildRequest with projectId := some 3 },
   .create (.siteBuild, 3) 3 { buildRequest with projectId := some 4 },
   .dispatchBegin 1, .dispatchCommit [], .cancel (.siteBuild, 0),
   .dispatchBegin 1, .dispatchCommit [], .cancel (.siteBuild, 2),
   .dispatchBegin 1, .dispatchCommit []]

theorem bypass_bounded_threeProjects :
    dispatchLog World.fresh threeProjects = [(1, 2), (1, 3), (1, 4)] ∧
      ((dispatchLog World.fresh threeProjects).takeWhile (· ≠ (1, 4))).Nodup :=
  ⟨by decide +kernel, bypass_bounded (1, 4) World.fresh threeProjects (by decide +kernel)⟩

end MegaPanel.Scheduler
