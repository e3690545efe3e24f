import MegaPanel.Scheduler.Leases
import MegaPanel.Scheduler.Sweep

set_option autoImplicit false

/-! # The capacity of the scheduler

Only a dispatch makes a job active, and a dispatch is two statements: it counts the free slots,
then it leases jobs. `Capacity` says that the active jobs fit, and that while a dispatch is
between its two statements they fit together with the slots it has counted. The count may be
outdated when the jobs are leased, but not upwards: between the two statements no other
operation makes a job active.
-/

namespace MegaPanel.Scheduler

open MegaPanel.Lib

/-! ## Active jobs -/

/-- The jobs in state leased, running or cancel_requested. -/
def Db.activeJobs (db : Db) : List (JobKey × Job) :=
  db.jobs.rows.filter (fun r => r.2.state.isActive)

/-- The keys of the active jobs. -/
def Db.activeKeys (db : Db) : List JobKey := db.activeJobs.map (·.1)

theorem Db.mem_activeKeys {db : Db} {key : JobKey} :
    key ∈ db.activeKeys ↔ ∃ job, db.jobs.get key = some job ∧ job.state.isActive = true := by
  simp only [activeKeys, activeJobs, List.mem_map, List.mem_filter]
  constructor
  · rintro ⟨⟨k, job⟩, ⟨hrow, hactive⟩, rfl⟩
    exact ⟨job, Table.mem_rows.mp hrow, hactive⟩
  · rintro ⟨job, hjob, hactive⟩
    exact ⟨(key, job), ⟨Table.mem_rows.mpr hjob, hactive⟩, rfl⟩

theorem Db.activeKeys_nodup (db : Db) : db.activeKeys.Nodup := by
  have hsub : db.activeKeys.Sublist db.jobs.keys := by
    rw [← db.jobs.rows_keys]
    exact List.filter_sublist.map _
  exact hsub.nodup db.jobs.nodup

/-- Active jobs are counted through their keys. -/
theorem Db.activeJobs_le {db : Db} {keys : List JobKey} (h : ∀ key ∈ db.activeKeys, key ∈ keys) :
    db.activeJobs.length ≤ keys.length := by
  have hperm : db.activeKeys.Subperm keys := db.activeKeys_nodup.subperm h
  calc db.activeJobs.length = db.activeKeys.length := (List.length_map _).symm
    _ ≤ keys.length := hperm.length_le

/-- A job a step leaves active was active before, unless the step leased it. -/
theorem RowMove.active {next next' : LeaseId} {taken : Bool} {old new : Option Job}
    (h : RowMove next next' taken old new) {job : Job} (hnew : new = some job)
    (hactive : job.state.isActive = true) :
    (∃ job₀, old = some job₀ ∧ job₀.state.isActive = true) ∨ next < next' := by
  cases h with
  | missing => cases hnew
  | same j _ => exact .inl ⟨job, hnew, hactive⟩
  | insert j hs _ =>
    cases hnew
    rw [hs] at hactive
    cases hactive
  | lease j now l _ _ hle hlt => exact .inr (hle.trans_lt hlt)
  | start j now _ hs => exact .inl ⟨j, rfl, by rw [hs]; rfl⟩
  | request j j' _ hs _ _ => exact .inl ⟨j, rfl, by rw [hs]; rfl⟩
  | release j j' _ _ hinactive =>
    cases hnew
    rw [hinactive] at hactive
    cases hactive

/-! ## The invariant -/

/-- The active jobs fit, together with the slots a dispatch in progress has counted. -/
structure Capacity (w : World) : Prop where
  active : w.db.activeJobs.length ≤ maxConcurrency
  counted : ∀ slots, w.dispatching = some slots →
    w.db.activeJobs.length + slots ≤ maxConcurrency

theorem Capacity.init {w : World} (h : Init w) : Capacity w where
  active := by
    have hnone : w.db.activeJobs = [] := by
      rw [Db.activeJobs, h.jobs]
      rfl
    rw [hnone]
    exact Nat.zero_le _
  counted := by
    intro slots hslots
    rw [h.dispatching] at hslots
    cases hslots

/-- The slots a dispatch counts are free. -/
theorem freeSlots_fit {db : Db} (limit : Nat) (h : db.activeJobs.length ≤ maxConcurrency) :
    db.activeJobs.length + freeSlots limit db ≤ maxConcurrency := by
  have hcount : db.activeJobs.length ≤ activeSlots db := Nat.le_add_right _ _
  have hfree : freeSlots limit db ≤ maxConcurrency - activeSlots db := Nat.min_le_right _ _
  omega

/-- A dispatch adds at most the slots it was given to the active jobs. -/
theorem dispatchDueJobs_active (now : Time) (slots : Nat) (locked : List JobKey)
    (next : LeaseId) (db : Db) :
    (dispatchDueJobs now slots locked next db).db.activeJobs.length
      ≤ db.activeJobs.length + slots := by
  obtain ⟨taken, -, htakes⟩ := dispatchDueJobs_takes now slots locked next db
  generalize hd : dispatchDueJobs now slots locked next db = d at htakes
  have hlen : d.selected.length ≤ slots := htakes.length_le (Nat.zero_le _)
  have hkeys : ∀ key ∈ d.db.activeKeys, key ∈ db.activeKeys ++ d.selected := by
    intro key hkey
    obtain ⟨job, hjob, hactive⟩ := Db.mem_activeKeys.mp hkey
    rcases htakes.job.2 key with hsel | hrow
    · exact List.mem_append_right _ hsel
    · exact List.mem_append_left _ (Db.mem_activeKeys.mpr ⟨job, hrow.symm.trans hjob, hactive⟩)
  calc d.db.activeJobs.length ≤ (db.activeKeys ++ d.selected).length := Db.activeJobs_le hkeys
    _ = db.activeJobs.length + d.selected.length := by
        rw [List.length_append, Db.activeKeys, List.length_map]
    _ ≤ db.activeJobs.length + slots := Nat.add_le_add_left hlen _

/-! ## Steps -/

/-- A step that hands out no lease makes no job active. -/
theorem step_active {w w' : World} {a : Action} (hw : Leases w) (h : step w a = some w')
    (hnext : w'.nextLease = w.nextLease) :
    w'.db.activeJobs.length ≤ w.db.activeJobs.length := by
  have hkeys : ∀ key ∈ w'.db.activeKeys, key ∈ w.db.activeKeys := by
    intro key hkey
    obtain ⟨job, hjob, hactive⟩ := Db.mem_activeKeys.mp hkey
    rcases ((step_row hw h).2 key).active hjob hactive with hold | hlt
    · exact Db.mem_activeKeys.mpr hold
    · exact absurd hlt (hnext ▸ Nat.lt_irrefl _)
  calc w'.db.activeJobs.length ≤ w.db.activeKeys.length := Db.activeJobs_le hkeys
    _ = w.db.activeJobs.length := List.length_map _

theorem Capacity.step {w w' : World} {a : Action} (hl : Leases w) (hw : Capacity w)
    (h : step w a = some w') : Capacity w' := by
  have hkept : w'.nextLease = w.nextLease →
      (w'.dispatching = w.dispatching ∨ w'.dispatching = none) → Capacity w' := by
    intro hnext hdispatching
    have hle : w'.db.activeJobs.length ≤ w.db.activeJobs.length := step_active hl h hnext
    refine ⟨hle.trans hw.active, fun slots hs => ?_⟩
    rcases hdispatching with hd | hd
    · rw [hd] at hs
      exact (Nat.add_le_add_right hle slots).trans (hw.counted slots hs)
    · rw [hd] at hs
      cases hs
  cases step_sweep h with
  | count limit =>
    refine ⟨hw.active, fun slots hs => ?_⟩
    cases hs
    exact freeSlots_fit limit hw.active
  | dispatch slots locked hslots =>
    -- the selection uses the slots counted earlier
    refine ⟨(dispatchDueJobs_active ..).trans (hw.counted slots hslots), fun _ hs => ?_⟩
    cases hs
  | publish key lease delivery =>
    refine hkept ?_ ?_
    · cases delivery <;> rfl
    · left
      cases delivery <;> rfl
  | other _ _ _ hnext _ hdispatching _ => exact hkept hnext hdispatching

/-! ## The theorem -/

/-- **The scheduler keeps to its capacity.** In every state of every run, at most
`maxConcurrency` jobs are leased, running or being cancelled. -/
theorem active_jobs_bounded {w₀ w : World} {as : List Action} (h : Init w₀)
    (hrun : exec step w₀ as = some w) : w.db.activeJobs.length ≤ maxConcurrency := by
  have hinv : Leases w ∧ Capacity w := by
    refine exec_invariant (G := fun _ _ _ => True) (I := fun w => Leases w ∧ Capacity w) ?_
      ⟨Leases.init h, Capacity.init h⟩ (along_of_forall (fun _ _ => trivial) _) hrun
    intro s a t hs _ hstep
    exact ⟨hs.1.step hstep, hs.2.step hs.1 hstep⟩
  exact hinv.2.active

/-- Two builds of different projects are due; a dispatch counts one free slot before the second
build is created, a second dispatch finds none. -/
theorem active_jobs_bounded_twoBuilds :
    ∃ w, exec step World.fresh
        [.create (.siteBuild, 0) 0 buildRequest, .dispatchBegin 5,
         .create (.siteBuild, 1) 1 { buildRequest with projectId := some 4 },
         .dispatchCommit [], .dispatchBegin 5, .dispatchCommit []] = some w ∧
      0 < w.db.activeJobs.length ∧ w.db.activeJobs.length ≤ maxConcurrency := by
  have hrun : (exec step World.fresh
      [.create (.siteBuild, 0) 0 buildRequest, .dispatchBegin 5,
       .create (.siteBuild, 1) 1 { buildRequest with projectId := some 4 },
       .dispatchCommit [], .dispatchBegin 5, .dispatchCommit []]).any
      (fun w => decide (0 < w.db.activeJobs.length)) = true := by
    decide +kernel
  obtain ⟨w, hw, hactive⟩ := (Option.any_eq_true _ _).mp hrun
  exact ⟨w, hw, of_decide_eq_true hactive, active_jobs_bounded World.fresh_init hw⟩

end MegaPanel.Scheduler
