import MegaPanel.Scheduler.Dispatch

set_option autoImplicit false

/-! # What only the sweep changes

The project turns, the supply of leases, the count of free slots and the messages belong to the
sweep: the other parties leave them alone, and of the wakeups they only expire some
(`OutboxKept`). `step_sweep` is the inversion lemma: a step counts slots, dispatches, publishes
a wakeup, or leaves all of this as it is.
-/

namespace MegaPanel.Scheduler

open MegaPanel.Lib

/-! ## Operations that leave the outbox alone -/

variable {db db' : Db} {copy : Option Job} {key : JobKey} {job : Job} {now : Time} {id : Nat}
  {source : SourceId}

/-- The turns are as they were, and each wakeup is as it was or expired. -/
structure OutboxKept (db db' : Db) : Prop where
  turns : db'.turns = db.turns
  wakeup : ∀ k, db'.wakeups.get k = db.wakeups.get k ∨
    ∃ wakeup, db'.wakeups.get k = some wakeup ∧ wakeup.state = .expired

theorem OutboxKept.of_eq (hturns : db'.turns = db.turns) (hwakeups : db'.wakeups = db.wakeups) :
    OutboxKept db db' where
  turns := hturns
  wakeup := fun k => .inl (by rw [hwakeups])

theorem OutboxKept.refl (db : Db) : OutboxKept db db := .of_eq rfl rfl

theorem OutboxKept.trans {db₁ db₂ db₃ : Db} (h : OutboxKept db₁ db₂) (h' : OutboxKept db₂ db₃) :
    OutboxKept db₁ db₃ where
  turns := h'.turns.trans h.turns
  wakeup := by
    intro k
    rcases h'.wakeup k with he | he
    · rw [he]
      exact h.wakeup k
    · exact .inr he

theorem outboxKept_foldl {κ : Type*} {f : Db → κ → Db} (hf : ∀ db k, OutboxKept db (f db k))
    (keys : List κ) (db : Db) : OutboxKept db (keys.foldl f db) := by
  induction keys generalizing db with
  | nil => exact .refl db
  | cons k keys ih => exact (hf db k).trans (ih (f db k))

theorem expirePendingWakeups_kept (db : Db) (key : JobKey) (job : Job) :
    OutboxKept db (expirePendingWakeups db key job) := by
  unfold expirePendingWakeups
  split
  · exact .refl db
  · next lease _ =>
    split
    · next wakeup hwakeup =>
      split
      · refine ⟨rfl, fun k => ?_⟩
        by_cases hk : k = (key, lease)
        · exact .inr ⟨{ wakeup with state := .expired }, hk ▸ Table.get_set_self .., rfl⟩
        · exact .inl (Table.get_set_ne _ hk _)
      · exact .refl db
    · exact .refl db

theorem recoverExpiredSchedulerLeases_kept (now : Time) (locked : List JobKey) (db : Db) :
    OutboxKept db (recoverExpiredSchedulerLeases now locked db) := by
  refine outboxKept_foldl (fun db key => ?_) db.jobs.keys db
  unfold recoverJob
  split
  · exact .refl db
  · next job _ =>
    split
    · exact (expirePendingWakeups_kept db key job).trans (.of_eq rfl rfl)
    · exact .refl db

theorem sweepLegacy_kept (work : WorkType) (stale : Source → Bool) (amend : Source → Source)
    (db : Db) : OutboxKept db (sweepLegacy work stale amend db) := by
  refine outboxKept_foldl (fun db key => ?_) db.sources.keys db
  unfold sweepLegacySource
  split
  · exact .refl db
  split
  · exact .of_eq rfl rfl
  · exact .refl db

theorem completeExecution_kept (now : Time) (db : Db) (copy : Option Job) (key : JobKey)
    (lease : LeaseId) (result : Result) :
    OutboxKept db (completeExecution now db copy key lease result).1 := by
  unfold completeExecution
  split
  · exact .refl db
  dsimp only
  split
  · exact .of_eq rfl rfl
  · exact .refl db

theorem claimExecution_kept (now : Time) (db : Db) (key : JobKey) (lease : LeaseId) :
    OutboxKept db (claimExecution now db key lease).1 := by
  unfold claimExecution
  split
  · exact .refl db
  split
  · split
    · exact .of_eq rfl rfl
    · exact completeExecution_kept ..
  · exact .refl db

theorem finishBuild_kept (now : Time) (db : Db) (key : JobKey) (copy : Job) (lease : LeaseId)
    (outcome : Outcome) : OutboxKept db (finishBuild now db key copy lease outcome).1 := by
  unfold finishBuild
  split
  · exact .refl db
  split
  · dsimp only
    split <;> exact .of_eq rfl rfl
  · exact .refl db

theorem bindJob_kept {same : Job → Bool} (h : bindJob db copy key same job = .ok db') :
    OutboxKept db db' := by
  rcases bindJob_ok h with ⟨-, rfl⟩ | ⟨-, rfl⟩
  · exact .refl _
  · exact .of_eq rfl rfl

theorem createSiteBuildJob_kept {build : Source}
    (h : createSiteBuildJob now db copy id source build = .ok db') : OutboxKept db db' := by
  unfold createSiteBuildJob at h
  split_ifs at h
  exact bindJob_kept h

theorem createWork_kept {request : Request} (h : createWork now db key id request = .ok db') :
    OutboxKept db db' := by
  have hstored : OutboxKept db
      { db with sources := db.sources.set key (newSource key.1 request) } := .of_eq rfl rfl
  refine hstored.trans ?_
  unfold createWork at h
  dsimp only at h
  split at h
  · exact createSiteBuildJob_kept h
  · unfold createBukvarixKeywordJob at h
    split at h
    · cases h
    · exact bindJob_kept h
  · unfold createCompetitorCrawlJob at h
    split at h
    · cases h
    · exact bindJob_kept h

theorem retryProjectBuild_kept (h : retryProjectBuild now db copy id source = .ok db') :
    OutboxKept db db' := by
  unfold retryProjectBuild at h
  split at h
  · cases h
  · next build _ =>
    split_ifs at h
    unfold requeueSiteBuildJob at h
    dsimp only at h
    split at h
    · cases h
    · next db₁ hcreate =>
      have hstored : OutboxKept db
          { db with sources := db.sources.set (.siteBuild, source) (build.retry now) } :=
        .of_eq rfl rfl
      have hkept : OutboxKept db db₁ := hstored.trans (createSiteBuildJob_kept hcreate)
      split at h
      · cases h
        exact hkept
      · split at h
        · cases h
          exact hkept
        · split at h
          · cases h
            exact hkept.trans (.of_eq rfl rfl)
          · cases h

theorem pauseJob_kept (h : pauseJob now db key job = .ok db') : OutboxKept db db' := by
  unfold pauseJob at h
  split_ifs at h
  cases h
  exact .of_eq rfl rfl

theorem resumeJob_kept (h : resumeJob now db key job = .ok db') : OutboxKept db db' := by
  unfold resumeJob at h
  split_ifs at h
  cases h
  exact .of_eq rfl rfl

theorem cancelJob_kept {copy : Option Source} {amend : Source → Source}
    (h : cancelJob now db key job copy amend = .ok db') : OutboxKept db db' := by
  unfold cancelJob at h
  split at h
  · cases h
  split at h
  · cases h
  split at h
  · cases h
  dsimp only at h
  split at h
  · cases h
  cases h
  have hexpire : OutboxKept db
      (if decide (job.state = .running) then db else expirePendingWakeups db key job) := by
    split
    · exact .refl db
    · exact expirePendingWakeups_kept db key job
  exact hexpire.trans (.of_eq rfl rfl)

theorem cancelDomainCrawl_kept {copy : Source} (h : cancelDomainCrawl now db key copy = .ok db') :
    OutboxKept db db' := by
  rcases cancelDomainCrawl_ok h with ⟨job, -, hcancel⟩ | ⟨-, row, s', -, -, -, rfl⟩
  · exact cancelJob_kept hcancel
  · exact .of_eq rfl rfl

/-! ## The inversion lemma -/

variable {w : World} {a : Action}

/-- The world after the selection of a dispatch that has counted `slots` free slots. -/
def World.dispatched (w : World) (slots : Nat) (locked : List JobKey) : World :=
  let d := dispatchDueJobs w.now slots locked w.nextLease w.db
  { w with db := d.db, nextLease := d.nextLease, dispatching := none }

/-- What a step can do to what belongs to the sweep. -/
inductive SweepMove (w : World) : Action → World → Prop
  | count (limit : Nat) :
      SweepMove w (.dispatchBegin limit) { w with dispatching := some (freeSlots limit w.db) }
  | dispatch (slots : Nat) (locked : List JobKey) : w.dispatching = some slots →
      SweepMove w (.dispatchCommit locked) (w.dispatched slots locked)
  | publish (key : JobKey) (lease : LeaseId) (delivery : Delivery) :
      SweepMove w (.publish key lease delivery) (stepPublish w key lease delivery)
  | other (a : Action) (w' : World) : (∀ locked, a ≠ .dispatchCommit locked) →
      w'.nextLease = w.nextLease → w'.messages = w.messages →
      (w'.dispatching = w.dispatching ∨ w'.dispatching = none) → OutboxKept w.db w'.db →
      SweepMove w a w'

/-- The actions of the other parties change the database and the sessions. -/
theorem sweepMove_other {sessions : SessionId → Option Session}
    (ha : ∀ locked, a ≠ .dispatchCommit locked) (hdb : OutboxKept w.db db) :
    SweepMove w a { w with db := db, sessions := sessions } :=
  .other a _ ha rfl rfl (.inl rfl) hdb

/-- **What a step can do to the turns, the leases, the slots and the outbox.** -/
theorem step_sweep {w' : World} (h : step w a = some w') : SweepMove w a w' := by
  cases a with
  | tick _ =>
    cases h
    exact .other _ _ (fun _ => nofun) rfl rfl (.inl rfl) (.refl _)
  | dispatchAbort =>
    cases h
    exact .other _ _ (fun _ => nofun) rfl rfl (.inr rfl) (.refl _)
  | die _ =>
    cases h
    exact sweepMove_other (fun _ => nofun) (.refl _)
  | recover locked =>
    cases h
    exact sweepMove_other (fun _ => nofun) (recoverExpiredSchedulerLeases_kept ..)
  | expireBuilds | recoverRuns | recoverCrawls =>
    cases h
    exact sweepMove_other (fun _ => nofun) (sweepLegacy_kept ..)
  | dispatchBegin limit =>
    simp only [step] at h
    split_ifs at h
    cases h
    exact .count limit
  | dispatchCommit locked =>
    obtain ⟨slots, hslots, rfl⟩ := Option.map_eq_some_iff.mp h
    exact .dispatch slots locked hslots
  | publish key lease delivery =>
    cases h
    exact .publish key lease delivery
  | create key id request =>
    simp only [step] at h
    split_ifs at h
    obtain ⟨db, hdb, rfl⟩ := World.commit_eq_some.mp h
    exact sweepMove_other (fun _ => nofun) (createWork_kept hdb)
  | claim sid key lease =>
    have hkept := claimExecution_kept w.now w.db key lease
    simp only [step, stepClaim] at h
    split at h
    · split at h <;>
      · next hc =>
        cases h
        rw [hc] at hkept
        exact sweepMove_other (fun _ => nofun) hkept
    · cases h
  | start sid valid =>
    obtain ⟨k, -, h⟩ := Option.bind_eq_some_iff.mp h
    simp only [stepStart] at h
    split at h
    · cases h
      exact sweepMove_other (fun _ => nofun) (.of_eq rfl rfl)
    · cases h
  | finish sid outcome =>
    obtain ⟨k, -, h⟩ := Option.bind_eq_some_iff.mp h
    have hkept := finishBuild_kept w.now w.db k.key k.copy k.lease outcome
    simp only [stepFinish] at h
    split at h
    · split at h
      · cases h
        unfold stepFinishBuild
        split
        · next hfin =>
          rw [hfin] at hkept
          exact sweepMove_other (fun _ => nofun) hkept
        · next hfin =>
          rw [hfin] at hkept
          exact sweepMove_other (fun _ => nofun) (hkept.trans (completeExecution_kept ..))
      · cases h
        exact sweepMove_other (fun _ => nofun) (.refl _)
    · cases h
  | write sid =>
    obtain ⟨k, -, h⟩ := Option.bind_eq_some_iff.mp h
    simp only [stepWrite] at h
    split at h
    · cases h
      exact sweepMove_other (fun _ => nofun) (.of_eq rfl rfl)
    · cases h
  | complete sid =>
    obtain ⟨k, -, h⟩ := Option.bind_eq_some_iff.mp h
    simp only [stepComplete] at h
    split at h
    · cases h
      exact sweepMove_other (fun _ => nofun) (completeExecution_kept ..)
    · cases h
  | pause key =>
    obtain ⟨job, -, h⟩ := Option.bind_eq_some_iff.mp h
    obtain ⟨db, hdb, rfl⟩ := World.commit_eq_some.mp h
    exact sweepMove_other (fun _ => nofun) (pauseJob_kept hdb)
  | resume key =>
    obtain ⟨job, -, h⟩ := Option.bind_eq_some_iff.mp h
    obtain ⟨db, hdb, rfl⟩ := World.commit_eq_some.mp h
    exact sweepMove_other (fun _ => nofun) (resumeJob_kept hdb)
  | cancel key =>
    obtain ⟨job, -, h⟩ := Option.bind_eq_some_iff.mp h
    obtain ⟨db, hdb, rfl⟩ := World.commit_eq_some.mp h
    exact sweepMove_other (fun _ => nofun) (cancelJob_kept hdb)
  | crawlRead sid source =>
    simp only [step] at h
    split_ifs at h
    obtain ⟨s, -, rfl⟩ := Option.map_eq_some_iff.mp h
    exact sweepMove_other (fun _ => nofun) (.refl _)
  | crawlCancel sid =>
    simp only [step] at h
    split at h
    · obtain ⟨db, hdb, rfl⟩ := World.commit_eq_some.mp h
      exact sweepMove_other (fun _ => nofun) (cancelDomainCrawl_kept hdb)
    · cases h
  | retry source id =>
    obtain ⟨db, hdb, rfl⟩ := World.commit_eq_some.mp h
    exact sweepMove_other (fun _ => nofun) (retryProjectBuild_kept hdb)
  | retryRead sid source =>
    simp only [step] at h
    split_ifs at h
    obtain ⟨job, -, h⟩ := Option.bind_eq_some_iff.mp h
    split at h
    · cases h
      exact sweepMove_other (fun _ => nofun) (.refl _)
    · cases h
  | retryCommit sid id =>
    simp only [step] at h
    split at h
    · obtain ⟨db, hdb, rfl⟩ := World.commit_eq_some.mp h
      exact sweepMove_other (fun _ => nofun) (retryProjectBuild_kept hdb)
    · cases h

end MegaPanel.Scheduler
