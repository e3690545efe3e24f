import MegaPanel.Scheduler.Leases

set_option autoImplicit false

/-! # Lease fencing

`complete_execution` says that it fences completions by the exact lease. It re-reads the job
under a row lock, but through its session's identity map: a worker's session has held the
job instance since the claim, so what it compares with its lease is the lease it claimed.
The row may say something else by then.

A call is `Fenced` when it writes nothing unless the row itself carries the lease. The
theorem says exactly which runs fence all their calls: those in which no worker completes
after its lease was taken from it. `noteLost` keeps that history: it is raised for a worker
when a recovery sweep finds the lease expired, when a scheduled-work retry commits, or when
another worker completes the same job, and lowered when the session has ended.
-/

namespace MegaPanel.Scheduler

open MegaPanel.Lib

/-- If the row does not carry the lease in an active state, the call changes nothing and
answers `stale_lease`. -/
def Call.Fenced (now : Time) (c : Call) : Prop :=
  (c.db.jobs.get c.key).any (fun job => job.holds c.lease) = false →
    completeExecution now c.db (some c.copy) c.key c.lease c.result = (c.db, .staleLease c.key)

/-- The step fences the completion it makes, if it makes one. -/
def FencedStep (w : World) (a : Action) (_ : World) : Prop :=
  ∀ c, callOf w a = some c → c.Fenced w.now

/-- Which workers have lost their lease since they claimed their job. -/
def noteLost (w : World) (a : Action) (lost : SessionId → Bool) : SessionId → Bool :=
  fun sid =>
    match w.worker sid with
    | some k => lost sid || takesLease w a k.key
    | none => false

/-- The worker that completes, if one does, has not lost its lease. -/
def completesUnlost (s : World × (SessionId → Bool)) (a : Action) : Bool :=
  (callOf s.1 a).all (fun c => c.caller.all (fun sid => !s.2 sid))

/-! ## A call is what the step does -/

/-! ## Fencing is a matter of lost leases -/

/-- The history agrees with the rows: a worker has lost its lease when its row does not carry
it. -/
structure Tracked (s : World × (SessionId → Bool)) : Prop where
  leases : Leases s.1
  lost : ∀ sid k, s.1.sessions sid = some (.worker k) → s.2 sid = !s.1.holds k.key k.lease

theorem Tracked.step {s t : World × (SessionId → Bool)} {a : Action} (hs : Tracked s)
    (h : withGhost step noteLost s a = some t) : Tracked t := by
  obtain ⟨hw, hg⟩ := withGhost_eq_some.mp h
  refine ⟨hs.leases.step hw, fun sid k hk => ?_⟩
  obtain ⟨hother, hmove⟩ := step_session hw
  have hkept : ∀ k₀, s.1.sessions sid = some (.worker k₀) → k₀.key = k.key →
      k₀.lease = k.lease → t.2 sid = !t.1.holds k.key k.lease := by
    intro k₀ hk₀ hkey hlease
    have hworker := World.worker_eq_some.mpr hk₀
    rw [hg, ← hkey, ← hlease, step_holds hs.leases hw hk₀]
    simp only [noteLost, hworker, hs.lost sid k₀ hk₀]
    cases s.1.holds k₀.key k₀.lease <;> simp
  by_cases hsid : a.session = some sid
  · have hown := hmove sid hsid
    rw [hk] at hown
    generalize hold : s.1.sessions sid = old at hown
    cases hown with
    | same => exact hkept k hold rfl rfl
    | moved k₀ phase => exact hkept k₀ hold rfl rfl
    | claimed key lease job now hjob hstate hlease hnew =>
      have hworker : s.1.worker sid = none := by
        simp [World.worker, hold]
      rw [hg]
      simp [noteLost, hworker, World.holds, hnew, Job.holds, Job.start, hlease,
        JobState.isActive]
  · rw [hother sid hsid] at hk
    exact hkept k hk rfl rfl

theorem Tracked.init {w : World} (h : Init w) : Tracked (w, fun _ => false) := by
  refine ⟨Leases.init h, fun sid k hk => ?_⟩
  rw [h.sessions] at hk
  cases hk

/-- Where a call comes from: a claim, on the row it has locked, or a worker. -/
theorem callOf_origin {w : World} {a : Action} {c : Call} (hc : callOf w a = some c) :
    (c.caller = none ∧ c.db.jobs.get c.key = some c.copy ∧ c.copy.holds c.lease = true) ∨
    ∃ sid k, c.caller = some sid ∧ w.sessions sid = some (.worker k) ∧ c.db.jobs = w.db.jobs ∧
      c.copy = k.copy ∧ c.key = k.key ∧ c.lease = k.lease := by
  cases a with
  | claim sid key lease =>
    simp only [callOf] at hc
    split at hc
    · split at hc
      · cases hc
      · next job hjob =>
        split at hc
        · next hclaim =>
          split at hc
          · cases hc
          cases hc
          obtain ⟨hs, hl, -⟩ := Job.claimable_iff.mp hclaim
          refine .inl ⟨rfl, hjob, ?_⟩
          rw [Job.holds_iff, hs]
          exact ⟨hl, rfl⟩
        · cases hc
    · cases hc
  | complete sid =>
    obtain ⟨k, hk, hc⟩ := Option.bind_eq_some_iff.mp hc
    split at hc
    · cases hc
      exact .inr ⟨sid, k, rfl, World.worker_eq_some.mp hk, rfl, rfl, rfl, rfl⟩
    · cases hc
  | finish sid outcome =>
    obtain ⟨k, hk, hc⟩ := Option.bind_eq_some_iff.mp hc
    split at hc
    · split at hc
      · cases hc
      · next db hfin =>
        cases hc
        have hjobs := finishBuild_jobs w.now w.db k.key k.copy k.lease outcome
        rw [hfin] at hjobs
        exact .inr ⟨sid, k, rfl, World.worker_eq_some.mp hk, hjobs, rfl, rfl, rfl⟩
    · cases hc
  | _ => cases hc

/-- A worker's call is fenced exactly when its row still carries the lease: the copy it
compares always does. -/
theorem Call.fenced_call_iff {now : Time} {c : Call} (hcopy : c.copy.holds c.lease = true)
    (hrow : (c.db.jobs.get c.key).isSome) :
    c.Fenced now ↔ (c.db.jobs.get c.key).any (fun job => job.holds c.lease) = true := by
  obtain ⟨row, hrow⟩ := Option.isSome_iff_exists.mp hrow
  have hanswer : (completeExecution now c.db (some c.copy) c.key c.lease c.result).2
      = .result c.result := by
    simp [completeExecution, hrow, hcopy]
  constructor
  · intro h
    by_contra hno
    have heq := h (by simpa using hno)
    rw [heq] at hanswer
    cases hanswer
  · intro h hno
    rw [h] at hno
    cases hno

theorem Tracked.fencedStep_iff {s : World × (SessionId → Bool)} (hs : Tracked s) (a : Action)
    (t : World) : FencedStep s.1 a t ↔ completesUnlost s a = true := by
  unfold FencedStep completesUnlost
  cases hc : callOf s.1 a with
  | none => simp
  | some c =>
    simp only [Option.some.injEq, forall_eq', Option.all_some]
    rcases callOf_origin hc with
      ⟨hcaller, hrow, hholds⟩ | ⟨sid, k, hcaller, hk, hjobs, hcopy, hkey, hlease⟩
    · simp [hcaller, Call.Fenced, hrow, hholds]
    have hrow : (c.db.jobs.get c.key).isSome := by
      rw [hjobs, hkey]
      exact hs.leases.worker_row sid k hk
    have hholds : c.copy.holds c.lease = true := by
      rw [hcopy, hlease]
      exact hs.leases.copy_holds hk
    rw [Call.fenced_call_iff hholds hrow, hjobs, hkey, hlease, hcaller, Option.all_some,
      hs.lost sid k hk, Bool.not_not]
    exact Iff.rfl

/-- **Lease fencing.** A run fences every completion exactly when no worker completes after
its lease was taken from it. -/
theorem completions_fenced_iff {w : World} (h : Init w) (as : List Action) :
    Along step FencedStep w as ↔
      Along (withGhost step noteLost) (fun s a _ => completesUnlost s a = true)
        (w, fun _ => false) as := by
  rw [← along_withGhost noteLost (g := fun _ => false)]
  exact along_iff (I := Tracked) (fun s a t hs ht => hs.step ht)
    (fun s a t hs _ => hs.fencedStep_iff a t.1) (Tracked.init h)

/-! ## Runs -/

theorem completions_fenced_normal :
    Along step FencedStep World.fresh
      (.create (.siteBuild, 0) 0 buildRequest :: attempt 1 0 .ready ++ [.complete 1]) :=
  (completions_fenced_iff World.fresh_init _).mpr (by decide +kernel)

/-- The second worker closes a job that is queued again and carries no lease in an active
state. -/
theorem completions_fenced_twoRetries :
    ¬ ∀ w as, Init w → Along step FencedStep w as := by
  intro h
  have hrun := h World.fresh (twoRetries ++ .complete 3 :: []) World.fresh_init
  have hstate : ((exec step World.fresh twoRetries).any (fun w =>
      (step w (.complete 3)).isSome && (callOf w (.complete 3)).any (fun c =>
        !(c.db.jobs.get c.key).any (fun job => job.holds c.lease) &&
        decide ((completeExecution w.now c.db (some c.copy) c.key c.lease c.result).2
          ≠ .staleLease c.key)))) = true := by
    decide +kernel
  obtain ⟨w, hw, hcheck⟩ := (Option.any_eq_true _ _).mp hstate
  simp only [Bool.and_eq_true] at hcheck
  obtain ⟨hstep, hcall⟩ := hcheck
  obtain ⟨u, hu⟩ := Option.isSome_iff_exists.mp hstep
  obtain ⟨c, hc, hfence⟩ := (Option.any_eq_true _ _).mp hcall
  simp only [Bool.and_eq_true, Bool.not_eq_true', decide_eq_true_eq] at hfence
  have heq := hrun.at hw hu c hc hfence.1
  exact hfence.2 (by rw [heq])

end MegaPanel.Scheduler
