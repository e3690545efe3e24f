import MegaPanel.Scheduler.Leases

set_option autoImplicit false

/-! # Jobs and their sources

A job and its source are two state machines, moved by different functions in different
transactions. `JobState.allows` says which statuses of the source go with a state of the
job: in particular a closed job allows no open source. `Phase.allows` says what a worker
whose lease is still on the row may find.

Three steps can break the pair, all of them because a worker trusts the job instance of its
session: starting a queued source, closing a job, or answering `stale_lease` for a running
build because the copy's expiry has passed. `heedsLease` is the condition under which they
do not.
-/

namespace MegaPanel.Scheduler

open MegaPanel.Lib

/-! ## The invariant -/

variable {w : World}

/-- The statuses of the source that go with a state of the job. -/
def JobState.allows : JobState → SourceStatus → Bool
  | .queued, s | .paused, s | .leased, s => s ≠ .running
  | .running, _ => true
  | .cancelRequested, s => s ≠ .queued
  | .succeeded, s | .failed, s | .cancelled, s => !s.isOpen

/-- The statuses a worker that still holds its lease can find. -/
def Phase.allows : Phase → SourceStatus → Bool
  | .claimed, s => s ≠ .running
  | .started, s | .writing _ _, s => s ≠ .queued
  | .returned _, s => !s.isOpen

/-- A worker about to write an outcome writes a closed status. -/
def Phase.closes : Phase → Bool
  | .writing status _ => !status.isOpen
  | _ => true

theorem JobState.allows_closed (state : JobState) {s : SourceStatus} (h : s.isOpen = false) :
    state.allows s = true := by
  cases state <;> cases s <;> first | rfl | cases h

theorem Phase.allows_closed (phase : Phase) {s : SourceStatus} (h : s.isOpen = false) :
    phase.allows s = true := by
  cases phase <;> cases s <;> first | rfl | cases h

theorem JobState.closed_of_allows {state : JobState} {s : SourceStatus}
    (h : state.allows s = true) (hstate : state.isTerminal = true) : s.isOpen = false := by
  cases state <;> first | exact (Bool.not_eq_true' _).mp h | cases hstate

/-- The two rows under a key fit together. -/
structure PairOk (db : Db) (key : JobKey) (job : Job) (s : Source) : Prop where
  bound : (sourceStatus db key job).2 = none
  allowed : job.state.allows s.status = true
  request : job.state = .cancelRequested → key.1 = .competitorCrawl
  expires : job.state.isActive = true → job.leaseExpiresAt.isSome

/-- What is true of jobs, sources and workers in every reachable state. -/
structure Consistent (w : World) : Prop where
  leases : Leases w
  pairs : ∀ key job, w.db.jobs.get key = some job →
    ∃ s, w.db.sources.get key = some s ∧ PairOk w.db key job s
  intact : ∀ key s, w.db.sources.get key = some s → s.Intact key.1
  closes : ∀ sid k, w.sessions sid = some (.worker k) → k.phase.closes = true
  phases : ∀ sid k s, w.sessions sid = some (.worker k) → w.holds k.key k.lease = true →
    w.db.sources.get k.key = some s → k.phase.allows s.status = true

theorem Consistent.init (h : Init w) : Consistent w where
  leases := Leases.init h
  pairs := by
    intro key job hjob
    rw [h.jobs] at hjob
    cases hjob
  intact := h.intact
  closes := by
    intro sid k hk
    rw [h.sessions] at hk
    cases hk
  phases := by
    intro sid k s hk
    rw [h.sessions] at hk
    cases hk

/-! ## Rules for one step -/

variable {db db' : Db} {key : JobKey} {job job' : Job} {s s' : Source} {w' : World} {a : Action}
  {sid : SessionId} {k : Worker}

/-- The pair of a job whose columns changed, its identity and that of its source apart. -/
theorem PairOk.update (h : PairOk db key job s) (hs : db.sources.get key = some s)
    (hs' : db'.sources.get key = some s') (hjob : job'.identity = job.identity)
    (hsource : s'.identity = s.identity) (hallowed : job'.state.allows s'.status = true)
    (hrequest : job'.state = .cancelRequested → key.1 = .competitorCrawl)
    (hexpires : job'.state.isActive = true → job'.leaseExpiresAt.isSome) :
    PairOk db' key job' s' where
  bound := (sourceStatus_error_congr hs' hs hjob hsource).trans h.bound
  allowed := hallowed
  request := hrequest
  expires := hexpires

theorem PairOk.same (h : PairOk db key job s) (hs : db.sources.get key = some s)
    (hpair : db'.pair key = db.pair key) : PairOk db' key job s :=
  h.update hs ((Db.pair_eq.mp hpair).2.trans hs) rfl rfl h.allowed h.request h.expires

theorem Source.Intact.congr {work : WorkType} (h : s.Intact work) (hid : s'.identity = s.identity) :
    s'.Intact work := by
  simp only [Source.identity, Prod.mk.injEq] at hid
  intro hwork text htext
  rw [hid.2.2.2.2.1]
  exact h hwork text (hid.2.2.2.1 ▸ htext)

/-- A job that is not active holds nothing. -/
theorem World.holds_inactive (l : LeaseId) (hjob : w.db.jobs.get key = some job)
    (h : job.state.isActive = false) : w.holds key l = false := by
  simp [World.holds, hjob, Job.holds, h]

/-- **The rule for a step.** Each pair is as before or fits together; each worker is as
before, on the same source, or its phase allows what it finds. -/
theorem Consistent.of_step (hw : Consistent w) (h : step w a = some w')
    (hpairs : ∀ key job, w'.db.jobs.get key = some job → w'.db.pair key = w.db.pair key ∨
      ∃ s, w'.db.sources.get key = some s ∧ PairOk w'.db key job s)
    (hintact : ∀ key s', w'.db.sources.get key = some s' → s'.Intact key.1)
    (hcloses : ∀ sid k, w'.sessions sid = some (.worker k) →
      w.sessions sid = some (.worker k) ∨ k.phase.closes = true)
    (hphases : ∀ sid k, w'.sessions sid = some (.worker k) → w'.holds k.key k.lease = true →
      (w.sessions sid = some (.worker k) ∧
        w'.db.sources.get k.key = w.db.sources.get k.key) ∨
      ∀ s, w'.db.sources.get k.key = some s → k.phase.allows s.status = true) : Consistent w' where
  leases := hw.leases.step h
  pairs := by
    intro key job hjob
    rcases hpairs key job hjob with hp | hok
    · obtain ⟨hj, hs⟩ := Db.pair_eq.mp hp
      obtain ⟨s, hsource, hpair⟩ := hw.pairs key job (hj.symm.trans hjob)
      exact ⟨s, hs.trans hsource, hpair.same hsource hp⟩
    · exact hok
  intact := hintact
  closes := by
    intro sid k hk
    rcases hcloses sid k hk with hold | hc
    · exact hw.closes sid k hold
    · exact hc
  phases := by
    intro sid k s hk hholds hs
    rcases hphases sid k hk hholds with ⟨hold, hsame⟩ | hallow
    · have hbefore := step_holds hw.leases h hold
      rw [hholds] at hbefore
      have hheld : w.holds k.key k.lease = true := by
        cases hx : w.holds k.key k.lease with
        | true => rfl
        | false => simp [hx] at hbefore
      exact hw.phases sid k s hold hheld (hsame ▸ hs)
    · exact hallow s hs

/-- The rule for a step that leaves all pairs alone. -/
theorem Consistent.of_sessions (hw : Consistent w) (h : step w a = some w')
    (hpair : w'.db.pair = w.db.pair) (hsessions : ∀ sid k, w'.sessions sid = some (.worker k) →
      w.sessions sid = some (.worker k) ∨
      (k.phase.closes = true ∧ (w'.holds k.key k.lease = true →
        ∀ s, w'.db.sources.get k.key = some s → k.phase.allows s.status = true))) :
    Consistent w' := by
  have hsource : ∀ key, w'.db.sources.get key = w.db.sources.get key := fun key =>
    congrArg Prod.snd (congrFun hpair key)
  refine hw.of_step h (fun key job _ => .inl (congrFun hpair key)) (fun key s hs => ?_)
    (fun sid k hk => ?_) (fun sid k hk hholds => ?_)
  · exact hw.intact key s (hsource key ▸ hs)
  · exact (hsessions sid k hk).imp_right (fun h => h.1)
  · exact (hsessions sid k hk).imp (fun h => ⟨h, hsource k.key⟩) (fun h => h.2 hholds)

/-- The rule for a step that changes the pair under `key`. -/
theorem Consistent.of_pair (hw : Consistent w) (h : step w a = some w')
    (hpair : ∀ k, w'.db.pair k = if k = key then (some job', some s') else w.db.pair k)
    (hok : PairOk w'.db key job' s') (hintact : s'.Intact key.1)
    (hsessions : ∀ sid k, w'.sessions sid = some (.worker k) →
      (w.sessions sid = some (.worker k) ∧
        (k.key = key → w'.holds k.key k.lease = true → k.phase.allows s'.status = true)) ∨
      (k.key = key ∧ k.phase.closes = true ∧
        (w'.holds k.key k.lease = true → k.phase.allows s'.status = true))) : Consistent w' := by
  have hself := Db.pair_eq.mp ((hpair key).trans (if_pos rfl))
  have hother : ∀ k, k ≠ key → w'.db.pair k = w.db.pair k := fun k hk =>
    (hpair k).trans (if_neg hk)
  refine hw.of_step h (fun k job hjob => ?_) (fun k s hs => ?_) (fun sid k hk => ?_)
    (fun sid k hk hholds => ?_)
  · by_cases hk : k = key
    · subst hk
      rw [hself.1] at hjob
      cases hjob
      exact .inr ⟨s', hself.2, hok⟩
    · exact .inl (hother k hk)
  · by_cases hk : k = key
    · subst hk
      rw [hself.2] at hs
      cases hs
      exact hintact
    · exact hw.intact k s ((Db.pair_eq.mp (hother k hk)).2.symm.trans hs)
  · exact (hsessions sid k hk).imp (fun h => h.1) (fun h => h.2.1)
  · by_cases hkey : k.key = key
    · refine .inr (fun s hs => ?_)
      rw [hkey, hself.2] at hs
      cases hs
      exact (hsessions sid k hk).elim (fun h => h.2 hkey hholds) (fun h => h.2.2 hholds)
    · refine .inl ⟨?_, (Db.pair_eq.mp (hother k.key hkey)).2⟩
      exact (hsessions sid k hk).elim (fun h => h.1) (fun h => absurd h.1 hkey)

/-- A step that changes the pair under `key` and no session, and leaves the source closed or
the job inactive. -/
theorem Consistent.of_quiet (hw : Consistent w) (h : step w a = some w')
    (hpair : ∀ k, w'.db.pair k = if k = key then (some job', some s') else w.db.pair k)
    (hok : PairOk w'.db key job' s') (hintact : s'.Intact key.1)
    (hsessions : ∀ sid k, w'.sessions sid = some (.worker k) → w.sessions sid = some (.worker k))
    (hquiet : s'.status.isOpen = false ∨ job'.state.isActive = false) : Consistent w' := by
  refine hw.of_pair h hpair hok hintact (fun sid k hk => .inl ⟨hsessions sid k hk, ?_⟩)
  intro hkey hholds
  rcases hquiet with hclosed | hidle
  · exact k.phase.allows_closed hclosed
  have hjob := (Db.pair_eq.mp ((hpair key).trans (if_pos rfl))).1
  rw [hkey, World.holds_inactive _ hjob hidle] at hholds
  cases hholds

theorem World.worker_of_setSession_none {s : SessionId}
    (h : (w.setSession sid none).sessions s = some (.worker k)) :
    w.sessions s = some (.worker k) := by
  rw [World.setSession_sessions] at h
  split_ifs at h
  exact h

/-! ## The condition -/

/-- The status of the source under `key` is `status`. -/
def World.sourceIs (w : World) (key : JobKey) (status : SourceStatus) : Bool :=
  (w.db.sources.get key).any (fun s => s.status = status)

/-- No worker acts on a lease that is not on its job's row, where that matters:

* a queued source is started only under the lease;
* a build's last transaction finds its copy's expiry in the future if the build is running,
  and the lease on the row if the build is queued;
* a job whose source is queued or running is closed only under the lease. -/
def heedsLease (w : World) : Action → Bool
  | .start sid _ =>
    (w.worker sid).all (fun k => w.holds k.key k.lease || !w.sourceIs k.key .queued)
  | .finish sid _ =>
    (w.worker sid).all (fun k => k.key.1 ≠ .siteBuild ||
      ((k.copy.leaseExpiresAt.any (w.now < ·) || !w.sourceIs k.key .running)
        && (w.holds k.key k.lease || !w.sourceIs k.key .queued)))
  | .complete sid =>
    (w.worker sid).all (fun k => w.holds k.key k.lease ||
      !(w.sourceIs k.key .queued || w.sourceIs k.key .running))
  | _ => true

theorem World.sourceIs_eq (hs : w.db.sources.get key = some s) (status : SourceStatus) :
    w.sourceIs key status = decide (s.status = status) := by
  simp [World.sourceIs, hs]

theorem SourceStatus.isOpen_iff {s : SourceStatus} :
    s.isOpen = true ↔ s = .queued ∨ s = .running := by
  cases s <;> simp [SourceStatus.isOpen]

/-- The row of a worker that holds its lease is running or asked to stop. -/
theorem Leases.holds_state (hw : Leases w) (hk : w.sessions sid = some (.worker k))
    (hholds : w.holds k.key k.lease = true) :
    ∃ job, w.db.jobs.get k.key = some job ∧ job.leaseId = some k.lease ∧
      (job.state = .running ∨ job.state = .cancelRequested) := by
  obtain ⟨job, hjob⟩ := Option.isSome_iff_exists.mp (hw.worker_row sid k hk)
  simp only [World.holds, hjob, Option.any_some, Job.holds_iff] at hholds
  refine ⟨job, hjob, hholds.1, ?_⟩
  have hne : job.state ≠ .leased := fun hs => hw.leased_free sid k job hk hjob hs hholds.1
  have hactive := hholds.2
  cases hs : job.state <;> simp_all [JobState.isActive]

/-! ## Steps of the sweep and of the routes -/

variable {id : Nat}

theorem Consistent.step_create {request : Request} (hw : Consistent w)
    (h : step w (.create key id request) = some w') : Consistent w' := by
  have h' := h
  simp only [step] at h'
  split at h'
  · cases h'
  · next hfresh =>
    obtain ⟨db, hdb, rfl⟩ := World.commit_eq_some.mp h'
    rcases createWork_ok hdb with ⟨job, hjob, -⟩ | ⟨hnone, job, hs, hl, hbound, hpair⟩
    · obtain ⟨s, hsource, -⟩ := hw.pairs key job hjob
      rw [hsource] at hfresh
      exact absurd rfl hfresh
    refine hw.of_quiet h hpair ⟨hbound, ?_, ?_, ?_⟩ ?_ (fun _ _ hk => hk) (.inr ?_)
    · rw [hs]
      rfl
    · intro hc
      rw [hs] at hc
      cases hc
    · intro hc
      rw [hs] at hc
      cases hc
    · intro hwork text htext
      cases htext
      simp [newSource, hwork]
    · rw [hs]
      rfl

theorem Consistent.step_dispatchCommit {locked : List JobKey} (hw : Consistent w)
    (h : step w (.dispatchCommit locked) = some w') : Consistent w' := by
  obtain ⟨slots, -, hw'⟩ := Option.map_eq_some_iff.mp h
  have hd := dispatchDueJobs_dispatched w.now slots locked w.nextLease w.db
  have hsource : ∀ key, w'.db.sources.get key = w.db.sources.get key := by
    intro key
    rw [← hw']
    rcases hd.pair key with hp | ⟨job, lease, -, -, -, -, hp⟩
    · exact (Db.pair_eq.mp hp).2
    · exact (Db.pair_eq.mp hp).2
  have hsession : w'.sessions = w.sessions := by rw [← hw']
  refine hw.of_step h (fun key job' hjob' => ?_) (fun key s hs => ?_) (fun sid k hk => ?_)
    (fun sid k hk _ => ?_)
  · rcases hd.pair key with hp | ⟨job, lease, hjob, hq, -, -, hp⟩
    · left
      rw [← hw']
      exact hp
    · right
      obtain ⟨s, hs, hok⟩ := hw.pairs key job hjob
      have hnew : some (job.lease w.now lease) = some job' := by
        rw [← hjob', ← hw']
        exact (Db.pair_eq.mp hp).1.symm
      cases hnew
      refine ⟨s, (hsource key).trans hs, hok.update hs ((hsource key).trans hs) rfl rfl ?_ ?_ ?_⟩
      · have hallowed := hok.allowed
        rw [hq] at hallowed
        exact hallowed
      · intro hc
        cases hc
      · intro _
        rfl
  · exact hw.intact key s ((hsource key).symm.trans hs)
  · exact .inl (hsession ▸ hk)
  · exact .inl ⟨hsession ▸ hk, hsource k.key⟩

theorem Consistent.step_recover {locked : List JobKey} (hw : Consistent w)
    (h : step w (.recover locked) = some w') : Consistent w' := by
  have hw' : w' = { w with db := recoverExpiredSchedulerLeases w.now locked w.db } := by
    cases h
    rfl
  have hpair : ∀ key, w'.db.pair key = recoverView w.now locked key (w.db.pair key) := by
    intro key
    rw [hw']
    exact recover_pair w.now locked w.db key
  have hsession : w'.sessions = w.sessions := by rw [hw']
  -- a pair is as before, or its lease was taken
  have hcases : ∀ key, w'.db.pair key = w.db.pair key ∨
      ∃ job, w.db.jobs.get key = some job ∧ takesLease w (.recover locked) key = true ∧
        w'.db.pair key = (some (recoverPair w.now key.1 job (w.db.sources.get key)).1,
          (recoverPair w.now key.1 job (w.db.sources.get key)).2) := by
    intro key
    rw [hpair key]
    cases hjob : w.db.jobs.get key with
    | none => exact .inl (by simp [recoverView, Db.pair, hjob])
    | some job =>
      by_cases hc : (job.leaseExpired w.now && !decide (key ∈ locked)) = true
      · refine .inr ⟨job, rfl, ?_, ?_⟩
        · simp only [takesLease, hjob, Option.any_some, hc]
        · simp only [recoverView, Db.pair, hjob, hc, if_true]
      · exact .inl (by simp only [recoverView, Db.pair, hjob, if_neg hc])
  refine hw.of_step h (fun key job' hjob' => ?_) (fun key s' hs' => ?_) (fun sid k hk => ?_)
    (fun sid k hk hholds => ?_)
  · rcases hcases key with hp | ⟨job, hjob, -, hp⟩
    · exact .inl hp
    · right
      obtain ⟨s, hs, hok⟩ := hw.pairs key job hjob
      rw [hs] at hp
      have hcancel : key.1 = .siteBuild → job.state ≠ .cancelRequested := by
        intro hwork hc
        rw [hok.request hc] at hwork
        cases hwork
      obtain ⟨s', hs', hclosed⟩ := recoverPair_source w.now s hcancel
      obtain ⟨hid, hids⟩ := recoverPair_identity w.now key.1 job (some s)
      rw [hs'] at hids
      obtain ⟨hjob₁, hsource₁⟩ := Db.pair_eq.mp hp
      rw [hjob'] at hjob₁
      cases hjob₁
      obtain ⟨-, hstate⟩ := recoverPair_job w.now key.1 job (some s)
      refine ⟨s', hsource₁.trans hs', hok.update hs (hsource₁.trans hs') hid
        (Option.some.inj hids) ?_ ?_ ?_⟩
      · rcases hclosed with ⟨hq, hsq⟩ | hclosed
        · rw [hq, hsq]
          rfl
        · exact JobState.allows_closed _ hclosed
      · intro hc
        rcases hstate with hq | ht
        · rw [hc] at hq
          cases hq
        · rw [hc] at ht
          cases ht
      · intro hactive
        rcases hstate with hq | ht
        · rw [hq] at hactive
          cases hactive
        · rw [JobState.isTerminal_not_active ht] at hactive
          cases hactive
  · have hid : ∃ s, w.db.sources.get key = some s ∧ s'.identity = s.identity := by
      rcases hcases key with hp | ⟨job, hjob, -, hp⟩
      · exact ⟨s', (Db.pair_eq.mp hp).2.symm.trans hs', rfl⟩
      have hids := (recoverPair_identity w.now key.1 job (w.db.sources.get key)).2
      rw [← (Db.pair_eq.mp hp).2, hs'] at hids
      obtain ⟨s, hs, hid⟩ := Option.map_eq_some_iff.mp hids.symm
      exact ⟨s, hs, hid.symm⟩
    obtain ⟨s, hs, hid⟩ := hid
    exact (hw.intact key s hs).congr hid
  · exact .inl (hsession ▸ hk)
  · rw [hsession] at hk
    rcases hcases k.key with hp | ⟨job, hjob, htaken, -⟩
    · exact .inl ⟨hk, (Db.pair_eq.mp hp).2⟩
    · rw [step_holds hw.leases h hk, htaken] at hholds
      simp at hholds

theorem Consistent.step_swept (hw : Consistent w) (h : step w a = some w')
    (hw' : w' = { w with db := db }) (hdb : LegacySwept w.db db) : Consistent w' := by
  subst hw'
  have hmanaged : ∀ key job, w.db.jobs.get key = some job → db.pair key = w.db.pair key := by
    intro key job hjob
    exact Db.pair_eq.mpr ⟨by rw [hdb.jobs]; rfl, hdb.managed key (by rw [hjob]; rfl)⟩
  refine hw.of_step h (fun key job hjob => .inl ?_) (fun key s' hs' => ?_)
    (fun _ _ hk => .inl hk) (fun sid k hk _ => .inl ⟨hk, ?_⟩)
  · exact hmanaged key job (by rw [← hdb.jobs]; exact hjob)
  · have hid := hdb.identity key
    rw [show db.sources.get key = some s' from hs'] at hid
    obtain ⟨s, hs, hid⟩ := Option.map_eq_some_iff.mp hid.symm
    exact (hw.intact key s hs).congr hid.symm
  · obtain ⟨job, hjob⟩ := Option.isSome_iff_exists.mp (hw.leases.worker_row sid k hk)
    exact (Db.pair_eq.mp (hmanaged k.key job hjob)).2

theorem Consistent.step_idle (hw : Consistent w) (h : step w a = some w')
    (hw' : w' = { w with db := db }) (hjob : w.db.jobs.get key = some job)
    (hpair : ∀ k, db.pair k = if k = key then (some job', w.db.sources.get key) else w.db.pair k)
    (hid : job'.identity = job.identity) (hidle : job'.state = .queued ∨ job'.state = .paused)
    (hold : job.state = .queued ∨ job.state = .paused) : Consistent w' := by
  obtain ⟨s, hs, hok⟩ := hw.pairs key job hjob
  rw [hs] at hpair
  subst hw'
  have hs' := (Db.pair_eq.mp ((hpair key).trans (if_pos rfl))).2
  refine hw.of_quiet h hpair (hok.update hs hs' hid rfl ?_ ?_ ?_) (hw.intact key s hs)
    (fun _ _ hk => hk) (.inr ?_)
  · have hallowed := hok.allowed
    rcases hold with ho | ho <;> rcases hidle with hi | hi <;> rw [ho] at hallowed <;> rw [hi] <;>
      exact hallowed
  · intro hc
    rcases hidle with hi | hi <;> rw [hi] at hc <;> cases hc
  · intro hc
    rcases hidle with hi | hi <;> rw [hi] at hc <;> cases hc
  · rcases hidle with hi | hi <;> rw [hi] <;> rfl

/-- A cancellation closes the source. -/
theorem Consistent.step_cancelled {copy : Option Source} {amend : Source → Source}
    (hw : Consistent w) (h : step w a = some w') (hdb : w'.db = db)
    (hsessions : ∀ sid k, w'.sessions sid = some (.worker k) → w.sessions sid = some (.worker k))
    (hjob : w.db.jobs.get key = some job)
    (hcancel : cancelJob w.now w.db key job copy amend = .ok db)
    (hamend : ∀ s, (amend s).identity = s.identity ∧ (amend s).status = s.status) :
    Consistent w' := by
  obtain ⟨-, hcrawl, row, hrow, hopen, hpair⟩ := cancelJob_ok hcancel
  obtain ⟨s, hs, hok⟩ := hw.pairs key job hjob
  rw [hrow] at hs
  cases hs
  rw [← hdb] at hpair
  have hs' := (Db.pair_eq.mp ((hpair key).trans (if_pos rfl))).2
  set source := copy.getD row with hsource
  set next := amend (source.cancel w.now key.1 (job.state = .running)) with hnext
  have hclosed : (Source.flush source next row).status.isOpen = false := by
    refine Source.flush_closed row hopen ?_
    rw [hnext, (hamend _).2]
    exact source.cancel_closed ..
  have hid : (Source.flush source next row).identity = row.identity := by
    refine Source.flush_identity row ?_
    rw [hnext, (hamend _).1]
    exact source.cancel_identity ..
  refine hw.of_quiet h hpair (hok.update hrow hs' (job.cancel_identity w.now) hid ?_ ?_ ?_)
    ((hw.intact key row hrow).congr hid) hsessions (.inl hclosed)
  · exact JobState.allows_closed _ hclosed
  · intro hc
    refine hcrawl ?_
    by_contra hrunning
    simp [Job.cancel, hrunning] at hc
  · intro hactive
    by_cases hrunning : job.state = .running
    · have hexp := hok.expires (by rw [hrunning]; rfl)
      simpa [Job.cancel, hrunning] using hexp
    · simp [Job.cancel, hrunning, JobState.isActive] at hactive

/-- A retry queues the job and its source together. -/
theorem Consistent.step_retried {source : SourceId} {copy : Option Job} (hw : Consistent w)
    (h : step w a = some w') (hdb : w'.db = db)
    (hsessions : ∀ sid k, w'.sessions sid = some (.worker k) → w.sessions sid = some (.worker k))
    (hcopy : ∀ c, copy = some c → c.state = .failed)
    (hretry : retryProjectBuild w.now w.db copy id source = .ok db) : Consistent w' := by
  obtain ⟨build, job', hbuild, -, hpair, hjob⟩ := retryProjectBuild_ok hretry
  rw [← hdb] at hpair hjob
  have hs' := (Db.pair_eq.mp ((hpair (.siteBuild, source)).trans (if_pos rfl))).2
  have hintact := hw.intact _ build hbuild
  have hqueued : job'.state = .queued := by
    rcases hjob with ⟨-, hs, -, -⟩ | ⟨row, hrow, ⟨hq, rfl⟩ | ⟨hstate, rfl⟩⟩
    · exact hs
    · cases copy with
      | none => exact hq
      | some c =>
        rw [Option.getD_some, hcopy c rfl] at hq
        cases hq
    · refine writeCol_dirty ?_ _
      rcases hstate with h | h | h <;> rw [h] <;> simp [Job.requeue]
  refine hw.of_quiet h hpair ⟨?_, ?_, ?_, ?_⟩ (hintact.congr rfl) hsessions
    (.inr (by rw [hqueued]; rfl))
  · rcases hjob with ⟨-, -, -, hbound⟩ | ⟨row, hrow, hrest⟩
    · exact hbound hintact
    · obtain ⟨s, hs, hok⟩ := hw.pairs _ row hrow
      rw [hbuild] at hs
      cases hs
      have hid : job'.identity = row.identity := by
        rcases hrest with ⟨-, rfl⟩ | ⟨-, rfl⟩
        · rfl
        · exact Job.flush_identity row rfl
      exact (sourceStatus_error_congr hs' hbuild hid rfl).trans hok.bound
  · rw [hqueued]
    rfl
  · intro hc
    rw [hqueued] at hc
    cases hc
  · intro hc
    rw [hqueued] at hc
    cases hc

/-! ## Steps of the workers -/

/-- A worker writes its source and changes its phase; the row of its job stays. -/
theorem Consistent.step_source {phase : Phase} (hw : Consistent w) (h : step w a = some w')
    (hw' : w' = { w with db := { w.db with sources := w.db.sources.set k.key s' } }.setSession sid
      (some (.worker { k with phase := phase }))) (hk : w.sessions sid = some (.worker k))
    (hs : w.db.sources.get k.key = some s) (hid : s'.identity = s.identity)
    (hallowed : ∀ job, w.db.jobs.get k.key = some job → job.state.allows s.status = true →
      job.state.allows s'.status = true) (hcloses : phase.closes = true)
    (hphase : w.holds k.key k.lease = true → phase.allows s'.status = true)
    (hothers : s'.status.isOpen = false ∨ w.holds k.key k.lease = true ∨ s' = s) :
    Consistent w' := by
  subst hw'
  obtain ⟨job, hjob⟩ := Option.isSome_iff_exists.mp (hw.leases.worker_row sid k hk)
  obtain ⟨s₀, hs₀, hok⟩ := hw.pairs k.key job hjob
  rw [hs] at hs₀
  cases hs₀
  have hpair : ∀ j, Db.pair { w.db with sources := w.db.sources.set k.key s' } j
      = if j = k.key then (some job, some s') else w.db.pair j := by
    intro j
    rw [pair_setSource, hjob]
  refine hw.of_pair h hpair
    (hok.update hs (Table.get_set_self ..) rfl hid (hallowed job hjob hok.allowed) hok.request
      hok.expires) ((hw.intact k.key s hs).congr hid) (fun sid' k' hk' => ?_)
  rw [World.setSession_sessions] at hk'
  split at hk'
  · cases hk'
    exact .inr ⟨rfl, hcloses, hphase⟩
  · next hne =>
    refine .inl ⟨hk', fun hkey hholds => ?_⟩
    rcases hothers with hclosed | hmine | rfl
    · exact k'.phase.allows_closed hclosed
    · -- two workers cannot hold the same row
      simp only [World.holds, World.setSession_db, hkey, hjob, Option.any_some,
        Job.holds_iff] at hholds hmine
      have hlease : k'.lease = k.lease := Option.some.inj (hholds.1.symm.trans hmine.1)
      exact absurd (hw.leases.unique sid' sid k' k hk' hk hkey hlease) hne
    · exact hw.phases sid' k' s' hk' hholds (hkey ▸ hs)

theorem Consistent.step_claim {lease : LeaseId} (hw : Consistent w)
    (h : step w (.claim sid key lease) = some w') : Consistent w' := by
  have h' := h
  simp only [step, stepClaim] at h'
  split at h'
  · next hfree =>
    rcases claimExecution_cases w.now w.db key lease with
      hc | ⟨job, hjob, hclaim, ⟨db', s, hc, hs, hq, hpair⟩ | ⟨db', r, hc, hne, hpair⟩⟩
    · rw [hc] at h'
      cases h'
      exact hw
    · rw [hc] at h'
      cases h'
      obtain ⟨s₀, hs₀, hok⟩ := hw.pairs key job hjob
      rw [hs] at hs₀
      cases hs₀
      have hs' := (Db.pair_eq.mp ((hpair key).trans (if_pos rfl))).2
      refine hw.of_pair h hpair (hok.update hs hs' rfl rfl rfl ?_ ?_) (hw.intact key s hs)
        (fun sid' k' hk' => ?_)
      · intro hc
        cases hc
      · intro _
        rfl
      · rw [World.setSession_sessions] at hk'
        split at hk'
        · cases hk'
          refine .inr ⟨rfl, rfl, fun _ => ?_⟩
          rw [hq]
          rfl
        · have hk₀ : w.sessions sid' = some (.worker k') := hk'
          refine .inl ⟨hk₀, fun hkey hholds => ?_⟩
          rw [step_holds hw.leases h hk₀] at hholds
          exact hw.phases sid' k' s hk₀ (Bool.and_eq_true_iff.mp hholds).1 (hkey ▸ hs)
    · rw [hc] at h'
      cases h'
      obtain ⟨s, hs, hok⟩ := hw.pairs key job hjob
      obtain ⟨hstate, -, -⟩ := Job.claimable_iff.mp hclaim
      have hclosed : s.status.isOpen = false := by
        have hq := hne hok.bound
        rw [sourceStatus_status job hs hok.bound] at hq
        have hr := hok.allowed
        rw [hstate] at hr
        simp only [JobState.allows, decide_eq_true_eq] at hr
        cases hx : s.status.isOpen with
        | false => rfl
        | true =>
          rcases SourceStatus.isOpen_iff.mp hx with hx | hx
          · exact absurd (by rw [hx]) hq
          · exact absurd hx hr
      rw [hs] at hpair
      have hs' := (Db.pair_eq.mp ((hpair key).trans (if_pos rfl))).2
      have hterminal := (job.complete_closed w.now r).2
      refine hw.of_quiet h hpair (hok.update hs hs' (job.complete_identity w.now r) rfl
        (JobState.allows_closed _ hclosed) ?_ ?_) (hw.intact key s hs) (fun _ _ hk => hk)
        (.inl hclosed)
      · intro hc
        rw [hc] at hterminal
        cases hterminal
      · intro hc
        rw [JobState.isTerminal_not_active hterminal] at hc
        cases hc
  · cases h'

theorem Consistent.step_start {valid : Bool} (hw : Consistent w)
    (hheed : heedsLease w (.start sid valid) = true) (h : step w (.start sid valid) = some w') :
    Consistent w' := by
  obtain ⟨k, hk, h'⟩ := Option.bind_eq_some_iff.mp h
  simp only [heedsLease, hk, Option.all_some] at hheed
  have hk := World.worker_eq_some.mp hk
  obtain ⟨job, hjob⟩ := Option.isSome_iff_exists.mp (hw.leases.worker_row sid k hk)
  obtain ⟨s, hs, hok⟩ := hw.pairs k.key job hjob
  rw [World.sourceIs_eq hs, Bool.or_eq_true, Bool.not_eq_true', decide_eq_false_iff_not] at hheed
  simp only [stepStart] at h'
  split at h'
  · next hphase =>
    rw [hs] at h'
    obtain ⟨s', hs', hid, hcases⟩ := startSource_some w.now k.key.1 valid s
    rw [hs'] at h'
    have hholds_queued : s.status = .queued → w.holds k.key k.lease = true := fun hq =>
      hheed.resolve_right (fun h => h hq)
    refine hw.step_source h (Option.some.inj h').symm hk hs hid ?_ ?_ ?_ ?_
    · intro j hj hallowed
      rcases hcases with ⟨-, rfl, -⟩ | ⟨-, hclosed⟩ | ⟨hq, hr, -⟩
      · exact hallowed
      · exact JobState.allows_closed _ hclosed
      -- the row that carries the lease is running, or was asked to stop
      obtain ⟨j', hj', -, hstate⟩ := hw.leases.holds_state hk (hholds_queued hq)
      rw [hj] at hj'
      cases hj'
      rw [hr]
      rcases hstate with hst | hst <;> rw [hst] <;> rfl
    · split <;> rfl
    · intro hholds
      rcases hcases with ⟨hnq, rfl, hresult⟩ | ⟨-, hclosed⟩ | ⟨-, hr, hresult⟩
      · have hclaimed := hw.phases sid k s' hk hholds hs
        rw [hphase] at hclaimed
        simp only [Phase.allows, decide_eq_true_eq] at hclaimed
        rw [hresult]
        show (!s'.status.isOpen) = true
        cases hx : s'.status.isOpen with
        | false => rfl
        | true =>
          rcases SourceStatus.isOpen_iff.mp hx with hx | hx
          · exact absurd hx hnq
          · exact absurd hx hclaimed
      · exact Phase.allows_closed _ hclosed
      · rw [hresult, hr]
        rfl
    · rcases hcases with ⟨-, rfl, -⟩ | ⟨-, hclosed⟩ | ⟨hq, -, -⟩
      · exact .inr (.inr rfl)
      · exact .inl hclosed
      · exact .inr (.inl (hholds_queued hq))
  · cases h'

/-- A worker ends over a closed source. -/
theorem Consistent.step_ended (result : Result) (hw : Consistent w) (h : step w a = some w')
    (hw' : w' = { w with
      db := (completeExecution w.now db (some k.copy) k.key k.lease result).1 }.setSession sid none)
    (hk : w.sessions sid = some (.worker k)) (hs : w.db.sources.get k.key = some s)
    (hdb : ∀ j, db.pair j = if j = k.key then (w.db.jobs.get k.key, some s') else w.db.pair j)
    (hid : s'.identity = s.identity) (hclosed : s'.status.isOpen = false) : Consistent w' := by
  subst hw'
  obtain ⟨job, hjob⟩ := Option.isSome_iff_exists.mp (hw.leases.worker_row sid k hk)
  obtain ⟨s₀, hs₀, hok⟩ := hw.pairs k.key job hjob
  rw [hs] at hs₀
  cases hs₀
  obtain ⟨hlease, hstate⟩ := hw.leases.copy sid k hk
  have hself := Db.pair_eq.mp ((hdb k.key).trans (if_pos rfl))
  have hpair : ∀ j, (completeExecution w.now db (some k.copy) k.key k.lease result).1.pair j
      = if j = k.key then
          (some (Job.flush k.copy (k.copy.complete w.now result).1 job), some s')
        else w.db.pair j := by
    intro j
    rw [completeExecution_holding _ _ _ result (hw.leases.copy_holds hk), hself.1, hself.2, hjob]
    split
    · rfl
    · next hj => rw [hdb, if_neg hj]
  obtain ⟨-, hst⟩ := Job.flush_complete w.now result hlease hstate job
  have hterminal := (k.copy.complete_closed w.now result).2
  rw [← hst] at hterminal
  have hs' := (Db.pair_eq.mp ((hpair k.key).trans (if_pos rfl))).2
  refine hw.of_quiet h hpair (hok.update hs hs'
      (Job.flush_identity job (k.copy.complete_identity w.now result)) hid
      (JobState.allows_closed _ hclosed) ?_ ?_) ((hw.intact k.key s hs).congr hid)
    (fun _ _ hk => World.worker_of_setSession_none hk) (.inl hclosed)
  · intro hc
    rw [hc] at hterminal
    cases hterminal
  · intro hc
    rw [JobState.isTerminal_not_active hterminal] at hc
    cases hc

theorem Consistent.step_finish {outcome : Outcome} (hw : Consistent w)
    (hheed : heedsLease w (.finish sid outcome) = true)
    (h : step w (.finish sid outcome) = some w') : Consistent w' := by
  obtain ⟨k, hk, h'⟩ := Option.bind_eq_some_iff.mp h
  simp only [heedsLease, hk, Option.all_some] at hheed
  have hk := World.worker_eq_some.mp hk
  obtain ⟨job, hjob⟩ := Option.isSome_iff_exists.mp (hw.leases.worker_row sid k hk)
  obtain ⟨s, hs, hok⟩ := hw.pairs k.key job hjob
  simp only [stepFinish] at h'
  split at h'
  · next hphase =>
    have hallows : w.holds k.key k.lease = true → s.status ≠ .queued := by
      intro hholds
      have := hw.phases sid k s hk hholds hs
      rw [hphase.1] at this
      simpa [Phase.allows] using this
    split at h'
    · next hwork =>
      have hw' := (Option.some.inj h').symm
      rw [World.sourceIs_eq hs, World.sourceIs_eq hs] at hheed
      simp only [hwork, ne_eq, not_true_eq_false, decide_false, Bool.false_or,
        Bool.and_eq_true, Bool.or_eq_true, Bool.not_eq_true', decide_eq_false_iff_not] at hheed
      obtain ⟨hrunning, hqueued⟩ := hheed
      have hsame : ∀ j, w.db.pair j
          = if j = k.key then (w.db.jobs.get k.key, some s) else w.db.pair j := by
        intro j
        split
        · next hj => rw [hj, ← hs]; rfl
        · rfl
      have hstored : ∀ status code j, Db.pair { w.db with
            sources := w.db.sources.set k.key (s.finishBuild w.now status code) } j
          = if j = k.key then (w.db.jobs.get k.key, some (s.finishBuild w.now status code))
            else w.db.pair j := fun _ _ j => pair_setSource ..
      unfold stepFinishBuild at hw'
      by_cases hcurrent : currentCandidateLease w.now
          (lockedRead (some k.copy) (w.db.jobs.get k.key)) k.lease (some s) = true
      · -- the build is current: it is closed, and the job with it when the exception came late
        have hstep : ∀ (status : SourceStatus) (code : Option String) (result : Result),
            status.isOpen = false →
            w' = { w with db := { w.db with
                sources := w.db.sources.set k.key (s.finishBuild w.now status code) } }.setSession
              sid (some (.worker { k with phase := .returned result })) → Consistent w' := by
          intro status code result hclosed hw'
          exact hw.step_source h hw' hk hs rfl
            (fun _ _ _ => JobState.allows_closed _ hclosed) rfl
            (fun _ => Phase.allows_closed _ hclosed) (.inl hclosed)
        cases outcome <;> simp only [Outcome.work, hwork, reduceCtorEq, and_false] at hphase
        case ready =>
          simp only [finishBuild, hs, hcurrent, if_true] at hw'
          exact hstep .ready none _ rfl hw'
        case raised =>
          simp only [finishBuild, hs, hcurrent, if_true] at hw'
          exact hstep .failed _ _ rfl hw'
        case raisedLate =>
          simp only [finishBuild, hs, hcurrent, if_true] at hw'
          exact hw.step_ended staleResult h hw' hk hs (hstored .ready none) rfl rfl
      · -- `stale_lease`: the source must be closed already
        have hclosed : s.status.isOpen = false := by
          cases hx : s.status.isOpen with
          | false => rfl
          | true =>
            rcases SourceStatus.isOpen_iff.mp hx with hx | hx
            · exact absurd hx (hallows (hqueued.resolve_right (fun h => h hx)))
            obtain ⟨hl, hst⟩ := hw.leases.copy sid k hk
            refine absurd ?_ hcurrent
            simp [currentCandidateLease, hjob, hl, hst, hx,
              hrunning.resolve_right (fun h => h hx)]
        simp only [finishBuild, hs, if_neg hcurrent] at hw'
        exact hw.step_ended staleResult h hw' hk hs hsame rfl hclosed
    · have hw' := (Option.some.inj h').symm
      simp only [stepFinishRun, hs, Option.map_some, Option.some.injEq] at hw'
      subst hw'
      refine hw.of_sessions h rfl (fun sid' k' hk' => ?_)
      rw [World.setSession_sessions] at hk'
      split at hk'
      · cases hk'
        right
        split
        · next hr =>
          refine ⟨?_, fun _ s' hs' => ?_⟩
          · simp [Phase.closes, outcome.written_closed]
          · have heq : some s' = some s := hs'.symm.trans hs
            cases heq
            simp [Phase.allows, hr]
        · next hr =>
          refine ⟨rfl, fun hholds s' hs' => ?_⟩
          have heq : some s' = some s := hs'.symm.trans hs
          cases heq
          show (!s.status.isOpen) = true
          cases hx : s.status.isOpen with
          | false => rfl
          | true =>
            rcases SourceStatus.isOpen_iff.mp hx with hx | hx
            · exact absurd hx (hallows hholds)
            · exact absurd hx hr
      · exact .inl hk'
  · cases h'

theorem Consistent.step_write (hw : Consistent w) (h : step w (.write sid) = some w') :
    Consistent w' := by
  obtain ⟨k, hk, h'⟩ := Option.bind_eq_some_iff.mp h
  have hk := World.worker_eq_some.mp hk
  obtain ⟨job, hjob⟩ := Option.isSome_iff_exists.mp (hw.leases.worker_row sid k hk)
  obtain ⟨s, hs, -⟩ := hw.pairs k.key job hjob
  simp only [stepWrite] at h'
  split at h'
  · next status code hphase =>
    have hclosed : (s.finishRun w.now status code).status.isOpen = false := by
      have hc := hw.closes sid k hk
      rw [hphase] at hc
      exact (Bool.not_eq_true' _).mp hc
    rw [hs] at h'
    exact hw.step_source h (Option.some.inj h').symm hk hs rfl
      (fun _ _ _ => JobState.allows_closed _ hclosed) rfl
      (fun _ => Phase.allows_closed _ hclosed) (.inl hclosed)
  · cases h'

theorem Consistent.step_complete (hw : Consistent w) (hheed : heedsLease w (.complete sid) = true)
    (h : step w (.complete sid) = some w') : Consistent w' := by
  obtain ⟨k, hk, h'⟩ := Option.bind_eq_some_iff.mp h
  simp only [heedsLease, hk, Option.all_some] at hheed
  have hk := World.worker_eq_some.mp hk
  obtain ⟨job, hjob⟩ := Option.isSome_iff_exists.mp (hw.leases.worker_row sid k hk)
  obtain ⟨s, hs, -⟩ := hw.pairs k.key job hjob
  rw [World.sourceIs_eq hs, World.sourceIs_eq hs] at hheed
  simp only [stepComplete] at h'
  split at h'
  · next result hphase =>
    have hclosed : s.status.isOpen = false := by
      rcases Bool.or_eq_true_iff.mp hheed with hholds | hno
      · have hallow := hw.phases sid k s hk hholds hs
        rw [hphase] at hallow
        exact (Bool.not_eq_true' _).mp hallow
      · cases hx : s.status.isOpen with
        | false => rfl
        | true =>
          rcases SourceStatus.isOpen_iff.mp hx with hx | hx <;> simp [hx] at hno
    refine hw.step_ended result h (Option.some.inj h').symm hk hs (fun j => ?_) rfl hclosed
    split
    · next hj => rw [hj, ← hs]; rfl
    · rfl
  · cases h'

/-! ## Every run -/

/-- **One step.** A step that heeds the lease keeps jobs and sources consistent. -/
theorem Consistent.step (hw : Consistent w) (hheed : heedsLease w a = true)
    (h : step w a = some w') : Consistent w' := by
  cases a with
  | tick _ | dispatchAbort =>
    have h' := h
    cases h'
    exact hw.of_sessions h rfl (fun _ _ hk => .inl hk)
  | create key id request => exact hw.step_create h
  | dispatchBegin limit =>
    have h' := h
    simp only [MegaPanel.Scheduler.step] at h'
    split at h'
    · cases h'
    · cases h'
      exact hw.of_sessions h rfl (fun _ _ hk => .inl hk)
  | dispatchCommit locked => exact hw.step_dispatchCommit h
  | publish key lease delivery =>
    have h' := h
    cases h'
    refine hw.of_sessions h (stepPublish_pair w key lease delivery) (fun sid k hk => .inl ?_)
    cases delivery <;> exact hk
  | claim sid key lease => exact hw.step_claim h
  | start sid valid => exact hw.step_start hheed h
  | finish sid outcome => exact hw.step_finish hheed h
  | write sid => exact hw.step_write h
  | complete sid => exact hw.step_complete hheed h
  | die sid =>
    have h' := h
    cases h'
    exact hw.of_sessions h rfl (fun _ _ hk => .inl (World.worker_of_setSession_none hk))
  | recover locked => exact hw.step_recover h
  | expireBuilds =>
    exact hw.step_swept h (Option.some.inj h).symm (expireStaleSiteBuilds_swept w.now w.db)
  | recoverRuns =>
    exact hw.step_swept h (Option.some.inj h).symm
      (recoverStaleBukvarixKeywordRuns_swept w.now w.db)
  | recoverCrawls =>
    exact hw.step_swept h (Option.some.inj h).symm
      (recoverLegacyCompetitorCrawls_swept w.now w.db)
  | pause key =>
    obtain ⟨job, hjob, h'⟩ := Option.bind_eq_some_iff.mp h
    obtain ⟨db, hdb, hw'⟩ := World.commit_eq_some.mp h'
    obtain ⟨hs, hpair⟩ := pauseJob_ok hdb
    exact hw.step_idle h hw' hjob hpair rfl (.inr rfl) (.inl hs)
  | resume key =>
    obtain ⟨job, hjob, h'⟩ := Option.bind_eq_some_iff.mp h
    obtain ⟨db, hdb, hw'⟩ := World.commit_eq_some.mp h'
    obtain ⟨hs, hpair⟩ := resumeJob_ok hdb
    exact hw.step_idle h hw' hjob hpair rfl (.inl rfl) (.inr hs)
  | cancel key =>
    obtain ⟨job, hjob, h'⟩ := Option.bind_eq_some_iff.mp h
    obtain ⟨db, hdb, rfl⟩ := World.commit_eq_some.mp h'
    exact hw.step_cancelled h rfl (fun _ _ hk => hk) hjob hdb (fun _ => ⟨rfl, rfl⟩)
  | crawlRead sid source =>
    have h' := h
    simp only [MegaPanel.Scheduler.step] at h'
    split at h'
    · cases h'
    obtain ⟨s, -, rfl⟩ := Option.map_eq_some_iff.mp h'
    refine hw.of_sessions h rfl (fun sid' k hk => .inl ?_)
    rw [World.setSession_sessions] at hk
    split at hk
    · cases hk
    · exact hk
  | crawlCancel sid =>
    have h' := h
    simp only [MegaPanel.Scheduler.step] at h'
    split at h'
    · next key copy hsession =>
      obtain ⟨db, hdb, hw'⟩ := World.commit_eq_some.mp h'
      have hsessions : ∀ s k, w'.sessions s = some (.worker k) →
          w.sessions s = some (.worker k) := by
        intro s k hk
        rw [hw'] at hk
        exact World.worker_of_setSession_none hk
      rcases cancelDomainCrawl_ok hdb with ⟨job, hjob, hcancel⟩ | ⟨hnone, row, s', hrow, hid, -, hset⟩
      · exact hw.step_cancelled h (by rw [hw']) hsessions hjob hcancel (fun _ => ⟨rfl, rfl⟩)
      -- a crawl without a job: no pair and no worker is concerned
      have hpair : ∀ k, k ≠ key → w'.db.pair k = w.db.pair k := by
        intro k hk
        rw [hw', hset]
        exact (pair_setSource ..).trans (if_neg hk)
      have hself : w'.db.pair key = (none, some s') := by
        rw [hw', hset]
        exact (pair_setSource ..).trans (by rw [if_pos rfl]; exact Prod.ext hnone rfl)
      refine hw.of_step h (fun k job hjob => .inl (hpair k ?_)) (fun k s hs => ?_)
        (fun s k hk => .inl (hsessions s k hk)) (fun s k hk _ => .inl ⟨hsessions s k hk, ?_⟩)
      · rintro rfl
        rw [(Db.pair_eq.mp hself).1] at hjob
        cases hjob
      · by_cases hk : k = key
        · subst hk
          rw [(Db.pair_eq.mp hself).2] at hs
          cases hs
          exact (hw.intact k row hrow).congr hid
        · exact hw.intact k s ((Db.pair_eq.mp (hpair k hk)).2.symm.trans hs)
      · refine (Db.pair_eq.mp (hpair k.key ?_)).2
        intro hkey
        have hrow := hw.leases.worker_row s k (hsessions s k hk)
        have hno : w.db.jobs.get k.key = none := by
          rw [hkey]
          exact hnone
        rw [hno] at hrow
        cases hrow
    · cases h'
  | retry source id =>
    obtain ⟨db, hdb, rfl⟩ := World.commit_eq_some.mp h
    exact hw.step_retried h rfl (fun _ _ hk => hk) (fun _ hc => by cases hc) hdb
  | retryRead sid source =>
    have h' := h
    simp only [MegaPanel.Scheduler.step] at h'
    split at h'
    · cases h'
    obtain ⟨job, -, h'⟩ := Option.bind_eq_some_iff.mp h'
    split at h'
    · cases h'
      refine hw.of_sessions h rfl (fun sid' k hk => .inl ?_)
      rw [World.setSession_sessions] at hk
      split at hk
      · cases hk
      · exact hk
    · cases h'
  | retryCommit sid id =>
    have h' := h
    simp only [MegaPanel.Scheduler.step] at h'
    split at h'
    · next key copy hsession =>
      obtain ⟨db, hdb, hw'⟩ := World.commit_eq_some.mp h'
      refine hw.step_retried h (by rw [hw']) (fun s k hk => ?_) (fun c hc => ?_) hdb
      · rw [hw'] at hk
        exact World.worker_of_setSession_none hk
      · cases hc
        exact (hw.leases.retry_copy sid key copy hsession).2
    · cases h'

/-- What the scheduler owes its sources in a state. -/
structure SourcesClosed (w : World) : Prop where
  /-- The source of a closed job is closed, whether or not a worker is still executing it. -/
  closed : ∀ key job s, w.db.jobs.get key = some job → w.db.sources.get key = some s →
    job.state.isTerminal = true → s.status.isOpen = false
  /-- A running source takes the slot of an active job, whose lease expires. -/
  slot : ∀ key job s, w.db.jobs.get key = some job → w.db.sources.get key = some s →
    s.status = .running → job.state.isActive = true ∧ job.leaseExpiresAt.isSome
  /-- A queued source has a job that will still run it. -/
  pending : ∀ key job s, w.db.jobs.get key = some job → w.db.sources.get key = some s →
    s.status = .queued →
    job.state = .queued ∨ job.state = .paused ∨ job.state = .leased ∨ job.state = .running

theorem Consistent.sourcesClosed (hw : Consistent w) : SourcesClosed w := by
  have hok : ∀ key job s, w.db.jobs.get key = some job → w.db.sources.get key = some s →
      PairOk w.db key job s := by
    intro key job s hjob hs
    obtain ⟨s', hs', hok⟩ := hw.pairs key job hjob
    rw [hs] at hs'
    cases hs'
    exact hok
  refine ⟨fun key job s hjob hs ht => ?_, fun key job s hjob hs hr => ?_,
    fun key job s hjob hs hq => ?_⟩
  · exact JobState.closed_of_allows (hok key job s hjob hs).allowed ht
  · have hpair := hok key job s hjob hs
    have hactive : job.state.isActive = true := by
      have hallowed := hpair.allowed
      rw [hr] at hallowed
      revert hallowed
      cases job.state <;> simp [JobState.allows, JobState.isActive, SourceStatus.isOpen]
    exact ⟨hactive, hpair.expires hactive⟩
  · have hallowed := (hok key job s hjob hs).allowed
    rw [hq] at hallowed
    revert hallowed
    cases job.state <;> simp [JobState.allows, SourceStatus.isOpen]

/-- **Source consistency.** In every run whose steps heed the lease, the source of a closed
job is closed, a running source occupies the slot of an active job, and a queued source has
a job that will run it. -/
theorem sources_closed {w₀ w : World} {as : List Action} (h : Init w₀)
    (hheed : Along MegaPanel.Scheduler.step (fun w a _ => heedsLease w a = true) w₀ as)
    (hrun : exec MegaPanel.Scheduler.step w₀ as = some w) : SourcesClosed w :=
  have hstep : ∀ s a t, Consistent s → heedsLease s a = true →
      MegaPanel.Scheduler.step s a = some t → Consistent t := fun _ _ _ hw hg hs => hw.step hg hs
  (exec_invariant hstep (Consistent.init h) hheed hrun).sourcesClosed

/-! ## Runs -/

theorem sources_closed_normal :
    ∃ w, exec MegaPanel.Scheduler.step World.fresh
        (.create (.siteBuild, 0) 0 buildRequest :: attempt 1 0 .ready ++ [.complete 1]) = some w ∧
      SourcesClosed w := by
  have hrun : (exec MegaPanel.Scheduler.step World.fresh
      (.create (.siteBuild, 0) 0 buildRequest :: attempt 1 0 .ready ++ [.complete 1])).isSome := by
    decide +kernel
  obtain ⟨w, hw⟩ := Option.isSome_iff_exists.mp hrun
  exact ⟨w, hw, sources_closed World.fresh_init (by decide +kernel) hw⟩

/-- The second worker closes a job whose build was queued again; nothing will ever run that
build, and no worker is executing it. -/
theorem sources_closed_twoRetries :
    ¬ ∀ (w₀ w : World) (as : List Action), Init w₀ →
      exec MegaPanel.Scheduler.step w₀ as = some w →
      ∀ key job s, w.db.jobs.get key = some job → job.state.isTerminal = true →
        (∀ sid k, w.sessions sid = some (.worker k) → k.key ≠ key) →
        w.db.sources.get key = some s → s.status.isOpen = false := by
  intro h
  set run := twoRetries ++ [.complete 3] with hrun
  have hstate : (exec MegaPanel.Scheduler.step World.fresh run).any (fun w =>
      (w.db.jobs.get (.siteBuild, 0)).any (fun job => job.state.isTerminal) &&
      (w.db.sources.get (.siteBuild, 0)).any (fun s => s.status.isOpen) &&
      (run.filterMap Action.session).all (fun sid => (w.worker sid).isNone)) = true := by
    decide +kernel
  obtain ⟨w, hw, hcheck⟩ := (Option.any_eq_true _ _).mp hstate
  simp only [Bool.and_eq_true, List.all_eq_true, Option.isNone_iff_eq_none] at hcheck
  obtain ⟨⟨hjob, hsource⟩, hworkers⟩ := hcheck
  obtain ⟨job, hjob, hterminal⟩ := (Option.any_eq_true _ _).mp hjob
  obtain ⟨s, hs, hopen⟩ := (Option.any_eq_true _ _).mp hsource
  have hclosed := h World.fresh w run World.fresh_init hw (.siteBuild, 0) job s hjob hterminal
    (fun sid k hk => ?_) hs
  · rw [hopen] at hclosed
    cases hclosed
  · -- a session of the run has ended, any other never began
    by_cases hsid : sid ∈ run.filterMap Action.session
    · have hnone := hworkers sid hsid
      rw [World.worker_eq_some.mpr hk] at hnone
      cases hnone
    · rw [exec_sessions hw hsid] at hk
      cases hk

end MegaPanel.Scheduler
