import MegaPanel.Scheduler.Leases

set_option autoImplicit false

/-! # Cancelled and failed runs

A keyword run or a crawl reads its status a last time without a lock and writes its outcome in
a later statement. What commits in between is overwritten: an operator's cancellation, or the
recovery of an expired lease. `noteInterrupted` remembers, for each worker, whether that
happened since its last read; `Watched` is the invariant that ties the memory to the stored
status; the theorem says that a run of the system keeps cancelled and failed sources as they
are exactly when no interrupted worker writes a success.
-/

namespace MegaPanel.Scheduler

open MegaPanel.Lib

/-! ## Interruptions -/

/-- The two statuses an operator or a recovery leaves behind. -/
def SourceStatus.isAborted : SourceStatus → Bool
  | .failed | .cancelled => true
  | _ => false

/-- The worker is between its first and its last transaction. -/
def Phase.working : Phase → Bool
  | .started | .writing _ _ => true
  | _ => false

/-- The action cancels the job `key` or recovers its expired lease. -/
def interrupts (w : World) (a : Action) (key : JobKey) : Bool :=
  match a with
  | .recover locked =>
    (w.db.jobs.get key).any (fun job => job.leaseExpired w.now && !decide (key ∈ locked))
  | .cancel k => k = key
  | .crawlCancel sid =>
    match w.sessions sid with
    | some (.crawlCancel k _) => k = key
    | _ => false
  | _ => false

/-- The worker sessions interrupted since their last read of the status. -/
def noteInterrupted (w : World) (a : Action) (interrupted : SessionId → Bool) :
    SessionId → Bool := fun sid =>
  match a with
  | .finish _ _ => if a.session = some sid then false else interrupted sid
  | _ => interrupted sid || (w.worker sid).any (fun k => interrupts w a k.key)

variable {key k : JobKey}

theorem finishBuild_sources_ne (now : Time) (db : Db) (copy : Job) (lease : LeaseId)
    (outcome : Outcome) (h : k ≠ key) :
    (finishBuild now db key copy lease outcome).1.sources.get k = db.sources.get k := by
  unfold finishBuild
  split
  · rfl
  split
  · dsimp only
    split <;> exact Table.get_set_ne _ h _
  · rfl

theorem completeExecution_sources (now : Time) (db : Db) (copy : Option Job) (key k : JobKey)
    (lease : LeaseId) (result : Result) :
    (completeExecution now db copy key lease result).1.sources.get k = db.sources.get k := by
  unfold completeExecution
  split
  · rfl
  · dsimp only
    split <;> rfl

/-! ## Inversion: sources -/

variable {w w' : World} {a : Action} {db : Db} {s : Source} {amend : Source → Source}

/-- What a step can do to the source of a keyword run or a crawl. -/
inductive SourceMove (w : World) (a : Action) (key : JobKey) (s s' : Source) : Prop
  | kept : s' = s → interrupts w a key = false → SourceMove w a key s s'
  | started (sid : SessionId) (valid : Bool) : a = .start sid valid → s.status = .queued →
      s'.status ≠ .queued → SourceMove w a key s s'
  | written (sid : SessionId) (k : Worker) (status : SourceStatus) (code : Option String) :
      a = .write sid → w.sessions sid = some (.worker k) → k.key = key →
      k.phase = .writing status code → s'.status = status → SourceMove w a key s s'
  | interrupted : interrupts w a key = true →
      (s'.status.isAborted = true ∨ s'.status = s.status ∧ s.status ≠ .running) →
      SourceMove w a key s s'
  | legacy : w.db.jobs.get key = none → s.status = .running → SourceMove w a key s s'

/-- A step that writes one pair moves only the source under its key. -/
theorem sourceMove_pair {p : Option Job × Option Source} (hs : w.db.sources.get key = some s)
    (hpair : db.pair key = if key = k then p else w.db.pair key)
    (hquiet : key ≠ k → interrupts w a key = false)
    (hmove : key = k → ∃ s', p.2 = some s' ∧ SourceMove w a key s s') :
    ∃ s', db.sources.get key = some s' ∧ SourceMove w a key s s' := by
  by_cases hk : key = k
  · rw [if_pos hk] at hpair
    rw [(Db.pair_eq.mp hpair).2]
    exact hmove hk
  · rw [if_neg hk] at hpair
    rw [(Db.pair_eq.mp hpair).2]
    exact ⟨s, hs, .kept rfl (hquiet hk)⟩

theorem sourceMove_kept (hs : w.db.sources.get key = some s)
    (hdb : db.sources.get key = w.db.sources.get key) (hquiet : interrupts w a key = false) :
    ∃ s', db.sources.get key = some s' ∧ SourceMove w a key s s' :=
  ⟨s, hdb.trans hs, .kept rfl hquiet⟩

/-- A legacy sweep moves running sources without a job. -/
theorem sourceMove_swept {work : WorkType} {stale : Source → Bool}
    (hamend : ∀ s, (amend s).identity = s.identity) (hs : w.db.sources.get key = some s)
    (hquiet : interrupts w a key = false) :
    ∃ s', (sweepLegacy work stale amend w.db).sources.get key = some s' ∧
      SourceMove w a key s s' := by
  have hswept := @sweepLegacy_swept work stale amend hamend w.db
  by_cases hrunning : s.status = .running
  · cases hjob : w.db.jobs.get key with
    | none =>
      have hid := hswept.identity key
      rw [hs, Option.map_some, Option.map_eq_some_iff] at hid
      obtain ⟨s', hs', -⟩ := hid
      exact ⟨s', hs', .legacy hjob hrunning⟩
    | some job => exact sourceMove_kept hs (hswept.managed key (by rw [hjob]; rfl)) hquiet
  · exact ⟨s, sweepLegacy_stopped hs hrunning, .kept rfl hquiet⟩

theorem Source.cancel_aborted (now : Time) (work : WorkType) (running : Bool) (s : Source) :
    (s.cancel now work running).status.isAborted = true := by
  unfold Source.cancel
  split
  · rfl
  · cases work <;> rfl

/-- A cancellation through a copy that shows the source open aborts the row. -/
theorem sourceMove_cancelled {now : Time} {running : Bool} {copy row : Source}
    (hopen : copy.status.isOpen = true) (hamend : ∀ s, (amend s).status = s.status) (s : Source)
    (hint : interrupts w a key = true) :
    SourceMove w a key s
      (Source.flush copy (amend (copy.cancel now key.1 running)) row) := by
  refine .interrupted hint (.inl ?_)
  show (writeCol copy.status (amend (copy.cancel now key.1 running)).status row.status).isAborted
    = true
  rw [hamend, writeCol_dirty, Source.cancel_aborted]
  intro heq
  have hclosed := copy.cancel_closed now key.1 running
  rw [heq, hopen] at hclosed
  cases hclosed

/-- Recovery aborts a running source. -/
theorem recoverPair_status (now : Time) (work : WorkType) (job : Job) (s : Source) :
    ∃ s', (recoverPair now work job (some s)).2 = some s' ∧
      (s'.status.isAborted = true ∨ s'.status = s.status) ∧
      (work ≠ .siteBuild → s.status = .running → s'.status.isAborted = true) := by
  simp only [recoverPair, Option.any_some, Option.map_some]
  split
  · refine ⟨_, rfl, ?_, ?_⟩
    · split
      · exact .inl rfl
      · exact .inr rfl
    · intro hwork hrunning
      rw [if_pos (by simp [hrunning, SourceStatus.isOpen, hwork])]
      rfl
  · split
    · next h =>
      refine ⟨s, rfl, .inr rfl, fun _ hrunning => ?_⟩
      rw [hrunning] at h
      cases h
    · split
      · next h =>
        refine ⟨s, rfl, .inr rfl, fun _ hrunning => ?_⟩
        rw [hrunning] at h
        simp at h
      · refine ⟨_, rfl, ?_, ?_⟩
        · split
          · exact .inl rfl
          · exact .inr rfl
        · intro _ hrunning
          rw [if_pos (by rw [hrunning]; rfl)]
          rfl

theorem sourceMove_recover {locked : List JobKey} (hkey : key.1 ≠ .siteBuild)
    (hs : w.db.sources.get key = some s) :
    ∃ s', (recoverExpiredSchedulerLeases w.now locked w.db).sources.get key = some s' ∧
      SourceMove w (.recover locked) key s s' := by
  have hpair := (Db.pair_eq.mp (recover_pair w.now locked w.db key)).2
  rw [hpair]
  unfold recoverView
  cases hjob : w.db.jobs.get key with
  | none =>
    simp only [Db.pair, hjob, hs]
    exact ⟨s, rfl, .kept rfl (by simp [interrupts, hjob])⟩
  | some job =>
    simp only [Db.pair, hjob, hs]
    split
    · next hc =>
      obtain ⟨s', hs', hstatus, hrunning⟩ := recoverPair_status w.now key.1 job s
      refine ⟨s', hs', .interrupted (by simpa [interrupts, hjob] using hc) ?_⟩
      by_cases hr : s.status = .running
      · exact .inl (hrunning hkey hr)
      · exact hstatus.imp id (fun h => ⟨h, hr⟩)
    · next hc =>
      exact ⟨s, rfl, .kept rfl (by simpa [interrupts, hjob] using hc)⟩

/-- A cancellation that is not refused aborts the source of its key. -/
theorem sourceMove_cancelJob {job : Job} {copy : Option Source}
    (h : cancelJob w.now w.db k job copy amend = .ok db) (hamend : ∀ s, (amend s).status = s.status)
    (hint : ∀ key, interrupts w a key = decide (k = key)) (hs : w.db.sources.get key = some s) :
    ∃ s', db.sources.get key = some s' ∧ SourceMove w a key s s' := by
  obtain ⟨-, -, row, -, hopen, hpair⟩ := cancelJob_ok h
  refine sourceMove_pair hs (hpair key) (fun hne => ?_) (fun he => ?_)
  · rw [hint]
    exact decide_eq_false (Ne.symm hne)
  · subst he
    exact ⟨_, rfl, sourceMove_cancelled hopen hamend s ((hint key).trans (decide_eq_true rfl))⟩

/-- **What a step can do to the source of a keyword run or a crawl.** -/
theorem step_source (h : step w a = some w') (hkey : key.1 ≠ .siteBuild)
    (hs : w.db.sources.get key = some s) :
    ∃ s', w'.db.sources.get key = some s' ∧ SourceMove w a key s s' := by
  have hpairs : ∀ {db : Db}, db.pair = w.db.pair →
      db.sources.get key = w.db.sources.get key := fun hp => (Db.pair_eq.mp (congrFun hp key)).2
  cases a with
  | tick _ | dispatchAbort | die _ =>
    cases h
    exact sourceMove_kept hs rfl rfl
  | expireBuilds =>
    cases h
    refine sourceMove_swept (a := .expireBuilds) ?_ hs rfl
    exact fun _ => rfl
  | recoverRuns =>
    cases h
    refine sourceMove_swept (a := .recoverRuns) ?_ hs rfl
    exact fun _ => rfl
  | recoverCrawls =>
    cases h
    refine sourceMove_swept (a := .recoverCrawls) ?_ hs rfl
    exact fun _ => rfl
  | recover locked =>
    cases h
    exact sourceMove_recover hkey hs
  | create k id request =>
    simp only [step] at h
    split_ifs at h with hnone
    obtain ⟨db, hdb, rfl⟩ := World.commit_eq_some.mp h
    have hne : key ≠ k := by
      rintro rfl
      rw [hs] at hnone
      exact hnone rfl
    rcases createWork_ok hdb with ⟨job, -, hpair⟩ | ⟨-, job, -, -, -, hpair⟩
    · exact sourceMove_pair hs (hpair key) (fun _ => rfl) (fun he => absurd he hne)
    · exact sourceMove_pair hs (hpair key) (fun _ => rfl) (fun he => absurd he hne)
  | dispatchBegin limit =>
    simp only [step] at h
    split_ifs at h
    cases h
    exact sourceMove_kept hs rfl rfl
  | dispatchCommit locked =>
    obtain ⟨slots, -, rfl⟩ := Option.map_eq_some_iff.mp h
    have hd := dispatchDueJobs_dispatched w.now slots locked w.nextLease w.db
    refine sourceMove_kept hs ?_ rfl
    rcases hd.pair key with hp | ⟨job, lease, -, -, -, -, hp⟩
    · exact (Db.pair_eq.mp hp).2
    · exact (Db.pair_eq.mp hp).2
  | publish k lease delivery =>
    cases h
    exact sourceMove_kept hs (hpairs (stepPublish_pair w k lease delivery)) rfl
  | claim sid k lease =>
    simp only [step, stepClaim] at h
    split at h
    · rcases claimExecution_cases w.now w.db k lease with
        hc | ⟨job, -, -, ⟨db', s₀, hc, hs₀, -, hpair⟩ | ⟨db', r, hc, -, hpair⟩⟩
      · rw [hc] at h
        cases h
        exact sourceMove_kept hs rfl rfl
      · rw [hc] at h
        cases h
        refine sourceMove_pair hs (hpair key) (fun _ => rfl) (fun he => ?_)
        subst he
        rw [hs] at hs₀
        exact ⟨s₀, rfl, .kept (Option.some.inj hs₀).symm rfl⟩
      · rw [hc] at h
        cases h
        refine sourceMove_pair hs (hpair key) (fun _ => rfl) (fun he => ?_)
        subst he
        exact ⟨s, hs, .kept rfl rfl⟩
    · cases h
  | start sid valid =>
    obtain ⟨k, hk, h⟩ := Option.bind_eq_some_iff.mp h
    simp only [stepStart] at h
    split at h
    · cases h
      by_cases he : key = k.key
      · subst he
        obtain ⟨s', hs', -, hcases⟩ := startSource_some w.now k.key.1 valid s
        refine ⟨s', ?_, ?_⟩
        · rw [World.setSession_db, hs, hs']
          exact Table.get_set_self ..
        · rcases hcases with ⟨-, rfl, -⟩ | ⟨hq, hclosed⟩ | ⟨hq, hr, -⟩
          · exact .kept rfl rfl
          · refine .started sid valid rfl hq (fun hq' => ?_)
            rw [hq'] at hclosed
            cases hclosed
          · exact .started sid valid rfl hq (by rw [hr]; decide)
      · refine sourceMove_kept hs ?_ rfl
        show (setSource w.db.sources k.key _).get key = _
        unfold setSource
        split
        · rfl
        · exact Table.get_set_ne _ he _
    · cases h
  | finish sid outcome =>
    obtain ⟨k, hk, h⟩ := Option.bind_eq_some_iff.mp h
    simp only [stepFinish] at h
    split at h
    · split at h
      · next hwork =>
        cases h
        have hne : key ≠ k.key := fun he => hkey (he ▸ hwork)
        have hfin := finishBuild_sources_ne w.now w.db k.copy k.lease outcome hne
        unfold stepFinishBuild
        split
        · next heq =>
          rw [heq] at hfin
          exact sourceMove_kept hs hfin rfl
        · next heq =>
          rw [heq] at hfin
          exact sourceMove_kept hs ((completeExecution_sources ..).trans hfin) rfl
      · cases h
        exact sourceMove_kept hs rfl rfl
    · cases h
  | write sid =>
    obtain ⟨k, hk, h⟩ := Option.bind_eq_some_iff.mp h
    simp only [stepWrite] at h
    split at h
    · next status code hphase =>
      cases h
      by_cases he : key = k.key
      · subst he
        refine ⟨s.finishRun w.now status code, ?_, ?_⟩
        · rw [World.setSession_db, hs]
          exact Table.get_set_self ..
        · exact .written sid k status code rfl (World.worker_eq_some.mp hk) rfl hphase rfl
      · refine sourceMove_kept hs ?_ rfl
        show (setSource w.db.sources k.key _).get key = _
        unfold setSource
        split
        · rfl
        · exact Table.get_set_ne _ he _
    · cases h
  | complete sid =>
    obtain ⟨k, hk, h⟩ := Option.bind_eq_some_iff.mp h
    simp only [stepComplete] at h
    split at h
    · cases h
      exact sourceMove_kept hs (completeExecution_sources ..) rfl
    · cases h
  | pause k =>
    obtain ⟨job, -, h⟩ := Option.bind_eq_some_iff.mp h
    obtain ⟨db, hdb, rfl⟩ := World.commit_eq_some.mp h
    obtain ⟨-, hpair⟩ := pauseJob_ok hdb
    exact sourceMove_pair hs (hpair key) (fun _ => rfl)
      (fun he => ⟨s, he ▸ hs, .kept rfl rfl⟩)
  | resume k =>
    obtain ⟨job, -, h⟩ := Option.bind_eq_some_iff.mp h
    obtain ⟨db, hdb, rfl⟩ := World.commit_eq_some.mp h
    obtain ⟨-, hpair⟩ := resumeJob_ok hdb
    exact sourceMove_pair hs (hpair key) (fun _ => rfl)
      (fun he => ⟨s, he ▸ hs, .kept rfl rfl⟩)
  | cancel k =>
    obtain ⟨job, -, h⟩ := Option.bind_eq_some_iff.mp h
    obtain ⟨db, hdb, rfl⟩ := World.commit_eq_some.mp h
    exact sourceMove_cancelJob hdb (fun _ => rfl) (fun _ => rfl) hs
  | crawlRead sid source =>
    simp only [step] at h
    split_ifs at h
    obtain ⟨s₀, -, rfl⟩ := Option.map_eq_some_iff.mp h
    exact sourceMove_kept hs rfl rfl
  | crawlCancel sid =>
    simp only [step] at h
    split at h
    · next k copy hsession =>
      obtain ⟨db, hdb, rfl⟩ := World.commit_eq_some.mp h
      have hint : ∀ key, interrupts w (.crawlCancel sid) key = decide (k = key) := by
        intro key
        simp only [interrupts, hsession]
      rcases cancelDomainCrawl_ok hdb with ⟨job, -, hcancel⟩ | ⟨-, row, s', -, -, hcancelled, rfl⟩
      · exact sourceMove_cancelJob hcancel (fun _ => rfl) hint hs
      refine sourceMove_pair hs (pair_setSource w.db k key s') (fun hne => ?_) (fun he => ?_)
      · rw [hint]
        exact decide_eq_false (Ne.symm hne)
      · refine ⟨s', rfl, .interrupted ?_ (.inl (by rw [hcancelled]; rfl))⟩
        rw [hint]
        exact decide_eq_true he.symm
    · cases h
  | retry source id =>
    obtain ⟨db, hdb, rfl⟩ := World.commit_eq_some.mp h
    obtain ⟨build, job', -, -, hpair, -⟩ := retryProjectBuild_ok hdb
    refine sourceMove_pair hs (hpair key) (fun _ => rfl) (fun he => absurd ?_ hkey)
    rw [he]
  | retryRead sid source =>
    simp only [step] at h
    split_ifs at h
    obtain ⟨job, -, h⟩ := Option.bind_eq_some_iff.mp h
    split at h
    · cases h
      exact sourceMove_kept hs rfl rfl
    · cases h
  | retryCommit sid id =>
    simp only [step] at h
    split at h
    · obtain ⟨db, hdb, rfl⟩ := World.commit_eq_some.mp h
      obtain ⟨build, job', -, -, hpair, -⟩ := retryProjectBuild_ok hdb
      refine sourceMove_pair hs (hpair key) (fun _ => rfl) (fun he => absurd ?_ hkey)
      rw [he]
    · cases h

/-! ## Inversion: phases -/

/-- How a worker session comes to be at work: it was before, it started a queued source, or it
has just read that its run is still running. -/
inductive AtWork (w w' : World) (a : Action) (sid : SessionId) (k : Worker) : Prop
  | before : a.session ≠ some sid → w.sessions sid = some (.worker k) → AtWork w w' a sid k
  | started (valid : Bool) (k₀ : Worker) (s s' : Source) : a = .start sid valid →
      k = { k₀ with phase := .started } → w.db.sources.get k.key = some s → s.status = .queued →
      w'.db.sources.get k.key = some s' → s'.status ≠ .queued → AtWork w w' a sid k
  | read (outcome : Outcome) (k₀ : Worker) (s : Source) : a = .finish sid outcome →
      w.sessions sid = some (.worker k₀) → k₀.phase = .started →
      k = { k₀ with phase := .writing outcome.written.1 outcome.written.2 } →
      k.key.1 ≠ .siteBuild → w'.db = w.db → w.db.sources.get k.key = some s →
      s.status = .running → AtWork w w' a sid k

theorem step_atWork {w w' : World} {a : Action} (h : step w a = some w') {sid : SessionId}
    {k : Worker} (hk : w'.sessions sid = some (.worker k)) (hworking : k.phase.working = true) :
    AtWork w w' a sid k := by
  by_cases hsession : a.session = some sid
  swap
  · rw [(step_session h).other sid hsession] at hk
    exact .before hsession hk
  cases a with
  | tick _ | create _ _ _ | dispatchBegin _ | dispatchCommit _ | dispatchAbort | publish _ _ _
  | recover _ | expireBuilds | recoverRuns | recoverCrawls | pause _ | resume _ | cancel _
  | retry _ _ => cases hsession
  | claim s key lease =>
    cases hsession
    rcases step_worker h hk with ⟨k₀, phase, hk₀, -, -⟩ | ⟨-, hphase, -⟩
    · simp only [step, stepClaim, hk₀] at h
      cases h
    · rw [hphase] at hworking
      cases hworking
  | start s valid =>
    cases hsession
    obtain ⟨k₀, hk₀, h⟩ := Option.bind_eq_some_iff.mp h
    simp only [stepStart] at h
    split at h
    · cases h
      rw [World.setSession_sessions, if_pos rfl] at hk
      cases hk
      cases hsource : w.db.sources.get k₀.key with
      | none =>
        rw [hsource] at hworking
        cases hworking
      | some src =>
        rw [hsource] at hworking
        obtain ⟨src', hsrc', -, hcases⟩ := startSource_some w.now k₀.key.1 valid src
        generalize hresult : (startSource w.now k₀.key.1 valid (some src)).2 = result
          at hworking hcases ⊢
        cases result with
        | some r => cases hworking
        | none =>
          have hstored : (setSource w.db.sources k₀.key
              (startSource w.now k₀.key.1 valid (some src)).1).get k₀.key = some src' := by
            rw [hsrc']
            exact Table.get_set_self ..
          rcases hcases with ⟨-, -, hsome⟩ | ⟨hq, hclosed⟩ | ⟨hq, hr, -⟩
          · cases hsome
          · refine .started valid k₀ src src' rfl rfl hsource hq hstored (fun hq' => ?_)
            rw [hq'] at hclosed
            cases hclosed
          · exact .started valid k₀ src src' rfl rfl hsource hq hstored (by rw [hr]; decide)
    · cases h
  | finish s outcome =>
    cases hsession
    obtain ⟨k₀, hk₀, h⟩ := Option.bind_eq_some_iff.mp h
    simp only [stepFinish] at h
    split at h
    · next hphase =>
      split at h
      · cases h
        unfold stepFinishBuild at hk
        split at hk
        · rw [World.setSession_sessions, if_pos rfl] at hk
          cases hk
          cases hworking
        · rw [World.setSession_sessions, if_pos rfl] at hk
          cases hk
      · next hwork =>
        cases h
        simp only [stepFinishRun] at hk ⊢
        rw [World.setSession_sessions, if_pos rfl] at hk
        cases hsource : w.db.sources.get k₀.key with
        | none =>
          rw [hsource] at hk
          cases hk
          cases hworking
        | some src =>
          rw [hsource] at hk
          by_cases hr : src.status = .running
          · simp only [Option.map_some, hr, if_true] at hk
            cases hk
            exact .read outcome k₀ src rfl (World.worker_eq_some.mp hk₀) hphase.1 rfl hwork rfl
              hsource hr
          · simp only [Option.map_some, Option.some.injEq, hr, if_false] at hk
            cases hk
            cases hworking
    · cases h
  | write s =>
    cases hsession
    obtain ⟨k₀, hk₀, h⟩ := Option.bind_eq_some_iff.mp h
    simp only [stepWrite] at h
    split at h
    · cases h
      rw [World.setSession_sessions, if_pos rfl] at hk
      cases hk
      cases hworking
    · cases h
  | complete s =>
    cases hsession
    obtain ⟨k₀, hk₀, h⟩ := Option.bind_eq_some_iff.mp h
    simp only [stepComplete] at h
    split at h
    · cases h
      rw [World.setSession_sessions, if_pos rfl] at hk
      cases hk
    · cases h
  | die s =>
    cases hsession
    cases h
    rw [World.setSession_sessions, if_pos rfl] at hk
    cases hk
  | crawlRead s source =>
    cases hsession
    simp only [step] at h
    split_ifs at h
    obtain ⟨s₀, -, rfl⟩ := Option.map_eq_some_iff.mp h
    rw [World.setSession_sessions, if_pos rfl] at hk
    cases hk
  | crawlCancel s =>
    cases hsession
    simp only [step] at h
    split at h
    · obtain ⟨db, hdb, rfl⟩ := World.commit_eq_some.mp h
      rw [show _ = _ from World.setSession_sessions w sid sid none, if_pos rfl] at hk
      cases hk
    · cases h
  | retryRead s source =>
    cases hsession
    simp only [step] at h
    split_ifs at h
    obtain ⟨job, -, h⟩ := Option.bind_eq_some_iff.mp h
    split at h
    · cases h
      rw [World.setSession_sessions, if_pos rfl] at hk
      cases hk
    · cases h
  | retryCommit s id =>
    cases hsession
    simp only [step] at h
    split at h
    · obtain ⟨db, hdb, rfl⟩ := World.commit_eq_some.mp h
      rw [show _ = _ from World.setSession_sessions w sid sid none, if_pos rfl] at hk
      cases hk
    · cases h

/-! ## The invariant -/

variable {sid : SessionId} {t : World × (SessionId → Bool)}

/-- What is true of workers on keyword runs and crawls. The second component says which of them
were interrupted since their last read. -/
structure Watched (s : World × (SessionId → Bool)) : Prop where
  leases : Leases s.1
  /-- At most one worker is at work on a source, -/
  unique : ∀ sid sid' k k', s.1.sessions sid = some (.worker k) →
    s.1.sessions sid' = some (.worker k') → k.key = k'.key → k.key.1 ≠ .siteBuild →
    k.phase.working = true → k'.phase.working = true → sid = sid'
  /-- which is there and not queued. -/
  source : ∀ sid k, s.1.sessions sid = some (.worker k) → k.key.1 ≠ .siteBuild →
    k.phase.working = true → ∃ src, s.1.db.sources.get k.key = some src ∧ src.status ≠ .queued
  outcome : ∀ sid k status code, s.1.sessions sid = some (.worker k) →
    k.phase = .writing status code → k.key.1 ≠ .siteBuild ∧ status.isOpen = false
  /-- A worker about to write finds its source running, unless it was interrupted. -/
  clean : ∀ sid k status code src, s.1.sessions sid = some (.worker k) →
    k.phase = .writing status code → s.1.db.sources.get k.key = some src → s.2 sid = false →
    src.status = .running
  aborted : ∀ sid k status code src, s.1.sessions sid = some (.worker k) →
    k.phase = .writing status code → s.1.db.sources.get k.key = some src → s.2 sid = true →
    src.status.isAborted = true

theorem Watched.init (h : Init w) : Watched (w, fun _ => false) := by
  have hsession : ∀ sid s, w.sessions sid ≠ some s := by
    intro sid s hs
    rw [h.sessions] at hs
    cases hs
  exact ⟨.init h, fun _ _ _ _ hk => absurd hk (hsession _ _), fun _ _ hk => absurd hk (hsession _ _),
    fun _ _ _ _ hk => absurd hk (hsession _ _), fun _ _ _ _ _ hk => absurd hk (hsession _ _),
    fun _ _ _ _ _ hk => absurd hk (hsession _ _)⟩

theorem noteInterrupted_of_ne {g : SessionId → Bool} {k : Worker} (hne : a.session ≠ some sid)
    (hk : w.sessions sid = some (.worker k)) :
    noteInterrupted w a g sid = (g sid || interrupts w a k.key) := by
  unfold noteInterrupted
  split
  · rw [if_neg hne]
    exact (Bool.or_false _).symm
  · rw [World.worker_eq_some.mpr hk, Option.any_some]

/-- The source of a worker at work is moved by nobody else but who interrupts it. -/
theorem Watched.sourceMove {s : World × (SessionId → Bool)} (hs : Watched s)
    (h : step s.1 a = some w') {k : Worker} (hne : a.session ≠ some sid)
    (hk : s.1.sessions sid = some (.worker k)) (hkey : k.key.1 ≠ .siteBuild)
    (hworking : k.phase.working = true) :
    ∃ src src', s.1.db.sources.get k.key = some src ∧ w'.db.sources.get k.key = some src' ∧
      src.status ≠ .queued ∧
      ((interrupts s.1 a k.key = false ∧ src' = src) ∨
       (interrupts s.1 a k.key = true ∧
        (src'.status.isAborted = true ∨ src'.status = src.status ∧ src.status ≠ .running))) := by
  obtain ⟨src, hsrc, hnq⟩ := hs.source sid k hk hkey hworking
  obtain ⟨src', hsrc', hmove⟩ := step_source h hkey hsrc
  refine ⟨src, src', hsrc, hsrc', hnq, ?_⟩
  cases hmove with
  | kept heq hquiet => exact .inl ⟨hquiet, heq⟩
  | started _ _ _ hq _ => exact absurd hq hnq
  | written sid' k' status code ha hk' hkey' hphase _ =>
    refine absurd ?_ hne
    rw [ha, hs.unique sid sid' k k' hk hk' hkey'.symm hkey hworking (by rw [hphase]; rfl)]
    rfl
  | interrupted hint hor => exact .inr ⟨hint, hor⟩
  | legacy hjob _ =>
    have hsome := hs.leases.worker_row sid k hk
    rw [hjob] at hsome
    cases hsome

theorem Watched.step {s : World × (SessionId → Bool)} (hs : Watched s)
    (h : withGhost step noteInterrupted s a = some t) : Watched t := by
  obtain ⟨hstep, hg⟩ := withGhost_eq_some.mp h
  have hatWork := fun sid k hk => @step_atWork _ _ _ hstep sid k hk
  have hworked : ∀ sid k, t.1.sessions sid = some (.worker k) → k.phase.working = true →
      (∃ k₀, s.1.sessions sid = some (.worker k₀) ∧ k₀.key = k.key ∧ k₀.phase.working = true) ∨
      ((∃ valid, a = .start sid valid) ∧
        ∃ src, s.1.db.sources.get k.key = some src ∧ src.status = .queued) := by
    intro sid k hk hw
    cases hatWork sid k hk hw with
    | before _ hk₀ => exact .inl ⟨k, hk₀, rfl, hw⟩
    | started valid _ src _ ha _ hsrc hq _ _ => exact .inr ⟨⟨valid, ha⟩, src, hsrc, hq⟩
    | read _ k₀ _ _ hk₀ hphase hk' _ _ _ _ =>
      exact .inl ⟨k₀, hk₀, by rw [hk'], by rw [hphase]; rfl⟩
  refine ⟨hs.leases.step hstep, fun sid sid' k k' hk hk' hkey hb hw hw' => ?_,
    fun sid k hk hb hw => ?_, fun sid k status code hk hphase => ?_,
    fun sid k status code src hk hphase hsrc hclean => ?_,
    fun sid k status code src hk hphase hsrc hint => ?_⟩
  · rcases hworked sid k hk hw with ⟨k₀, hk₀, hkey₀, hw₀⟩ | ⟨⟨valid, ha⟩, src, hsrc, hq⟩
    · rcases hworked sid' k' hk' hw' with ⟨k₁, hk₁, hkey₁, hw₁⟩ | ⟨-, src, hsrc, hq⟩
      · exact hs.unique sid sid' k₀ k₁ hk₀ hk₁ (hkey₀.trans (hkey.trans hkey₁.symm))
          (hkey₀ ▸ hb) hw₀ hw₁
      · obtain ⟨src₀, hsrc₀, hnq⟩ := hs.source sid k₀ hk₀ (hkey₀ ▸ hb) hw₀
        rw [hkey₀, hkey, hsrc] at hsrc₀
        exact absurd (Option.some.inj hsrc₀ ▸ hq) hnq
    · rcases hworked sid' k' hk' hw' with ⟨k₁, hk₁, hkey₁, hw₁⟩ | ⟨⟨valid', ha'⟩, -⟩
      · obtain ⟨src₀, hsrc₀, hnq⟩ := hs.source sid' k₁ hk₁ (hkey₁ ▸ hkey ▸ hb) hw₁
        rw [hkey₁, ← hkey, hsrc] at hsrc₀
        exact absurd (Option.some.inj hsrc₀ ▸ hq) hnq
      · rw [ha] at ha'
        cases ha'
        rfl
  · cases hatWork sid k hk hw with
    | before hne hk₀ =>
      obtain ⟨src, src', hsrc, hsrc', hnq, ⟨-, rfl⟩ | ⟨-, ha | ⟨heq, -⟩⟩⟩ :=
        hs.sourceMove hstep hne hk₀ hb hw
      · exact ⟨_, hsrc', hnq⟩
      · refine ⟨src', hsrc', fun hq => ?_⟩
        rw [hq] at ha
        cases ha
      · exact ⟨src', hsrc', heq ▸ hnq⟩
    | started valid k₀ src src' ha hk₀ hsrc hq hsrc' hnq => exact ⟨src', hsrc', hnq⟩
    | read outcome k₀ src ha hk₀ hphase hk' hkey hdb hsrc hr =>
      exact ⟨src, hdb ▸ hsrc, by rw [hr]; decide⟩
  · cases hatWork sid k hk (by rw [hphase]; rfl) with
    | before hne hk₀ => exact hs.outcome sid k status code hk₀ hphase
    | started valid k₀ src src' ha hk₀ hsrc hq hsrc' hnq =>
      rw [hk₀] at hphase
      cases hphase
    | read outcome k₀ src ha hk₀ hphase₀ hk' hkey hdb hsrc hr =>
      refine ⟨hkey, ?_⟩
      rw [hk'] at hphase
      cases hphase
      exact outcome.written_closed
  · have hw : k.phase.working = true := by
      rw [hphase]
      rfl
    cases hatWork sid k hk hw with
    | before hne hk₀ =>
      rw [hg, noteInterrupted_of_ne hne hk₀, Bool.or_eq_false_iff] at hclean
      obtain ⟨src₀, src', hsrc₀, hsrc', -, ⟨-, rfl⟩ | ⟨hint, -⟩⟩ :=
        hs.sourceMove hstep hne hk₀ (hs.outcome sid k status code hk₀ hphase).1 hw
      · rw [hsrc] at hsrc'
        cases hsrc'
        exact hs.clean sid k status code src hk₀ hphase hsrc₀ hclean.1
      · rw [hclean.2] at hint
        cases hint
    | started valid k₀ _ _ _ hk₀ _ _ _ _ =>
      rw [hk₀] at hphase
      cases hphase
    | read _ _ src₀ _ _ _ _ _ hdb hsrc₀ hr =>
      rw [hdb, hsrc₀] at hsrc
      exact Option.some.inj hsrc ▸ hr
  · have hw : k.phase.working = true := by
      rw [hphase]
      rfl
    cases hatWork sid k hk hw with
    | before hne hk₀ =>
      rw [hg, noteInterrupted_of_ne hne hk₀, Bool.or_eq_true] at hint
      obtain ⟨src₀, src', hsrc₀, hsrc', -, hmove⟩ :=
        hs.sourceMove hstep hne hk₀ (hs.outcome sid k status code hk₀ hphase).1 hw
      rw [hsrc] at hsrc'
      cases hsrc'
      cases hold : s.2 sid with
      | true =>
        have haborted := hs.aborted sid k status code src₀ hk₀ hphase hsrc₀ hold
        rcases hmove with ⟨-, rfl⟩ | ⟨-, ha | ⟨heq, -⟩⟩
        · exact haborted
        · exact ha
        · exact heq ▸ haborted
      | false =>
        have hrunning := hs.clean sid k status code src₀ hk₀ hphase hsrc₀ hold
        rcases hmove with ⟨hquiet, -⟩ | ⟨-, ha | ⟨-, hne'⟩⟩
        · rw [hold, hquiet] at hint
          rcases hint with hint | hint <;> cases hint
        · exact ha
        · exact absurd hrunning hne'
    | started valid k₀ _ _ _ hk₀ _ _ _ _ =>
      rw [hk₀] at hphase
      cases hphase
    | read outcome _ _ ha _ _ _ _ _ _ _ =>
      rw [hg, ha] at hint
      simp [noteInterrupted, Action.session] at hint

/-! ## The theorem -/

variable {status : SourceStatus} {src : Source} {as : List Action}

end MegaPanel.Scheduler
