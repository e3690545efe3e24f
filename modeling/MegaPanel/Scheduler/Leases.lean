import MegaPanel.Scheduler.Effects

set_option autoImplicit false

/-! # Leases along a run

Who can have which lease. A dispatch hands out leases that no row, session or message has
seen before; a claim turns a leased job into a running one, once per lease; after that a row
only ever loses its lease. `Leases` collects what follows: at most one live worker per
lease, the worker's copy of its job always shows that lease, and a row in state `leased`
carries a lease no worker has.

The invariant is proved from two inversion lemmas: `step_row` says what a step can do to the
lease columns of a job row, `step_session` what it can do to the sessions.
-/

namespace MegaPanel.Scheduler

open MegaPanel.Lib

/-! ## Completion calls and lost leases -/

/-- A call of `complete_execution`: the database it finds, the job instance of its session,
and its arguments. `caller` is the worker session the call ends; a claim that completes a job
whose source cannot start calls it on the row it has just locked. -/
structure Call where
  caller : Option SessionId
  db : Db
  copy : Job
  key : JobKey
  lease : LeaseId
  result : Result

/-- The call of `complete_execution` made by an action. -/
def callOf (w : World) : Action → Option Call
  | .claim sid key lease =>
    if (w.sessions sid).isNone && decide ((key, lease) ∈ w.messages) then
      match w.db.jobs.get key with
      | none => none
      | some job =>
        if job.claimable w.now lease then
          match sourceStatus w.db key job with
          | (some .queued, none) => none
          | (status, error) =>
            some { caller := none, db := w.db, copy := job, key := key, lease := lease,
                   result := unstartableResult status error }
        else none
    else none
  | .complete sid =>
    (w.worker sid).bind (fun k =>
      match k.phase with
      | .returned result =>
        some { caller := some sid, db := w.db, copy := k.copy, key := k.key,
               lease := k.lease, result := result }
      | _ => none)
  | .finish sid outcome =>
    (w.worker sid).bind (fun k =>
      if k.phase = .started ∧ outcome.work = k.key.1 ∧ k.key.1 = .siteBuild then
        match finishBuild w.now w.db k.key k.copy k.lease outcome with
        | (_, some _) => none
        | (db, none) =>
          some { caller := some sid, db := db, copy := k.copy, key := k.key,
                 lease := k.lease, result := staleResult }
      else none)
  | _ => none

/-- The action takes the lease of the job `key` from whoever is executing it: a recovery
sweep that finds the lease expired and the row unlocked, the commit of a scheduled-work
retry, or a completion by a worker. -/
def takesLease (w : World) (a : Action) (key : JobKey) : Bool :=
  match a with
  | .recover locked =>
    (w.db.jobs.get key).any (fun job => job.leaseExpired w.now && !decide (key ∈ locked))
  | .retryCommit sid _ =>
    match w.sessions sid with
    | some (.retry k _) => k.2 = key.2 && key.1 = .siteBuild
    | _ => false
  | .complete _ | .finish _ _ => (callOf w a).any (fun c => c.key = key)
  | _ => false

/-- The row of the job `key` carries `lease` in an active state. -/
def World.holds (w : World) (key : JobKey) (lease : LeaseId) : Bool :=
  (w.db.jobs.get key).any (fun job => job.holds lease)

/-! ## Inversion: rows -/

/-- What a step can do to the lease columns of one job row. `taken` says that the step takes
the lease. -/
inductive RowMove (next next' : LeaseId) (taken : Bool) : Option Job → Option Job → Prop
  | missing : RowMove next next' taken none none
  | same (job : Job) : taken = false → RowMove next next' taken (some job) (some job)
  | insert (job : Job) : job.state = .queued → job.leaseId = none →
      RowMove next next' taken none (some job)
  | lease (job : Job) (now : Time) (l : LeaseId) : taken = false → job.state = .queued →
      next ≤ l → l < next' → RowMove next next' taken (some job) (some (job.lease now l))
  | start (job : Job) (now : Time) : taken = false → job.state = .leased →
      RowMove next next' taken (some job) (some (job.start now))
  | request (job job' : Job) : taken = false → job.state = .running →
      job'.state = .cancelRequested → job'.leaseId = job.leaseId →
      RowMove next next' taken (some job) (some job')
  | release (job job' : Job) :
      (taken = true ∨ job.state = .leased ∨ job.state.isActive = false) →
      (job'.leaseId = none ∨ job'.leaseId = job.leaseId) → job'.state.isActive = false →
      RowMove next next' taken (some job) (some job')

variable {next next' : LeaseId} {taken : Bool} {old new : Option Job}

theorem RowMove.isSome (h : RowMove next next' taken old new) (hold : old.isSome) :
    new.isSome := by
  cases h <;> first | exact hold | rfl

variable {job : Job} {l : LeaseId}

/-- A row written by a step carries a lease it had before or one that is new. -/
theorem RowMove.lease_lt (h : RowMove next next' taken old new) (hnext : next ≤ next')
    (hold : ∀ job l, old = some job → job.leaseId = some l → l < next) (hnew : new = some job)
    (hl : job.leaseId = some l) : l < next' := by
  cases h with
  | missing => cases hnew
  | same j _ =>
    exact (hold j l rfl (Option.some.inj hnew ▸ hl)).trans_le hnext
  | insert j _ hnone =>
    cases hnew
    rw [hnone] at hl
    cases hl
  | lease j now l' _ _ _ hlt =>
    cases hnew
    rw [← Option.some.inj hl]
    exact hlt
  | start j now _ _ =>
    cases hnew
    exact (hold j l rfl hl).trans_le hnext
  | request j j' _ _ _ hlease =>
    cases hnew
    exact (hold j l rfl (hlease ▸ hl)).trans_le hnext
  | release j j' _ hlease _ =>
    cases hnew
    rcases hlease with hlease | hlease
    · rw [hlease] at hl
      cases hl
    · exact (hold j l rfl (hlease ▸ hl)).trans_le hnext

/-- A row in state `leased` was there before or carries a lease that is new. -/
theorem RowMove.leased (h : RowMove next next' taken old new) (hnew : new = some job)
    (hstate : job.state = .leased) (hl : job.leaseId = some l) : old = some job ∨ next ≤ l := by
  cases h with
  | missing => cases hnew
  | same j _ => exact .inl hnew
  | insert j hs _ =>
    cases hnew
    rw [hs] at hstate
    cases hstate
  | lease j now l' _ _ hle _ =>
    cases hnew
    rw [← Option.some.inj hl]
    exact .inr hle
  | start j now _ _ =>
    cases hnew
    cases hstate
  | request j j' _ _ hs _ =>
    cases hnew
    rw [hs] at hstate
    cases hstate
  | release j j' _ _ hinactive =>
    cases hnew
    rw [hstate] at hinactive
    cases hinactive

/-- **A step takes the lease of a running job exactly when `taken` says so.** -/
theorem RowMove.holds (h : RowMove next next' taken old new) (hlt : l < next)
    (hfree : ∀ job, old = some job → job.state = .leased → job.leaseId ≠ some l) :
    new.any (fun job => job.holds l) = (old.any (fun job => job.holds l) && !taken) := by
  cases h with
  | missing => rfl
  | same j ht => simp [ht]
  | insert j hs hl => simp [Job.holds, hl]
  | lease j now l' ht hs hle _ =>
    have hne : l' ≠ l := (hlt.trans_le hle).ne'
    simp [Job.holds, Job.lease, hs, hne, JobState.isActive]
  | start j now ht hs => simp [Job.holds, Job.start, hs, ht, JobState.isActive]
  | request j j' ht hs hs' hl => simp [Job.holds, hs, hs', hl, ht, JobState.isActive]
  | release j j' hcause _ hinactive =>
    have hnew : j'.holds l = false := by simp [Job.holds, hinactive]
    have hold : (j.holds l && !taken) = false := by
      rcases hcause with h | h | h
      · simp [h]
      · simp [Job.holds, hfree j rfl h]
      · simp [Job.holds, h]
    simp only [Option.any_some, hnew, hold]

/-! ## Inversion: sessions -/

variable {w w' : World} {a : Action} {k : Worker} {sid : SessionId}

/-- What a step can do to one session. `old` and `new` are the databases before and after. -/
inductive SessionMove (old new : Db) : Option Session → Option Session → Prop
  | same (s : Option Session) : SessionMove old new s s
  | ended (s : Option Session) : SessionMove old new s none
  | moved (k : Worker) (phase : Phase) : phase ≠ .claimed →
      SessionMove old new (some (.worker k)) (some (.worker { k with phase := phase }))
  | claimed (key : JobKey) (lease : LeaseId) (job : Job) (now : Time) :
      old.jobs.get key = some job → job.state = .leased → job.leaseId = some lease →
      new.jobs.get key = some (job.start now) →
      SessionMove old new none (some (.worker
        { key := key, lease := lease, copy := job.start now, phase := .claimed }))
  | loadedJob (source : SourceId) (job : Job) : job.state = .failed →
      SessionMove old new none (some (.retry (.siteBuild, source) job))
  | loadedCrawl (key : JobKey) (s : Source) :
      SessionMove old new none (some (.crawlCancel key s))

/-- What a step does to the sessions: only the one it acts in moves. -/
structure SessionsMove (w : World) (a : Action) (w' : World) : Prop where
  other : ∀ s, a.session ≠ some s → w'.sessions s = w.sessions s
  own : ∀ s, a.session = some s → SessionMove w.db w'.db (w.sessions s) (w'.sessions s)

theorem sessionsMove_set (sid : SessionId) {session : Option Session} (ha : a.session = some sid)
    (hw' : w'.sessions = (w.setSession sid session).sessions)
    (h : SessionMove w.db w'.db (w.sessions sid) session) : SessionsMove w a w' := by
  refine ⟨fun s hs => ?_, fun s hs => ?_⟩
  · have hne : s ≠ sid := fun he => hs (he ▸ ha)
    rw [hw', World.setSession_sessions, if_neg hne]
  · rw [ha] at hs
    cases hs
    rw [hw', World.setSession_sessions, if_pos rfl]
    exact h

theorem sessionsMove_same (hw' : w'.sessions = w.sessions) : SessionsMove w a w' := by
  refine ⟨fun s _ => by rw [hw'], fun s _ => ?_⟩
  rw [hw']
  exact .same _

theorem step_session (h : step w a = some w') : SessionsMove w a w' := by
  cases a with
  | tick _ | expireBuilds | recoverRuns | recoverCrawls | recover _ | dispatchAbort =>
    cases h
    exact sessionsMove_same rfl
  | create key id request =>
    simp only [step] at h
    split_ifs at h
    obtain ⟨db, -, rfl⟩ := World.commit_eq_some.mp h
    exact sessionsMove_same rfl
  | dispatchBegin limit =>
    simp only [step] at h
    split_ifs at h
    cases h
    exact sessionsMove_same rfl
  | dispatchCommit locked =>
    obtain ⟨slots, -, rfl⟩ := Option.map_eq_some_iff.mp h
    exact sessionsMove_same rfl
  | publish key lease delivery =>
    cases h
    refine sessionsMove_same ?_
    cases delivery <;> rfl
  | claim sid key lease =>
    simp only [step, stepClaim] at h
    split at h
    · next hfree =>
      simp only [Bool.and_eq_true, Option.isNone_iff_eq_none] at hfree
      rcases claimExecution_cases w.now w.db key lease with
        hc | ⟨job, hjob, hclaim, ⟨db', s, hc, hs, hq, hpair⟩ | ⟨db', r, hc, -, -⟩⟩
      · rw [hc] at h
        cases h
        exact sessionsMove_same rfl
      · rw [hc] at h
        cases h
        obtain ⟨hstate, hlease, -⟩ := Job.claimable_iff.mp hclaim
        refine sessionsMove_set sid rfl rfl ?_
        rw [hfree.1]
        exact .claimed key lease job w.now hjob hstate hlease
          (Db.pair_eq.mp ((hpair key).trans (if_pos rfl))).1
      · rw [hc] at h
        cases h
        exact sessionsMove_same rfl
    · cases h
  | start sid valid =>
    obtain ⟨k, hk, h⟩ := Option.bind_eq_some_iff.mp h
    simp only [stepStart] at h
    split at h
    · cases h
      refine sessionsMove_set sid rfl rfl ?_
      rw [World.worker_eq_some.mp hk]
      refine .moved k _ ?_
      split <;> nofun
    · cases h
  | finish sid outcome =>
    obtain ⟨k, hk, h⟩ := Option.bind_eq_some_iff.mp h
    simp only [stepFinish] at h
    split at h
    · split at h
      · cases h
        unfold stepFinishBuild
        split
        · refine sessionsMove_set sid rfl rfl ?_
          rw [World.worker_eq_some.mp hk]
          exact .moved k _ nofun
        · exact sessionsMove_set sid rfl rfl (.ended _)
      · cases h
        refine sessionsMove_set sid rfl rfl ?_
        rw [World.worker_eq_some.mp hk]
        refine .moved k _ ?_
        split <;> nofun
    · cases h
  | write sid =>
    obtain ⟨k, hk, h⟩ := Option.bind_eq_some_iff.mp h
    simp only [stepWrite] at h
    split at h
    · cases h
      refine sessionsMove_set sid rfl rfl ?_
      rw [World.worker_eq_some.mp hk]
      exact .moved k _ nofun
    · cases h
  | complete sid =>
    obtain ⟨k, hk, h⟩ := Option.bind_eq_some_iff.mp h
    simp only [stepComplete] at h
    split at h
    · cases h
      exact sessionsMove_set sid rfl rfl (.ended _)
    · cases h
  | die sid =>
    cases h
    exact sessionsMove_set sid rfl rfl (.ended _)
  | pause key | resume key | cancel key =>
    obtain ⟨job, -, h⟩ := Option.bind_eq_some_iff.mp h
    obtain ⟨db, -, rfl⟩ := World.commit_eq_some.mp h
    exact sessionsMove_same rfl
  | crawlRead sid source =>
    simp only [step] at h
    split_ifs at h with hfree
    obtain ⟨s, -, rfl⟩ := Option.map_eq_some_iff.mp h
    refine sessionsMove_set sid rfl rfl ?_
    rw [Option.not_isSome_iff_eq_none.mp hfree]
    exact .loadedCrawl _ s
  | crawlCancel sid =>
    simp only [step] at h
    split at h
    · obtain ⟨db, -, rfl⟩ := World.commit_eq_some.mp h
      exact sessionsMove_set sid rfl rfl (.ended _)
    · cases h
  | retry source id =>
    obtain ⟨db, -, rfl⟩ := World.commit_eq_some.mp h
    exact sessionsMove_same rfl
  | retryRead sid source =>
    simp only [step] at h
    split_ifs at h with hfree
    obtain ⟨job, -, h⟩ := Option.bind_eq_some_iff.mp h
    split at h
    · next hstate =>
      cases h
      refine sessionsMove_set sid rfl rfl ?_
      rw [Option.not_isSome_iff_eq_none.mp hfree]
      exact .loadedJob source job hstate
    · cases h
  | retryCommit sid id =>
    simp only [step] at h
    split at h
    · obtain ⟨db, -, rfl⟩ := World.commit_eq_some.mp h
      exact sessionsMove_set sid rfl rfl (.ended _)
    · cases h

/-- A worker session after a step was there before, at the same phase or past its claim, or
has just claimed its job. -/
theorem step_worker (h : step w a = some w') {s : SessionId}
    (hk : w'.sessions s = some (.worker k)) :
    (∃ k₀ phase, w.sessions s = some (.worker k₀) ∧ k = { k₀ with phase := phase } ∧
      (phase = k₀.phase ∨ phase ≠ .claimed)) ∨
    (a.session = some s ∧ k.phase = .claimed ∧ ∃ job now, w.db.jobs.get k.key = some job ∧
      job.state = .leased ∧ job.leaseId = some k.lease ∧ k.copy = job.start now ∧
      w'.db.jobs.get k.key = some (job.start now)) := by
  obtain ⟨hother, hmove⟩ := step_session h
  by_cases hs : a.session = some s
  · have hown := hmove s hs
    rw [hk] at hown
    generalize hold : w.sessions s = old at hown
    cases hown with
    | same => exact .inl ⟨k, k.phase, rfl, rfl, .inl rfl⟩
    | moved k₀ phase hphase => exact .inl ⟨k₀, phase, rfl, rfl, .inr hphase⟩
    | claimed key lease job now h1 h2 h3 h4 =>
      exact .inr ⟨hs, rfl, job, now, h1, h2, h3, rfl, h4⟩
  · rw [hother s hs] at hk
    exact .inl ⟨k, k.phase, hk, rfl, .inl rfl⟩

/-- The sessions no action of a run acts in stay as they are. -/
theorem exec_sessions {as : List Action} (h : exec step w as = some w')
    (hsid : sid ∉ as.filterMap Action.session) : w'.sessions sid = w.sessions sid := by
  induction as generalizing w with
  | nil =>
    cases h
    rfl
  | cons a as ih =>
    obtain ⟨u, hu, h'⟩ := exec_cons_eq_some.mp h
    simp only [List.mem_filterMap, List.mem_cons, not_exists, not_and] at hsid
    rw [ih h' ?_, (step_session hu).other sid (hsid a (.inl rfl))]
    simp only [List.mem_filterMap, not_exists, not_and]
    exact fun b hb => hsid b (.inr hb)

/-! ## The invariant -/

/-- What is true of leases in every reachable state. -/
structure Leases (w : World) : Prop where
  row_lt : ∀ key job l, w.db.jobs.get key = some job → job.leaseId = some l → l < w.nextLease
  worker_lt : ∀ sid k, w.sessions sid = some (.worker k) → k.lease < w.nextLease
  worker_row : ∀ sid k, w.sessions sid = some (.worker k) → (w.db.jobs.get k.key).isSome
  copy : ∀ sid k, w.sessions sid = some (.worker k) →
    k.copy.leaseId = some k.lease ∧ k.copy.state = .running
  leased_free : ∀ sid k job, w.sessions sid = some (.worker k) → w.db.jobs.get k.key = some job →
    job.state = .leased → job.leaseId ≠ some k.lease
  unique : ∀ sid sid' k k', w.sessions sid = some (.worker k) →
    w.sessions sid' = some (.worker k') → k.key = k'.key → k.lease = k'.lease → sid = sid'
  retry_copy : ∀ sid key job, w.sessions sid = some (.retry key job) →
    key.1 = .siteBuild ∧ job.state = .failed

theorem Leases.init (h : Init w) : Leases w := by
  have hsession : ∀ sid s, w.sessions sid ≠ some s := by
    intro sid s hs
    rw [h.sessions] at hs
    cases hs
  refine ⟨fun key job l hjob => ?_, fun sid k hk => absurd hk (hsession _ _),
    fun sid k hk => absurd hk (hsession _ _), fun sid k hk => absurd hk (hsession _ _),
    fun sid k _ hk => absurd hk (hsession _ _), fun sid _ k _ hk => absurd hk (hsession _ _),
    fun sid key job hk => absurd hk (hsession _ _)⟩
  rw [h.jobs] at hjob
  cases hjob

theorem Leases.copy_holds (h : Leases w) (hk : w.sessions sid = some (.worker k)) :
    k.copy.holds k.lease = true := by
  obtain ⟨hl, hs⟩ := h.copy sid k hk
  rw [Job.holds_iff, hl, hs]
  exact ⟨rfl, rfl⟩

/-! ## The inversion lemma for rows -/

variable {db db' : Db} {key : JobKey} {now : Time}

theorem rowMove_same (next next' : LeaseId) (job : Option Job) :
    RowMove next next' false job job := by
  cases job with
  | none => exact .missing
  | some j => exact .same j rfl

theorem rowMove_of_pair {next next' : LeaseId} (h : db'.pair key = db.pair key) :
    RowMove next next' false (db.jobs.get key) (db'.jobs.get key) := by
  rw [(Db.pair_eq.mp h).1]
  exact rowMove_same ..

theorem rowMove_swept {next next' : LeaseId} (h : LegacySwept db db') (key : JobKey) :
    RowMove next next' false (db.jobs.get key) (db'.jobs.get key) := by
  rw [h.jobs]
  exact rowMove_same ..

/-- A step that changes one pair. -/
theorem rowMove_one {next next' : LeaseId} {taken : JobKey → Bool} {p : Option Job × Option Source}
    (hpair : ∀ k, db'.pair k = if k = key then p else db.pair k)
    (hother : ∀ k, k ≠ key → taken k = false)
    (hmove : RowMove next next' (taken key) (db.jobs.get key) p.1) (k : JobKey) :
    RowMove next next' (taken k) (db.jobs.get k) (db'.jobs.get k) := by
  by_cases hk : k = key
  · subst hk
    rw [(Db.pair_eq.mp ((hpair k).trans (if_pos rfl))).1]
    exact hmove
  · rw [hother k hk]
    exact rowMove_of_pair ((hpair k).trans (if_neg hk))

/-- A worker's completion closes the row, whatever lease the row carries. -/
theorem rowMove_complete {next next' : LeaseId} {copy : Job} {lease : LeaseId} (now : Time)
    (result : Result) (hlease : copy.leaseId = some lease) (hstate : copy.state = .running)
    (row : Option Job) :
    RowMove next next' true row (row.map (Job.flush copy (copy.complete now result).1)) := by
  cases row with
  | none => exact .missing
  | some row =>
    obtain ⟨hl, hs⟩ := Job.flush_complete now result hlease hstate row
    refine .release row _ (.inl rfl) (.inl hl) ?_
    rw [hs]
    exact JobState.isTerminal_not_active (copy.complete_closed now result).2

theorem rowMove_recover {next next' : LeaseId} (now : Time) (locked : List JobKey)
    (key : JobKey) (p : Option Job × Option Source) :
    RowMove next next' (p.1.any (fun job => job.leaseExpired now && !decide (key ∈ locked))) p.1
      (recoverView now locked key p).1 := by
  obtain ⟨job, source⟩ := p
  cases job with
  | none => exact .missing
  | some job =>
    simp only [recoverView, Option.any_some]
    by_cases hc : (job.leaseExpired now && !decide (key ∈ locked)) = true
    · rw [hc, if_pos rfl]
      obtain ⟨hl, hs⟩ := recoverPair_job now key.1 job source
      refine .release job _ (.inl rfl) (.inl hl) ?_
      rcases hs with hs | hs
      · rw [hs]
        rfl
      · exact JobState.isTerminal_not_active hs
    · rw [Bool.not_eq_true] at hc
      rw [hc, if_neg Bool.false_ne_true]
      exact .same job rfl

theorem rowMove_cancel {next next' : LeaseId} (now : Time) (hstate : job.state ≠ .cancelRequested) :
    RowMove next next' false (some job) (some (job.cancel now)) := by
  unfold Job.cancel
  split
  · next hr => exact .request job _ rfl hr rfl rfl
  · next hr =>
    refine .release job _ ?_ (.inl rfl) rfl
    right
    cases hs : job.state <;> simp_all [JobState.isActive]

/-- A retry moves an inactive job, unless its session's copy is stale: then the caller is a
scheduled-work retry, which takes the lease. -/
theorem rowMove_retry {next next' : LeaseId} {copy : Option Job} {id : Nat} {source : SourceId}
    {taken : JobKey → Bool} (h : retryProjectBuild now db copy id source = .ok db')
    (hother : ∀ k, k ≠ (.siteBuild, source) → taken k = false)
    (hcopy : copy = none ∧ taken (.siteBuild, source) = false ∨
      ∃ c, copy = some c ∧ c.state = .failed ∧ taken (.siteBuild, source) = true) (k : JobKey) :
    RowMove next next' (taken k) (db.jobs.get k) (db'.jobs.get k) := by
  obtain ⟨build, job', -, -, hpair, hjob⟩ := retryProjectBuild_ok h
  refine rowMove_one hpair hother ?_ k
  rcases hjob with ⟨hnone, hs, hl, -⟩ | ⟨row, hrow, ⟨hq, rfl⟩ | ⟨hstate, rfl⟩⟩
  · rw [hnone]
    exact .insert job' hs hl
  · rw [hrow]
    rcases hcopy with ⟨rfl, ht⟩ | ⟨c, rfl, hc, -⟩
    · rw [ht]
      exact .same job' rfl
    · rw [Option.getD_some, hc] at hq
      cases hq
  · rw [hrow]
    rcases hcopy with ⟨rfl, ht⟩ | ⟨c, rfl, hc, ht⟩
    · rw [Option.getD_none] at hstate ⊢
      rw [Job.flush_stored]
      refine .release row _ (.inr (.inr ?_)) (.inl rfl) rfl
      rcases hstate with h | h | h <;> rw [h] <;> rfl
    rw [Option.getD_some]
    have hs : (Job.flush c (c.requeue now (build.retry now)) row).state = .queued :=
      writeCol_dirty (by rw [hc]; simp [Job.requeue]) _
    refine .release row _ (.inl ht) ?_ (by rw [hs]; rfl)
    show writeCol c.leaseId none row.leaseId = none ∨ writeCol c.leaseId none row.leaseId = _
    unfold writeCol
    split
    · exact .inr rfl
    · exact .inl rfl

theorem finishBuild_jobs (now : Time) (db : Db) (key : JobKey) (copy : Job) (lease : LeaseId)
    (outcome : Outcome) : (finishBuild now db key copy lease outcome).1.jobs = db.jobs := by
  unfold finishBuild
  split
  · rfl
  split
  · dsimp only
    split <;> rfl
  · rfl

/-- A worker ends: its completion closes the row of its job. -/
theorem rowMove_ending {next next' : LeaseId} {db₀ : Db} {taken : JobKey → Bool}
    (hjobs : db.jobs = db₀.jobs) (hlease : k.copy.leaseId = some k.lease)
    (hstate : k.copy.state = .running) (result : Result)
    (htaken : ∀ j, taken j = decide (k.key = j)) (j : JobKey) :
    RowMove next next' (taken j) (db₀.jobs.get j)
      ((completeExecution now db (some k.copy) k.key k.lease result).1.jobs.get j) := by
  have hholds : k.copy.holds k.lease = true := by
    rw [Job.holds_iff, hlease, hstate]
    exact ⟨rfl, rfl⟩
  have hpair := completeExecution_holding now db k.key result hholds
  rw [← hjobs]
  refine rowMove_one hpair (fun j hj => ?_) ?_ j
  · rw [htaken, decide_eq_false (Ne.symm hj)]
  · rw [htaken, decide_eq_true rfl]
    exact rowMove_complete now result hlease hstate _

/-- **What a step can do to a job row.** -/
theorem step_row (hw : Leases w) (h : step w a = some w') :
    w.nextLease ≤ w'.nextLease ∧ ∀ key, RowMove w.nextLease w'.nextLease (takesLease w a key)
      (w.db.jobs.get key) (w'.db.jobs.get key) := by
  cases a with
  | tick _ | dispatchAbort | die _ =>
    cases h
    exact ⟨le_rfl, fun key => rowMove_same ..⟩
  | expireBuilds =>
    cases h
    exact ⟨le_rfl, rowMove_swept (expireStaleSiteBuilds_swept w.now w.db)⟩
  | recoverRuns =>
    cases h
    exact ⟨le_rfl, rowMove_swept (recoverStaleBukvarixKeywordRuns_swept w.now w.db)⟩
  | recoverCrawls =>
    cases h
    exact ⟨le_rfl, rowMove_swept (recoverLegacyCompetitorCrawls_swept w.now w.db)⟩
  | recover locked =>
    cases h
    refine ⟨le_rfl, fun key => ?_⟩
    have hpair := Db.pair_eq.mp (recover_pair w.now locked w.db key)
    show RowMove _ _ _ _ ((recoverExpiredSchedulerLeases w.now locked w.db).jobs.get key)
    rw [hpair.1]
    exact rowMove_recover w.now locked key (w.db.pair key)
  | create key id request =>
    simp only [step] at h
    split_ifs at h
    obtain ⟨db, hdb, rfl⟩ := World.commit_eq_some.mp h
    refine ⟨le_rfl, ?_⟩
    rcases createWork_ok hdb with ⟨job, hjob, hpair⟩ | ⟨hnone, job, hs, hl, -, hpair⟩
    · refine rowMove_one hpair (fun _ _ => rfl) ?_
      rw [hjob]
      exact .same job rfl
    · refine rowMove_one hpair (fun _ _ => rfl) ?_
      rw [hnone]
      exact .insert job hs hl
  | dispatchBegin limit =>
    simp only [step] at h
    split_ifs at h
    cases h
    exact ⟨le_rfl, fun key => rowMove_same ..⟩
  | dispatchCommit locked =>
    obtain ⟨slots, -, rfl⟩ := Option.map_eq_some_iff.mp h
    have hd := dispatchDueJobs_dispatched w.now slots locked w.nextLease w.db
    refine ⟨hd.next_le, fun key => ?_⟩
    rcases hd.pair key with hp | ⟨job, lease, hjob, hq, hle, hlt, hp⟩
    · exact rowMove_of_pair hp
    show RowMove _ _ _ _ (Table.get _ key)
    rw [(Db.pair_eq.mp hp).1, hjob]
    exact .lease job w.now lease rfl hq hle hlt
  | publish key lease delivery =>
    cases h
    refine ⟨?_, fun k => ?_⟩
    · cases delivery <;> exact le_rfl
    · exact rowMove_of_pair (congrFun (stepPublish_pair w key lease delivery) k)
  | claim sid key lease =>
    simp only [step, stepClaim] at h
    split at h
    · rcases claimExecution_cases w.now w.db key lease with
        hc | ⟨job, hjob, hclaim, ⟨db', s, hc, hs, hq, hpair⟩ | ⟨db', r, hc, -, hpair⟩⟩
      · rw [hc] at h
        cases h
        exact ⟨le_rfl, fun key => rowMove_same ..⟩
      · rw [hc] at h
        cases h
        obtain ⟨hstate, hlease, -⟩ := Job.claimable_iff.mp hclaim
        refine ⟨le_rfl, rowMove_one hpair (fun _ _ => rfl) ?_⟩
        rw [hjob]
        exact .start job w.now rfl hstate
      · rw [hc] at h
        cases h
        obtain ⟨hstate, hlease, -⟩ := Job.claimable_iff.mp hclaim
        refine ⟨le_rfl, rowMove_one hpair (fun _ _ => rfl) ?_⟩
        rw [hjob]
        obtain ⟨hl, ht⟩ := job.complete_closed w.now r
        exact .release job _ (.inr (.inl hstate)) (.inl hl)
          (JobState.isTerminal_not_active ht)
    · cases h
  | start sid valid =>
    obtain ⟨k, hk, h⟩ := Option.bind_eq_some_iff.mp h
    simp only [stepStart] at h
    split at h
    · cases h
      exact ⟨le_rfl, fun key => rowMove_same ..⟩
    · cases h
  | finish sid outcome =>
    obtain ⟨k, hk, h⟩ := Option.bind_eq_some_iff.mp h
    simp only [stepFinish] at h
    split at h
    · next hphase =>
      split at h
      · next hwork =>
        cases h
        have hjobs := finishBuild_jobs w.now w.db k.key k.copy k.lease outcome
        have htakes : ∀ j, takesLease w (.finish sid outcome) j
            = ((finishBuild w.now w.db k.key k.copy k.lease outcome).2.isNone
              && decide (k.key = j)) := by
          intro j
          simp only [takesLease, callOf, hk, Option.bind_some, hphase, hwork, and_self, if_true]
          split
          · next hfin => simp [hfin]
          · next hfin => simp [hfin]
        unfold stepFinishBuild
        split
        · next db result hfin =>
          refine ⟨le_rfl, fun j => ?_⟩
          rw [htakes, hfin]
          rw [hfin] at hjobs
          show RowMove _ _ _ _ (db.jobs.get j)
          rw [show db.jobs = w.db.jobs from hjobs]
          exact rowMove_same ..
        · next db hfin =>
          obtain ⟨hl, hs⟩ := hw.copy sid k (World.worker_eq_some.mp hk)
          rw [hfin] at hjobs
          refine ⟨le_rfl, rowMove_ending hjobs hl hs _ (fun j => ?_)⟩
          rw [htakes, hfin]
          rfl
      · next hwork =>
        cases h
        refine ⟨le_rfl, fun j => ?_⟩
        have htakes : takesLease w (.finish sid outcome) j = false := by
          simp [takesLease, callOf, hk, hwork]
        rw [htakes]
        exact rowMove_same ..
    · cases h
  | write sid =>
    obtain ⟨k, hk, h⟩ := Option.bind_eq_some_iff.mp h
    simp only [stepWrite] at h
    split at h
    · cases h
      exact ⟨le_rfl, fun key => rowMove_same ..⟩
    · cases h
  | complete sid =>
    obtain ⟨k, hk, h⟩ := Option.bind_eq_some_iff.mp h
    simp only [stepComplete] at h
    split at h
    · next result hphase =>
      cases h
      obtain ⟨hl, hs⟩ := hw.copy sid k (World.worker_eq_some.mp hk)
      refine ⟨le_rfl, rowMove_ending rfl hl hs _ (fun j => ?_)⟩
      simp [takesLease, callOf, hk, hphase]
    · cases h
  | pause key =>
    obtain ⟨job, hjob, h⟩ := Option.bind_eq_some_iff.mp h
    obtain ⟨db, hdb, rfl⟩ := World.commit_eq_some.mp h
    obtain ⟨hs, hpair⟩ := pauseJob_ok hdb
    refine ⟨le_rfl, rowMove_one hpair (fun _ _ => rfl) ?_⟩
    rw [hjob]
    exact .release job _ (.inr (.inr (by rw [hs]; rfl))) (.inr rfl) rfl
  | resume key =>
    obtain ⟨job, hjob, h⟩ := Option.bind_eq_some_iff.mp h
    obtain ⟨db, hdb, rfl⟩ := World.commit_eq_some.mp h
    obtain ⟨hs, hpair⟩ := resumeJob_ok hdb
    refine ⟨le_rfl, rowMove_one hpair (fun _ _ => rfl) ?_⟩
    rw [hjob]
    exact .release job _ (.inr (.inr (by rw [hs]; rfl))) (.inr rfl) rfl
  | cancel key =>
    obtain ⟨job, hjob, h⟩ := Option.bind_eq_some_iff.mp h
    obtain ⟨db, hdb, rfl⟩ := World.commit_eq_some.mp h
    obtain ⟨hs, -, row, -, -, hpair⟩ := cancelJob_ok hdb
    refine ⟨le_rfl, rowMove_one hpair (fun _ _ => rfl) ?_⟩
    rw [hjob]
    exact rowMove_cancel w.now hs
  | crawlRead sid source =>
    simp only [step] at h
    split_ifs at h
    obtain ⟨s, -, rfl⟩ := Option.map_eq_some_iff.mp h
    exact ⟨le_rfl, fun key => rowMove_same ..⟩
  | crawlCancel sid =>
    simp only [step] at h
    split at h
    · next key copy hsession =>
      obtain ⟨db, hdb, rfl⟩ := World.commit_eq_some.mp h
      refine ⟨le_rfl, ?_⟩
      rcases cancelDomainCrawl_ok hdb with ⟨job, hjob, hcancel⟩ | ⟨-, row, s', -, -, -, rfl⟩
      · obtain ⟨hs, -, row, -, -, hpair⟩ := cancelJob_ok hcancel
        refine rowMove_one hpair (fun _ _ => rfl) ?_
        rw [hjob]
        exact rowMove_cancel w.now hs
      · exact fun key => rowMove_same ..
    · cases h
  | retry source id =>
    obtain ⟨db, hdb, rfl⟩ := World.commit_eq_some.mp h
    exact ⟨le_rfl, rowMove_retry hdb (fun _ _ => rfl) (.inl ⟨rfl, rfl⟩)⟩
  | retryRead sid source =>
    simp only [step] at h
    split_ifs at h
    obtain ⟨job, -, h⟩ := Option.bind_eq_some_iff.mp h
    split at h
    · cases h
      exact ⟨le_rfl, fun key => rowMove_same ..⟩
    · cases h
  | retryCommit sid id =>
    simp only [step] at h
    split at h
    · next key copy hsession =>
      obtain ⟨db, hdb, rfl⟩ := World.commit_eq_some.mp h
      obtain ⟨hkey, hcopy⟩ := hw.retry_copy sid key copy hsession
      refine ⟨le_rfl, rowMove_retry hdb (fun j hj => ?_) (.inr ⟨copy, rfl, hcopy, ?_⟩)⟩
      · simp only [takesLease, hsession, Bool.and_eq_false_iff, decide_eq_false_iff_not]
        by_contra hc
        simp only [not_or, not_not] at hc
        exact hj (Prod.ext hc.2 hc.1.symm)
      · simp [takesLease, hsession]
    · cases h

/-! ## Preservation -/

theorem Leases.step (hw : Leases w) (h : step w a = some w') : Leases w' := by
  obtain ⟨hnext, hrow⟩ := step_row hw h
  obtain ⟨hother, hmove⟩ := step_session h
  -- the worker sessions of the new state: one that was there, or the one just claimed
  have hworker : ∀ s k, w'.sessions s = some (.worker k) →
      (∃ k₀ phase, w.sessions s = some (.worker k₀) ∧ k = { k₀ with phase := phase }) ∨
      (a.session = some s ∧ ∃ job now, w.db.jobs.get k.key = some job ∧
        job.state = .leased ∧ job.leaseId = some k.lease ∧ k.copy = job.start now ∧
        w'.db.jobs.get k.key = some (job.start now)) := by
    intro s k hk
    rcases step_worker h hk with ⟨k₀, phase, hk₀, rfl, -⟩ | ⟨hs, -, hjob⟩
    · exact .inl ⟨k₀, phase, hk₀, rfl⟩
    · exact .inr ⟨hs, hjob⟩
  refine ⟨?_, ?_, ?_, ?_, ?_, ?_, ?_⟩
  · intro key job l hjob hl
    exact (hrow key).lease_lt hnext (fun j l hj => hw.row_lt key j l hj) hjob hl
  · intro s k hk
    rcases hworker s k hk with ⟨k₀, phase, hk₀, rfl⟩ | ⟨-, job, now, hjob, -, hl, -, -⟩
    · exact (hw.worker_lt s k₀ hk₀).trans_le hnext
    · exact (hw.row_lt k.key job k.lease hjob hl).trans_le hnext
  · intro s k hk
    rcases hworker s k hk with ⟨k₀, phase, hk₀, rfl⟩ | ⟨-, job, now, -, -, -, -, hnew⟩
    · exact (hrow k₀.key).isSome (hw.worker_row s k₀ hk₀)
    · rw [hnew]
      rfl
  · intro s k hk
    rcases hworker s k hk with ⟨k₀, phase, hk₀, rfl⟩ | ⟨-, job, now, -, -, hl, hcopy, -⟩
    · exact hw.copy s k₀ hk₀
    · rw [hcopy]
      exact ⟨hl, rfl⟩
  · intro s k job hk hjob hstate hl
    rcases hworker s k hk with ⟨k₀, phase, hk₀, rfl⟩ | ⟨-, j, now, -, -, -, -, hnew⟩
    · rcases (hrow k₀.key).leased hjob hstate hl with hold | hle
      · exact hw.leased_free s k₀ job hk₀ hold hstate hl
      · exact absurd (hw.worker_lt s k₀ hk₀) (Nat.not_lt.mpr hle)
    · rw [hnew] at hjob
      rw [← Option.some.inj hjob] at hstate
      cases hstate
  · intro s s' k k' hk hk' hkey hlease
    rcases hworker s k hk with ⟨k₀, phase, hk₀, rfl⟩ | ⟨hs, job, now, hjob, hst, hl, -, -⟩
    · rcases hworker s' k' hk' with
        ⟨k₁, phase', hk₁, rfl⟩ | ⟨hs', job, now, hjob, hst, hl, -, -⟩
      · exact hw.unique s s' k₀ k₁ hk₀ hk₁ hkey hlease
      · -- the lease of the job just claimed was on a leased row, so no worker had it
        simp only at hkey hlease
        rw [← hkey] at hjob
        rw [← hlease] at hl
        exact absurd hl (hw.leased_free s k₀ job hk₀ hjob hst)
    · rcases hworker s' k' hk' with
        ⟨k₁, phase', hk₁, rfl⟩ | ⟨hs', job', now', -, -, -, -, -⟩
      · simp only at hkey hlease
        rw [hkey] at hjob
        rw [hlease] at hl
        exact absurd hl (hw.leased_free s' k₁ job hk₁ hjob hst)
      · exact Option.some.inj (hs.symm.trans hs')
  · intro s key job hk
    by_cases hs : a.session = some s
    · have hown := hmove s hs
      rw [hk] at hown
      generalize hold : w.sessions s = old at hown
      cases hown with
      | same => exact hw.retry_copy s key job hold
      | loadedJob source job hstate => exact ⟨rfl, hstate⟩
    · rw [hother s hs] at hk
      exact hw.retry_copy s key job hk

/-- **A worker that survives a step holds its job's row afterwards exactly when it did before
and the step did not take its lease.** -/
theorem step_holds (hw : Leases w) (h : MegaPanel.Scheduler.step w a = some w')
    (hk : w.sessions sid = some (.worker k)) :
    w'.holds k.key k.lease = (w.holds k.key k.lease && !takesLease w a k.key) :=
  ((step_row hw h).2 k.key).holds (hw.worker_lt sid k hk)
    (fun job hjob hs => hw.leased_free sid k job hk hjob hs)

end MegaPanel.Scheduler
