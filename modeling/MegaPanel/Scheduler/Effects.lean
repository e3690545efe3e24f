import MegaPanel.Scheduler.System

set_option autoImplicit false

/-! # What the operations do to one job and its source

A job and its source live under one key (`Db.pair`). Every operation of the scheduler
changes at most one pair, or sweeps over the pairs one by one. One lemma per operation says
which pair it changes, from what and into what; the invariants of the following modules are
proved from these lemmas and never unfold an operation again.
-/

namespace MegaPanel.Scheduler

open MegaPanel.Lib

/-- The two rows under a key. -/
def Db.pair (db : Db) (key : JobKey) : Option Job × Option Source :=
  (db.jobs.get key, db.sources.get key)

variable {db : Db} {key : JobKey}

theorem Db.pair_eq {p : Option Job × Option Source} :
    db.pair key = p ↔ db.jobs.get key = p.1 ∧ db.sources.get key = p.2 := Prod.ext_iff

/-! ## Writes -/

@[simp] theorem pair_append (db : Db) (key : JobKey) (job : Job) (event : EventType)
    (code : Option String) : (appendSchedulerAttempt db key job event code).pair = db.pair := rfl

@[simp] theorem pair_expire (db : Db) (key : JobKey) (job : Job) :
    (expirePendingWakeups db key job).pair = db.pair := by
  unfold expirePendingWakeups
  split
  · rfl
  split
  · split <;> rfl
  · rfl

@[simp] theorem expire_sources (db : Db) (key : JobKey) (job : Job) :
    (expirePendingWakeups db key job).sources = db.sources := by
  unfold expirePendingWakeups
  split
  · rfl
  split
  · split <;> rfl
  · rfl

@[simp] theorem expire_jobs (db : Db) (key : JobKey) (job : Job) :
    (expirePendingWakeups db key job).jobs = db.jobs := by
  unfold expirePendingWakeups
  split
  · rfl
  split
  · split <;> rfl
  · rfl

theorem pair_setJob (db : Db) (key k : JobKey) (job : Job) :
    Db.pair { db with jobs := db.jobs.set key job } k
      = if k = key then (some job, db.sources.get key) else db.pair k := by
  by_cases h : k = key
  · subst h
    simp [Db.pair]
  · simp [Db.pair, h, Table.get_set_ne]

theorem pair_setSource (db : Db) (key k : JobKey) (source : Source) :
    Db.pair { db with sources := db.sources.set key source } k
      = if k = key then (db.jobs.get key, some source) else db.pair k := by
  by_cases h : k = key
  · subst h
    simp [Db.pair]
  · simp [Db.pair, h, Table.get_set_ne]

theorem pair_setBoth (db : Db) (key k : JobKey) (job : Job) (source : Source) :
    Db.pair { db with jobs := db.jobs.set key job, sources := db.sources.set key source } k
      = if k = key then (some job, some source) else db.pair k := by
  by_cases h : k = key
  · subst h
    simp [Db.pair]
  · simp [Db.pair, h, Table.get_set_ne]

theorem setSource_get (sources : Table JobKey Source) (key k : JobKey) (source : Option Source)
    (h : source = none → sources.get key = none) :
    (setSource sources key source).get k = if k = key then source else sources.get k := by
  cases source with
  | none =>
    by_cases hk : k = key
    · subst hk
      simp [setSource, h rfl]
    · simp [setSource, hk]
  | some s => exact Table.get_set sources k key s

/-! ## Columns that never change -/

variable {db' : Db} {job : Job} {s : Source}

/-- The columns of a job that bind it to its source. -/
def Job.identity (job : Job) :
    TenantId × Option ProjectId × Option SiteId × Option String × Option Nat :=
  (job.tenantId, job.projectId, job.siteId, job.sourceHash, job.sourceVersion)

/-- The frozen columns of a source. -/
def Source.identity (s : Source) :
    TenantId × Option ProjectId × Option SiteId × Option String × Option String × Nat :=
  (s.tenantId, s.projectId, s.siteId, s.frozen, s.frozenHash, s.snapshotVersion)

/-- The frozen identity check reads the identity columns only. -/
theorem sourceStatus_error_congr {job' : Job} {s' : Source} (hs : db.sources.get key = some s)
    (hs' : db'.sources.get key = some s') (hjob : job.identity = job'.identity)
    (hsource : s.identity = s'.identity) :
    (sourceStatus db key job).2 = (sourceStatus db' key job').2 := by
  simp only [Job.identity, Prod.mk.injEq] at hjob
  simp only [Source.identity, Prod.mk.injEq] at hsource
  obtain ⟨h1, h2, h3, h4, h5⟩ := hjob
  obtain ⟨g1, g2, g3, g4, g5, g6⟩ := hsource
  obtain ⟨work, source⟩ := key
  cases work with
  | siteBuild =>
    simp only [sourceStatus, hs, hs', h1, h2, h3, h4, h5, g1, g2, g3, g4, g5, g6]
    split
    · rfl
    · split <;> rfl
  | bukvarixKeyword =>
    simp only [sourceStatus, hs, hs', h1, h2, h4, g1, g2, g4, g5]
    split <;> rfl
  | competitorCrawl =>
    have hhash : competitorCrawlSourceHash s = competitorCrawlSourceHash s' := by
      rw [competitorCrawlSourceHash, competitorCrawlSourceHash, g4]
    simp only [sourceStatus, hs, hs', h1, h2, h4, g1, g2, hhash]
    split <;> rfl

theorem sourceStatus_status (job : Job) (hs : db.sources.get key = some s)
    (h : (sourceStatus db key job).2 = none) : (sourceStatus db key job).1 = some s.status := by
  obtain ⟨work, source⟩ := key
  cases work with
  | siteBuild =>
    simp only [sourceStatus, hs] at h ⊢
    split at h
    · cases h
    split at h
    · cases h
    · next hne => rw [if_neg hne]
  | bukvarixKeyword =>
    simp only [sourceStatus, hs] at h ⊢
    split at h
    · cases h
    · next hne => rw [if_neg hne]
  | competitorCrawl =>
    simp only [sourceStatus, hs] at h ⊢
    split_ifs at h
    next hne => rw [if_neg hne]

/-! ## Completing and claiming -/

variable {lease : LeaseId} {now : Time}

/-- A completion through a copy that carries the lease always writes. -/
theorem completeExecution_holding (now : Time) (db : Db) (key : JobKey) {copy : Job}
    (result : Result) (hcopy : copy.holds lease = true) (k : JobKey) :
    (completeExecution now db (some copy) key lease result).1.pair k
      = if k = key then
          ((db.jobs.get key).map (Job.flush copy (copy.complete now result).1),
            db.sources.get key)
        else db.pair k := by
  unfold completeExecution
  cases hrow : db.jobs.get key with
  | none =>
    by_cases hk : k = key
    · subst hk
      simp [Db.pair, hrow]
    · simp [hk]
  | some row =>
    simp only [Option.getD_some, hcopy, if_true, pair_append, pair_setJob, Option.map_some]

theorem Job.complete_closed (now : Time) (result : Result) (job : Job) :
    (job.complete now result).1.leaseId = none
      ∧ (job.complete now result).1.state.isTerminal = true := by
  unfold Job.complete
  split
  · exact ⟨rfl, rfl⟩
  · split <;> exact ⟨rfl, rfl⟩

theorem Job.complete_identity (now : Time) (result : Result) (job : Job) :
    (job.complete now result).1.identity = job.identity := by
  unfold Job.complete
  split
  · rfl
  · split <;> rfl

/-- A flush keeps the identity columns unless the session changed them. -/
theorem Job.flush_identity {loaded current : Job} (stored : Job)
    (h : current.identity = loaded.identity) :
    (Job.flush loaded current stored).identity = stored.identity := by
  simp only [Job.identity, Prod.mk.injEq] at h
  obtain ⟨h1, h2, h3, h4, h5⟩ := h
  simp [Job.identity, Job.flush, h1, h2, h3, h4, h5]

/-- What a stale worker writes: the job is closed, whatever its row said. -/
theorem Job.flush_complete {copy : Job} (now : Time) (result : Result)
    (hlease : copy.leaseId = some lease) (hstate : copy.state = .running) (row : Job) :
    (Job.flush copy (copy.complete now result).1 row).leaseId = none
      ∧ (Job.flush copy (copy.complete now result).1 row).state
          = (copy.complete now result).1.state := by
  obtain ⟨hl, ht⟩ := copy.complete_closed now result
  refine ⟨?_, ?_⟩
  · show writeCol copy.leaseId (copy.complete now result).1.leaseId row.leaseId = none
    rw [hl, writeCol_dirty (by rw [hlease]; simp)]
  · refine writeCol_dirty ?_ _
    intro h
    rw [h, hstate] at ht
    cases ht

theorem Job.claimable_iff :
    job.claimable now lease = true ↔
      job.state = .leased ∧ job.leaseId = some lease ∧ job.leaseExpiresAt.any (now < ·) = true := by
  simp [Job.claimable, and_assoc]

/-- A claim does nothing, starts the job, or closes a job whose source cannot be started. -/
theorem claimExecution_cases (now : Time) (db : Db) (key : JobKey) (lease : LeaseId) :
    claimExecution now db key lease = (db, none) ∨
    ∃ job, db.jobs.get key = some job ∧ job.claimable now lease = true ∧
      ((∃ db' s, claimExecution now db key lease = (db', some (job.start now)) ∧
          db.sources.get key = some s ∧ s.status = .queued ∧
          ∀ k, db'.pair k = if k = key then (some (job.start now), some s) else db.pair k) ∨
       (∃ db' result, claimExecution now db key lease = (db', none) ∧
          ((sourceStatus db key job).2 = none →
            (sourceStatus db key job).1 ≠ some .queued) ∧
          ∀ k, db'.pair k = if k = key then (some (job.complete now result).1, db.sources.get key)
            else db.pair k)) := by
  unfold claimExecution
  cases hjob : db.jobs.get key with
  | none => exact .inl rfl
  | some job =>
    by_cases hc : job.claimable now lease = true
    · refine .inr ⟨job, rfl, hc, ?_⟩
      simp only [hc, if_true]
      obtain ⟨hstate, hlease, -⟩ := Job.claimable_iff.mp hc
      split
      · next hss =>
        refine .inl ?_
        cases hs : db.sources.get key with
        | none => simp [sourceStatus, hs] at hss
        | some s =>
          have hstatus := sourceStatus_status job hs (by rw [hss])
          rw [hss] at hstatus
          exact ⟨_, s, rfl, rfl, (Option.some.inj hstatus).symm, fun k => by
            rw [pair_append, pair_setJob, hs]⟩
      · next status error hne hss =>
        refine .inr ⟨_, unstartableResult status error, rfl, ?_, fun k => ?_⟩
        · intro he hq
          rw [hss] at he hq
          exact hne hq he
        · have hholds : job.holds lease = true := by
            rw [Job.holds_iff, hstate]
            exact ⟨hlease, rfl⟩
          rw [completeExecution_holding _ _ _ _ hholds, hjob]
          simp
    · exact .inl (by simp [hc])

/-! ## Starting -/

theorem startSource_some (now : Time) (work : WorkType) (valid : Bool) (s : Source) :
    ∃ s', (startSource now work valid (some s)).1 = some s' ∧ s'.identity = s.identity ∧
      ((s.status ≠ .queued ∧ s' = s ∧
          (startSource now work valid (some s)).2
            = some { status := .source s.status, errorCode := none }) ∨
       (s.status = .queued ∧ s'.status.isOpen = false) ∨
       (s.status = .queued ∧ s'.status = .running ∧
          (startSource now work valid (some s)).2 = none)) := by
  unfold startSource
  by_cases hq : s.status = .queued
  · simp only [hq, ne_eq, not_true_eq_false, if_false]
    cases hinvalid : s.invalid work valid with
    | some code => exact ⟨_, rfl, rfl, .inr (.inl ⟨trivial, rfl⟩)⟩
    | none => cases work <;> exact ⟨_, rfl, rfl, .inr (.inr ⟨trivial, rfl, rfl⟩)⟩
  · simp only [hq, ne_eq, not_false_eq_true, if_true]
    exact ⟨s, rfl, rfl, .inl ⟨trivial, rfl, trivial⟩⟩

/-! ## Publishing -/

theorem publishWakeup_pair (now : Time) (db : Db) (key : JobKey) (lease : LeaseId)
    (sent : Bool) : (publishWakeup now db key lease sent).1.pair = db.pair := by
  unfold publishWakeup
  split
  · rfl
  split
  · rfl
  dsimp only
  split
  · split <;> rfl
  · rfl

theorem stepPublish_pair (w : World) (key : JobKey) (lease : LeaseId) (delivery : Delivery) :
    (stepPublish w key lease delivery).db.pair = w.db.pair := by
  cases delivery with
  | sent | refused => exact publishWakeup_pair ..
  | crashed => rfl

/-! ## Recovery -/

variable {work : WorkType}

/-- What the recovery sweep makes of a pair. -/
def recoverView (now : Time) (locked : List JobKey) (key : JobKey)
    (p : Option Job × Option Source) : Option Job × Option Source :=
  match p.1 with
  | none => p
  | some job =>
    if job.leaseExpired now && !decide (key ∈ locked) then
      (some (recoverPair now key.1 job p.2).1, (recoverPair now key.1 job p.2).2)
    else p

theorem recoverPair_missing (now : Time) (work : WorkType) (job : Job) :
    (recoverPair now work job none).2 = none := by
  simp only [recoverPair]
  split
  · rfl
  split
  · rfl
  · split <;> rfl

theorem recoverPair_identity (now : Time) (work : WorkType) (job : Job) (source : Option Source) :
    (recoverPair now work job source).1.identity = job.identity
      ∧ (recoverPair now work job source).2.map Source.identity = source.map Source.identity := by
  cases source with
  | none =>
    rw [recoverPair_missing]
    refine ⟨?_, rfl⟩
    simp only [recoverPair]
    split
    · rfl
    split
    · rfl
    · split <;> rfl
  | some s =>
    simp only [recoverPair, Option.map_some]
    split
    · refine ⟨rfl, ?_⟩
      show some (Source.identity _) = some s.identity
      split <;> rfl
    · split
      · exact ⟨rfl, rfl⟩
      · split
        · exact ⟨rfl, rfl⟩
        · refine ⟨rfl, ?_⟩
          show some (Source.identity _) = some s.identity
          split <;> rfl

/-- Recovery takes the lease, and leaves the job queued or closed. -/
theorem recoverPair_job (now : Time) (work : WorkType) (job : Job) (source : Option Source) :
    (recoverPair now work job source).1.leaseId = none
      ∧ ((recoverPair now work job source).1.state = .queued
        ∨ (recoverPair now work job source).1.state.isTerminal = true) := by
  simp only [recoverPair]
  split
  · exact ⟨rfl, .inr rfl⟩
  split
  · exact ⟨rfl, .inr rfl⟩
  split
  · exact ⟨rfl, .inl rfl⟩
  · exact ⟨rfl, .inr rfl⟩

/-- A job recovery queues again keeps its queued source; a source of a job it closes is
closed too, a build with a cancellation request excepted. -/
theorem recoverPair_source (now : Time) (s : Source)
    (hcancel : work = .siteBuild → job.state ≠ .cancelRequested) :
    ∃ s', (recoverPair now work job (some s)).2 = some s'
      ∧ ((recoverPair now work job (some s)).1.state = .queued ∧ s'.status = .queued
        ∨ s'.status.isOpen = false) := by
  simp only [recoverPair, Option.any_some, Option.map_some]
  split
  · next h =>
    refine ⟨_, rfl, .inr ?_⟩
    by_cases hopen : s.status.isOpen = true
    · have hwork : work ≠ .siteBuild := by
        intro hw
        rcases h with h | h
        · exact hcancel hw h
        · rw [of_decide_eq_true h] at hopen
          cases hopen
      rw [if_pos (by simp [hopen, hwork])]
      rfl
    · simp [hopen]
  · split
    · next h =>
      refine ⟨s, rfl, .inr ?_⟩
      cases hs : s.status <;> simp [hs, SourceStatus.isSuccess] at h ⊢ <;> rfl
    · split
      · next h => exact ⟨s, rfl, .inl ⟨rfl, of_decide_eq_true h.2⟩⟩
      · refine ⟨_, rfl, .inr ?_⟩
        by_cases hopen : s.status.isOpen = true
        · rw [if_pos hopen]
          rfl
        · simp [hopen]

theorem recoverJob_pair (now : Time) (locked : List JobKey) (db : Db) (key k : JobKey) :
    (recoverJob now locked db key).pair k
      = if k = key then recoverView now locked key (db.pair key) else db.pair k := by
  unfold recoverJob recoverView
  cases hjob : db.jobs.get key with
  | none =>
    simp only [Db.pair, hjob]
    split
    · next h => rw [h, hjob]
    · rfl
  | some job =>
    simp only [Db.pair, hjob]
    by_cases hc : (job.leaseExpired now && !decide (key ∈ locked)) = true
    · simp only [hc, if_true]
      have hmissing : (recoverPair now key.1 job (db.sources.get key)).2 = none →
          db.sources.get key = none := by
        intro h
        have hid := (recoverPair_identity now key.1 job (db.sources.get key)).2
        rw [h] at hid
        exact Option.map_eq_none_iff.mp hid.symm
      show (_, (setSource _ _ _).get k) = _
      rw [setSource_get _ _ _ _ (by simpa using hmissing)]
      by_cases hk : k = key
      · subst hk
        simp [appendSchedulerAttempt]
      · simp [appendSchedulerAttempt, hk, Table.get_set_ne]
    · rw [if_neg hc, if_neg hc]
      split
      · next h => rw [h, hjob]
      · rfl

/-- The recovery sweep works pair by pair. -/
theorem recover_pair (now : Time) (locked : List JobKey) (db : Db) (k : JobKey) :
    (recoverExpiredSchedulerLeases now locked db).pair k
      = recoverView now locked k (db.pair k) := by
  have hother : ∀ db key j, j ≠ key → (recoverJob now locked db key).pair j = db.pair j := by
    intro db key j hj
    rw [recoverJob_pair, if_neg hj]
  by_cases hk : k ∈ db.jobs.keys
  · refine foldl_pointwise Db.pair (fun db key => ?_) hother db.jobs.nodup db hk
    rw [recoverJob_pair, if_pos rfl]
  have hnone : db.jobs.get k = none := by
    rw [db.jobs.mem_keys, Bool.not_eq_true, Option.isSome_eq_false_iff,
      Option.isNone_iff_eq_none] at hk
    exact hk
  have hview : recoverView now locked k (db.pair k) = db.pair k := by
    simp [recoverView, Db.pair, hnone]
  rw [hview]
  exact foldl_unvisited Db.pair hother hk db

/-! ## Legacy sweeps -/

variable {amend : Source → Source}

/-- What a legacy sweep leaves alone: every job, every source that has a job, and the
identity of every source. -/
structure LegacySwept (db db' : Db) : Prop where
  jobs : db'.jobs = db.jobs
  managed : ∀ k, (db.jobs.get k).isSome → db'.sources.get k = db.sources.get k
  identity : ∀ k, (db'.sources.get k).map Source.identity
    = (db.sources.get k).map Source.identity

theorem sweepLegacySource_swept (work : WorkType) (stale : Source → Bool)
    (hamend : ∀ s, (amend s).identity = s.identity) (db : Db) (key : JobKey) :
    LegacySwept db (sweepLegacySource work stale amend db key) := by
  unfold sweepLegacySource
  cases hs : db.sources.get key with
  | none => exact ⟨rfl, fun _ _ => rfl, fun _ => rfl⟩
  | some s =>
    dsimp only
    split
    · next hc =>
      simp only [Bool.and_eq_true, Option.isNone_iff_eq_none] at hc
      refine ⟨rfl, fun k hk => ?_, fun k => ?_⟩
      · have hne : k ≠ key := by
          rintro rfl
          rw [hc.1.1.2] at hk
          cases hk
        exact Table.get_set_ne _ hne _
      · by_cases hk : k = key
        · subst hk
          simp [hs, hamend]
        · rw [Table.get_set_ne _ hk]
    · exact ⟨rfl, fun _ _ => rfl, fun _ => rfl⟩

theorem sweepLegacy_swept {work : WorkType} {stale : Source → Bool} {amend : Source → Source}
    (hamend : ∀ s, (amend s).identity = s.identity) (db : Db) :
    LegacySwept db (sweepLegacy work stale amend db) := by
  unfold sweepLegacy
  generalize db.sources.keys = keys
  induction keys generalizing db with
  | nil => exact ⟨rfl, fun _ _ => rfl, fun _ => rfl⟩
  | cons key keys ih =>
    rw [List.foldl_cons]
    have hone := sweepLegacySource_swept work stale hamend db key
    have hrest := ih (sweepLegacySource work stale amend db key)
    refine ⟨hrest.jobs.trans hone.jobs, fun k hk => ?_, fun k => ?_⟩
    · exact (hrest.managed k (by rw [hone.jobs]; exact hk)).trans (hone.managed k hk)
    · exact (hrest.identity k).trans (hone.identity k)

theorem expireStaleSiteBuilds_swept (now : Time) (db : Db) :
    LegacySwept db (expireStaleSiteBuilds now db) := by
  apply sweepLegacy_swept
  exact fun _ => rfl

theorem recoverStaleBukvarixKeywordRuns_swept (now : Time) (db : Db) :
    LegacySwept db (recoverStaleBukvarixKeywordRuns now db) := by
  apply sweepLegacy_swept
  exact fun _ => rfl

theorem recoverLegacyCompetitorCrawls_swept (now : Time) (db : Db) :
    LegacySwept db (recoverLegacyCompetitorCrawls now db) := by
  apply sweepLegacy_swept
  exact fun _ => rfl

/-- The legacy sweeps amend running sources only. -/
theorem sweepLegacy_stopped {stale : Source → Bool} {k : JobKey} (hs : db.sources.get k = some s)
    (hstopped : s.status ≠ .running) :
    (sweepLegacy work stale amend db).sources.get k = some s := by
  unfold sweepLegacy
  generalize db.sources.keys = keys
  induction keys generalizing db with
  | nil => exact hs
  | cons key keys ih =>
    rw [List.foldl_cons]
    refine ih ?_
    unfold sweepLegacySource
    split
    · exact hs
    · next s₀ hs₀ =>
      split
      · next hc =>
        by_cases hk : k = key
        · subst hk
          rw [hs] at hs₀
          cases hs₀
          simp [hstopped] at hc
        · rw [Table.get_set_ne _ hk]
          exact hs
      · exact hs

/-! ## Dispatch -/

variable {project : ProjectKey} {d : Dispatch}

theorem firstDue_mem {rows : List (JobKey × Job)} {r : JobKey × Job}
    (h : firstDue now rows = some r) : r ∈ rows := by
  have hrun : ∀ f : Option (JobKey × Job) → JobKey × Job → Option (JobKey × Job),
      (∀ best x, f best x = some r → best = some r ∨ x = r) → ∀ (rows : List (JobKey × Job))
        (best : Option (JobKey × Job)), rows.foldl f best = some r → best = some r ∨ r ∈ rows := by
    intro f hf rows
    induction rows with
    | nil => exact fun best h => .inl h
    | cons x rows ih =>
      intro best h
      rcases ih _ h with hbest | hmem
      · rcases hf best x hbest with hold | rfl
        · exact .inl hold
        · exact .inr (List.mem_cons_self ..)
      · exact .inr (List.mem_cons_of_mem _ hmem)
  refine (hrun _ (fun best x hx => ?_) rows none h).resolve_left (by simp)
  cases best with
  | none => exact .inr (Option.some.inj hx)
  | some b =>
    dsimp only at hx
    split at hx
    · exact .inr (Option.some.inj hx)
    · exact .inl hx

theorem dueJobOf_queued {locked : List JobKey}
    (h : dueJobOf now locked db project = some (key, job)) :
    db.jobs.get key = some job ∧ job.state = .queued := by
  have hmem := firstDue_mem h
  rw [List.mem_filter] at hmem
  refine ⟨Table.mem_rows.mp hmem.1, ?_⟩
  have hdue := hmem.2
  simp only [Job.due, Bool.and_eq_true, decide_eq_true_eq] at hdue
  exact hdue.1.1.1.1

/-- What the dispatch loop has done so far: every pair is as it was, or its job was queued
and carries a lease that did not exist before. -/
structure Dispatched (now : Time) (next : LeaseId) (db : Db) (d : Dispatch) : Prop where
  next_le : next ≤ d.nextLease
  pair : ∀ k, d.db.pair k = db.pair k ∨
    ∃ job lease, db.jobs.get k = some job ∧ job.state = .queued ∧ next ≤ lease ∧
      lease < d.nextLease ∧ d.db.pair k = (some (job.lease now lease), db.sources.get k)

theorem Dispatched.take {next : LeaseId} (hd : Dispatched now next db d)
    (hjob : d.db.jobs.get key = some job) (hqueued : job.state = .queued) :
    Dispatched now next db (d.take now project key job) := by
  have hpair : ∀ k, (d.take now project key job).db.pair k
      = if k = key then (some (job.lease now d.nextLease), d.db.sources.get key)
        else d.db.pair k := fun k => pair_setJob d.db key k _
  refine ⟨hd.next_le.trans (Nat.le_succ _), fun k => ?_⟩
  rw [hpair]
  by_cases hk : k = key
  · subst hk
    rw [if_pos rfl]
    rcases hd.pair k with h | ⟨j, lease, _, _, _, _, h⟩
    · obtain ⟨hj, hs⟩ := Db.pair_eq.mp h
      exact .inr ⟨job, d.nextLease, hj.symm.trans hjob, hqueued, hd.next_le, Nat.lt_succ_self _,
        by rw [hs]; rfl⟩
    · -- a job leased by this dispatch is not queued any more
      obtain ⟨hj, -⟩ := Db.pair_eq.mp h
      rw [hjob] at hj
      rw [Option.some.inj hj] at hqueued
      cases hqueued
  · rw [if_neg hk]
    rcases hd.pair k with h | ⟨j, lease, h1, h2, h3, h4, h5⟩
    · exact .inl h
    · exact .inr ⟨j, lease, h1, h2, h3, h4.trans (Nat.lt_succ_self _), h5⟩

theorem Dispatched.loop {slots : Nat} {locked : List JobKey} {next : LeaseId}
    (projects : List ProjectKey) (hd : Dispatched now next db d) :
    Dispatched now next db (dispatchLoop now slots locked projects d) := by
  induction projects generalizing d with
  | nil => exact hd
  | cons project rest ih =>
    unfold dispatchLoop
    split
    · exact hd
    split
    · exact ih hd
    split
    · exact ih hd
    · next key job hdue =>
      obtain ⟨hjob, hqueued⟩ := dueJobOf_queued hdue
      exact ih (hd.take hjob hqueued)

theorem dispatchDueJobs_dispatched (now : Time) (slots : Nat) (locked : List JobKey)
    (next : LeaseId) (db : Db) :
    Dispatched now next db (dispatchDueJobs now slots locked next db) :=
  Dispatched.loop _ ⟨le_rfl, fun _ => .inl rfl⟩

/-! ## Operator transitions -/

variable {loaded : Source}

theorem pauseJob_ok (h : pauseJob now db key job = .ok db') :
    job.state = .queued ∧
      ∀ k, db'.pair k = if k = key then (some (job.pause now), db.sources.get key)
        else db.pair k := by
  unfold pauseJob at h
  split_ifs at h with hstate
  cases h
  exact ⟨not_not.mp hstate, fun k => pair_setJob db key k _⟩

theorem resumeJob_ok (h : resumeJob now db key job = .ok db') :
    job.state = .paused ∧
      ∀ k, db'.pair k = if k = key then (some (job.resume now), db.sources.get key)
        else db.pair k := by
  unfold resumeJob at h
  split_ifs at h with hstate
  cases h
  exact ⟨not_not.mp hstate, fun k => pair_setJob db key k _⟩

theorem cancelJob_ok {copy : Option Source} (h : cancelJob now db key job copy amend = .ok db') :
    job.state ≠ .cancelRequested ∧ (job.state = .running → key.1 = .competitorCrawl) ∧
    ∃ row, db.sources.get key = some row ∧ (copy.getD row).status.isOpen = true ∧
      ∀ k, db'.pair k = if k = key then
          (some (job.cancel now), some (Source.flush (copy.getD row)
            (amend ((copy.getD row).cancel now key.1 (job.state = .running))) row))
        else db.pair k := by
  unfold cancelJob at h
  split at h
  · cases h
  · next hstate =>
    split at h
    · cases h
    · next hrunning =>
      cases hrow : db.sources.get key with
      | none =>
        rw [hrow] at h
        cases h
      | some row =>
        rw [hrow] at h
        simp only at h
        split at h
        · cases h
        · next hopen =>
          cases h
          refine ⟨?_, ?_, row, rfl, by simpa using hopen, fun k => ?_⟩
          · intro hc
            exact hstate (by simp [hc])
          · intro hr
            by_contra hwork
            exact hrunning ⟨hr, hwork⟩
          · rw [pair_append]
            have hdb : ∀ b : Bool,
                Db.pair { (if b then db else expirePendingWakeups db key job) with
                  jobs := (if b then db else expirePendingWakeups db key job).jobs.set key
                    (job.cancel now)
                  sources := (if b then db else expirePendingWakeups db key job).sources.set key
                    (Source.flush (copy.getD row)
                      (amend ((copy.getD row).cancel now key.1 (job.state = .running))) row) } k
                = if k = key then (some (job.cancel now), some (Source.flush (copy.getD row)
                    (amend ((copy.getD row).cancel now key.1 (job.state = .running))) row))
                  else db.pair k := by
              intro b
              cases b with
              | true => exact pair_setBoth db key k _ _
              | false =>
                rw [if_neg Bool.false_ne_true, pair_setBoth, pair_expire]
            exact hdb _

theorem Job.cancel_identity (now : Time) (job : Job) :
    (job.cancel now).identity = job.identity := by
  unfold Job.cancel
  split <;> rfl

theorem Source.cancel_identity (now : Time) (work : WorkType) (running : Bool) (s : Source) :
    (s.cancel now work running).identity = s.identity := by
  unfold Source.cancel
  split
  · rfl
  · cases work <;> rfl

theorem Source.flush_identity {current : Source} (stored : Source)
    (h : current.identity = loaded.identity) :
    (Source.flush loaded current stored).identity = stored.identity := by
  simp only [Source.identity, Prod.mk.injEq] at h
  obtain ⟨h1, h2, h3, h4, h5, h6⟩ := h
  simp [Source.identity, Source.flush, h1, h2, h3, h4, h5, h6]

/-- A cancelled source is closed. -/
theorem Source.cancel_closed (now : Time) (work : WorkType) (running : Bool) (s : Source) :
    (s.cancel now work running).status.isOpen = false := by
  unfold Source.cancel
  split
  · rfl
  · cases work <;> rfl

/-- Closing a source through a copy that shows it open closes the row. -/
theorem Source.flush_closed {current : Source} (stored : Source)
    (hloaded : loaded.status.isOpen = true) (hcurrent : current.status.isOpen = false) :
    (Source.flush loaded current stored).status.isOpen = false := by
  show (writeCol loaded.status current.status stored.status).isOpen = false
  rw [writeCol_dirty, hcurrent]
  intro h
  rw [h, hloaded] at hcurrent
  cases hcurrent

/-- The two ways to cancel a crawl: with its job, or alone when it has none. -/
theorem cancelDomainCrawl_ok {copy : Source} (h : cancelDomainCrawl now db key copy = .ok db') :
    (∃ job, db.jobs.get key = some job ∧
        cancelJob now db key job (some copy) Source.noteCancellation = .ok db') ∨
    (db.jobs.get key = none ∧ ∃ row s', db.sources.get key = some row ∧
        s'.identity = row.identity ∧ s'.status = .cancelled ∧
        db' = { db with sources := db.sources.set key s' }) := by
  unfold cancelDomainCrawl at h
  cases hjob : db.jobs.get key with
  | some job =>
    simp only [hjob] at h
    exact .inl ⟨job, rfl, h⟩
  | none =>
    cases hrow : db.sources.get key with
    | none =>
      simp only [hjob, hrow] at h
      cases h
    | some row =>
      simp only [hjob, hrow] at h
      split_ifs at h with hopen
      cases h
      refine .inr ⟨rfl, row, _, rfl, ?_, ?_, rfl⟩
      · exact Source.flush_identity row rfl
      · refine writeCol_dirty (fun heq => hopen ?_) _
        rw [show copy.status = .cancelled from heq.symm]
        rfl

/-! ## Creating and retrying -/

variable {copy : Option Job} {id : Nat} {source : SourceId}

theorem bindJob_ok {same : Job → Bool} (h : bindJob db copy key same job = .ok db') :
    ((db.jobs.get key).isSome ∧ db' = db) ∨
    (db.jobs.get key = none ∧
      db' = appendSchedulerAttempt { db with jobs := db.jobs.set key job } key job .queued none) := by
  unfold bindJob at h
  cases hrow : db.jobs.get key with
  | none =>
    rw [hrow, lockedRead_none] at h
    cases h
    exact .inr ⟨rfl, rfl⟩
  | some row =>
    rw [hrow] at h
    simp only [lockedRead, Option.map_some] at h
    split at h
    · cases h
      exact .inl ⟨rfl, rfl⟩
    · cases h

/-- The job a build route inserts for a build it has stored passes the identity check. -/
theorem createSiteBuildJob_ok {build : Source}
    (h : createSiteBuildJob now db copy id source build = .ok db') :
    ((db.jobs.get (.siteBuild, source)).isSome ∧ db' = db) ∨
    (db.jobs.get (.siteBuild, source) = none ∧ build.frozenHash.isSome ∧
      ∃ job, job.state = .queued ∧ job.leaseId = none ∧
        job.identity = (build.tenantId, build.projectId, build.siteId, build.frozenHash,
          some build.snapshotVersion) ∧
        db' = appendSchedulerAttempt { db with jobs := db.jobs.set (.siteBuild, source) job }
          (.siteBuild, source) job .queued none) := by
  unfold createSiteBuildJob at h
  split_ifs at h with hvalid
  rcases bindJob_ok h with h | ⟨hnone, h⟩
  · exact .inl h
  refine .inr ⟨hnone, ?_, _, ?_, ?_, ?_, h⟩
  · simp only [Bool.or_eq_true, not_or, Option.isNone_iff_eq_none, ← ne_eq,
      Option.ne_none_iff_isSome] at hvalid
    exact hvalid.2
  all_goals rfl

/-- Creation inserts a queued source and, unless its job is there already, a queued job
that passes the identity check. -/
theorem createWork_ok {request : Request} (h : createWork now db key id request = .ok db') :
    (∃ job, db.jobs.get key = some job ∧
      ∀ k, db'.pair k = if k = key then (some job, some (newSource key.1 request))
        else db.pair k) ∨
    (db.jobs.get key = none ∧ ∃ job, job.state = .queued ∧ job.leaseId = none ∧
      (sourceStatus db' key job).2 = none ∧
      ∀ k, db'.pair k = if k = key then (some job, some (newSource key.1 request))
        else db.pair k) := by
  have hsome : ∀ {job}, db.jobs.get key = some job →
      db' = { db with sources := db.sources.set key (newSource key.1 request) } →
      ∀ k, db'.pair k = if k = key then (some job, some (newSource key.1 request))
        else db.pair k := by
    intro job hjob hdb k
    rw [hdb, pair_setSource, hjob]
  have hnew : ∀ job, db' = appendSchedulerAttempt
        { db with
          sources := db.sources.set key (newSource key.1 request)
          jobs := db.jobs.set key job } key job .queued none →
      ∀ k, db'.pair k = if k = key then (some job, some (newSource key.1 request))
        else db.pair k := by
    intro job hdb k
    rw [hdb, pair_append, pair_setBoth]
  obtain ⟨work, source⟩ := key
  cases work with
  | siteBuild =>
    rcases createSiteBuildJob_ok h with ⟨hjob, hdb⟩ | ⟨hnone, -, job, hs, hl, hid, hdb⟩
    · obtain ⟨job, hjob⟩ := Option.isSome_iff_exists.mp hjob
      exact .inl ⟨job, hjob, hsome hjob hdb⟩
    · refine .inr ⟨hnone, job, hs, hl, ?_, hnew job hdb⟩
      have hsource := (Db.pair_eq.mp ((hnew job hdb (.siteBuild, source)).trans (if_pos rfl))).2
      simp only [Job.identity, Prod.mk.injEq] at hid
      obtain ⟨h1, h2, h3, h4, h5⟩ := hid
      simp [sourceStatus, hsource, h1, h2, h3, h4, h5, newSource]
  | bukvarixKeyword =>
    simp only [createWork, createBukvarixKeywordJob] at h
    split at h
    · cases h
    rcases bindJob_ok h with ⟨hjob, hdb⟩ | ⟨hnone, hdb⟩
    · obtain ⟨job, hjob⟩ := Option.isSome_iff_exists.mp hjob
      exact .inl ⟨job, hjob, hsome hjob hdb⟩
    · refine .inr ⟨hnone, _, rfl, rfl, ?_, hnew _ hdb⟩
      have hsource :=
        (Db.pair_eq.mp ((hnew _ hdb (.bukvarixKeyword, source)).trans (if_pos rfl))).2
      simp [sourceStatus, hsource, newSource, newJob]
  | competitorCrawl =>
    simp only [createWork, createCompetitorCrawlJob] at h
    split at h
    · cases h
    rcases bindJob_ok h with ⟨hjob, hdb⟩ | ⟨hnone, hdb⟩
    · obtain ⟨job, hjob⟩ := Option.isSome_iff_exists.mp hjob
      exact .inl ⟨job, hjob, hsome hjob hdb⟩
    · refine .inr ⟨hnone, _, rfl, rfl, ?_, hnew _ hdb⟩
      have hsource :=
        (Db.pair_eq.mp ((hnew _ hdb (.competitorCrawl, source)).trans (if_pos rfl))).2
      simp [sourceStatus, hsource, competitorCrawlSourceHash, newSource, newJob]

/-- A retry queues a failed build again, with its job: a new one, or the one that is there,
written through the copy the session holds. -/
theorem retryProjectBuild_ok (h : retryProjectBuild now db copy id source = .ok db') :
    ∃ build job', db.sources.get (.siteBuild, source) = some build ∧ build.status = .failed ∧
      (∀ k, db'.pair k = if k = (.siteBuild, source) then (some job', some (build.retry now))
        else db.pair k) ∧
      ((db.jobs.get (.siteBuild, source) = none ∧ job'.state = .queued ∧ job'.leaseId = none ∧
          (build.Intact .siteBuild → (sourceStatus db' (.siteBuild, source) job').2 = none)) ∨
       (∃ row, db.jobs.get (.siteBuild, source) = some row ∧
          (((copy.getD row).state = .queued ∧ job' = row) ∨
           (((copy.getD row).state = .failed ∨ (copy.getD row).state = .cancelled
              ∨ (copy.getD row).state = .paused) ∧
            job' = Job.flush (copy.getD row) ((copy.getD row).requeue now (build.retry now)) row)))) := by
  unfold retryProjectBuild at h
  cases hbuild : db.sources.get (.siteBuild, source) with
  | none =>
    rw [hbuild] at h
    cases h
  | some build =>
    rw [hbuild] at h
    simp only at h
    split_ifs at h with hfailed hfrozen
    have hfailed := not_not.mp hfailed
    unfold requeueSiteBuildJob at h
    dsimp only at h
    split at h
    · cases h
    · next db₁ hcreate =>
      rcases createSiteBuildJob_ok hcreate with
        ⟨hjob, hdb⟩ | ⟨hnone, hhash, job, hs, hl, hid, hdb⟩
      · -- the job is there: `create_site_build_job` returned it
        obtain ⟨row, hrow⟩ := Option.isSome_iff_exists.mp hjob
        have hrow' : db.jobs.get (.siteBuild, source) = some row := hrow
        subst hdb
        simp only [hrow', lockedRead, Option.map_some, Option.getD_some] at h
        split at h
        · next hq =>
          cases h
          refine ⟨build, row, rfl, hfailed, fun k => ?_, .inr ⟨row, hrow', .inl ⟨hq, rfl⟩⟩⟩
          rw [pair_setSource, hrow']
        split at h
        · next hstate =>
          cases h
          refine ⟨build, _, rfl, hfailed, fun k => ?_,
            .inr ⟨row, hrow', .inr ⟨hstate, rfl⟩⟩⟩
          rw [pair_append]
          exact pair_setBoth db _ k _ _
        · cases h
      · -- a build from before the scheduler: its job is created now
        have hnone' : db.jobs.get (.siteBuild, source) = none := hnone
        have hget : db₁.jobs.get (.siteBuild, source) = some job := by
          rw [hdb]
          exact Table.get_set_self ..
        have hpair : ∀ k, db₁.pair k = if k = (.siteBuild, source) then
            (some job, some (build.retry now)) else db.pair k := by
          intro k
          rw [hdb, pair_append]
          exact pair_setBoth db _ k _ _
        simp only [hget, hnone', lockedRead_none, Option.getD_none, hs, if_true] at h
        cases h
        refine ⟨build, job, rfl, hfailed, hpair, .inl ⟨hnone', hs, hl, fun hintact => ?_⟩⟩
        have hsource := (Db.pair_eq.mp ((hpair (.siteBuild, source)).trans (if_pos rfl))).2
        simp only [Bool.or_eq_true, not_or, Option.isNone_iff_eq_none, ← ne_eq,
          Option.ne_none_iff_exists'] at hfrozen
        obtain ⟨text, htext⟩ := hfrozen.1
        have hbind := hintact (by simp) text htext
        simp only [Job.identity, Prod.mk.injEq] at hid
        obtain ⟨h1, h2, h3, h4, h5⟩ := hid
        simp [sourceStatus, hsource, h1, h2, h3, h4, h5, Source.retry, htext, hbind]

end MegaPanel.Scheduler
