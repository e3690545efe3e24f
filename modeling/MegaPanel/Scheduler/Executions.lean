import MegaPanel.Scheduler.Leases
import MegaPanel.Scheduler.Sweep

set_option autoImplicit false

/-! # One execution per lease

The outbox publishes a wakeup at least once and a message may be delivered again, late or after
a recovery. What makes an execution unique is the lease: leases are fresh when a dispatch hands
them out, a row in state leased gives its lease away to the first claim, and no step puts a
lease back on a leased row.
-/

namespace MegaPanel.Scheduler

open MegaPanel.Lib

/-! ## What is observed -/

/-- The two moments of an execution: the claim, and the first transaction of the source work. -/
inductive LeaseEvent
  | claimed (lease : LeaseId)
  | started (lease : LeaseId)
  deriving DecidableEq

def LeaseEvent.lease : LeaseEvent → LeaseId
  | .claimed lease | .started lease => lease

/-- The events of a step: a claim that creates a worker, a worker that begins source work. -/
def leaseEvents (w : World) : Action → List LeaseEvent
  | .claim sid key lease =>
    if (w.sessions sid).isNone && decide ((key, lease) ∈ w.messages) &&
        (claimExecution w.now w.db key lease).2.isSome then
      [.claimed lease]
    else []
  | .start sid _ =>
    match w.worker sid with
    | some k => if k.phase = .claimed then [.started k.lease] else []
    | none => []
  | _ => []

/-- The lease is the job's current unexpired lease, and no worker has claimed it. -/
def World.current (w : World) (key : JobKey) (lease : LeaseId) : Bool :=
  (w.db.jobs.get key).any (fun job => job.claimable w.now lease)

/-- What the step sends, and each wakeup it marks published, is for a current lease. -/
structure PublishesCurrent (w : World) (w' : World) : Prop where
  sent : ∃ sent, w'.messages = w.messages ++ sent ∧ ∀ m ∈ sent, w.current m.1 m.2 = true
  published : ∀ key lease wakeup, w'.db.wakeups.get (key, lease) = some wakeup →
    wakeup.state = .published →
    w.db.wakeups.get (key, lease) = some wakeup ∨ w.current key lease = true

/-! ## Publishing -/

variable {now : Time} {key : JobKey} {lease : LeaseId} {w w' : World} {d : Dispatch} {a : Action}

/-- A publication that sends a message or marks the wakeup published is for a current lease. -/
theorem publishWakeup_current {db : Db} {sent : Bool} :
    (∀ m, (publishWakeup now db key lease sent).2 = some m → m = (key, lease) ∧
        (db.jobs.get key).any (fun job => job.claimable now lease) = true) ∧
      ∀ k wakeup, (publishWakeup now db key lease sent).1.wakeups.get k = some wakeup →
        wakeup.state = .published → db.wakeups.get k = some wakeup ∨ k = (key, lease) ∧
          (db.jobs.get key).any (fun job => job.claimable now lease) = true := by
  unfold publishWakeup
  split
  · exact ⟨nofun, fun k wakeup hk _ => .inl hk⟩
  · next wakeup₀ hwakeup =>
    split
    · exact ⟨nofun, fun k wakeup hk _ => .inl hk⟩
    · next hpending =>
      -- a stored wakeup that is not published was there before
      have hstore : ∀ (w₁ : Wakeup), w₁.state ≠ .published → ∀ k wakeup,
          (db.wakeups.set (key, lease) w₁).get k = some wakeup → wakeup.state = .published →
          db.wakeups.get k = some wakeup := by
        intro w₁ hw₁ k wakeup hk hstate
        rcases Table.get_set_eq_some.mp hk with ⟨-, rfl⟩ | ⟨-, hk⟩
        · exact absurd hstate hw₁
        · exact hk
      dsimp only
      split
      · next job hcurrent hjob =>
        have hclaim : job.claimable now lease = true := by
          rw [hjob] at hcurrent
          simp only [Option.any_some, Bool.and_eq_true, decide_eq_true_eq] at hcurrent
          exact Job.claimable_iff.mpr ⟨hcurrent.1.1.2, hcurrent.1.2, hcurrent.2⟩
        have hany : (db.jobs.get key).any (fun job => job.claimable now lease) = true := by
          rw [hjob]
          exact hclaim
        split
        · refine ⟨fun m hm => ⟨(Option.some.inj hm).symm, hany⟩, fun k wakeup hk hstate => ?_⟩
          rcases Table.get_set_eq_some.mp hk with ⟨rfl, -⟩ | ⟨-, hk⟩
          · exact .inr ⟨rfl, hany⟩
          · exact .inl hk
        · refine ⟨nofun, fun k wakeup hk hstate => .inl ?_⟩
          refine hstore _ ?_ k wakeup hk hstate
          rw [show wakeup₀.state = .pending from not_not.mp hpending]
          nofun
      · refine ⟨nofun, fun k wakeup hk hstate => .inl ?_⟩
        exact hstore { wakeup₀ with state := .expired } (by simp) k wakeup hk hstate

theorem sentMessage_current {m : JobKey × LeaseId} (hm : m ∈ sentMessage w.now w.db key lease) :
    w.current m.1 m.2 = true := by
  rw [sentMessage, Option.mem_toList] at hm
  obtain ⟨rfl, hcurrent⟩ := publishWakeup_current.1 m hm
  exact hcurrent

theorem stepPublish_current (w : World) (key : JobKey) (lease : LeaseId) (delivery : Delivery) :
    PublishesCurrent w (stepPublish w key lease delivery) := by
  have hpublished : ∀ sent k l wakeup,
      (publishWakeup w.now w.db key lease sent).1.wakeups.get (k, l) = some wakeup →
      wakeup.state = .published →
      w.db.wakeups.get (k, l) = some wakeup ∨ w.current k l = true := by
    intro sent k l wakeup hk hstate
    rcases publishWakeup_current.2 (k, l) wakeup hk hstate with h | ⟨heq, h⟩
    · exact .inl h
    · cases heq
      exact .inr h
  cases delivery with
  | sent => exact ⟨⟨_, rfl, fun m hm => sentMessage_current hm⟩, hpublished true⟩
  | refused => exact ⟨⟨[], (List.append_nil _).symm, nofun⟩, hpublished false⟩
  | crashed => exact ⟨⟨_, rfl, fun m hm => sentMessage_current hm⟩, fun k l _ hk _ => .inl hk⟩

/-- The wakeups a dispatch creates are pending. -/
theorem Takes.published {slots : Nat} {locked : List JobKey} {d' : Dispatch}
    {taken : List ProjectKey} (h : Takes now slots locked d taken d') {k : JobKey × LeaseId}
    {wakeup : Wakeup} (hk : d'.db.wakeups.get k = some wakeup)
    (hstate : wakeup.state = .published) : d.db.wakeups.get k = some wakeup := by
  refine h.invariant (P := fun d' => d'.db.wakeups.get k = some wakeup →
    d.db.wakeups.get k = some wakeup) ?_ id hk
  intro d' project key job hd' _ hget
  rcases Table.get_set_eq_some.mp hget with ⟨-, rfl⟩ | ⟨-, hget⟩
  · cases hstate
  · exact hd' hget

theorem step_publishes (h : step w a = some w') : PublishesCurrent w w' := by
  cases step_sweep h with
  | count limit => exact ⟨⟨[], (List.append_nil _).symm, nofun⟩, fun k l _ hk _ => .inl hk⟩
  | dispatch slots locked _ =>
    refine ⟨⟨[], (List.append_nil _).symm, nofun⟩, fun k l wakeup hk hstate => .inl ?_⟩
    obtain ⟨taken, -, htakes⟩ := dispatchDueJobs_takes w.now slots locked w.nextLease w.db
    exact htakes.published hk hstate
  | publish key lease delivery => exact stepPublish_current w key lease delivery
  | other _ _ _ _ hmessages _ hkept =>
    refine ⟨⟨[], by rw [hmessages, List.append_nil], nofun⟩, fun k l wakeup hk hstate => ?_⟩
    rcases hkept.wakeup (k, l) with he | ⟨expired, he, hs⟩
    · exact .inl (he ▸ hk)
    rw [he] at hk
    rw [← Option.some.inj hk, hs] at hstate
    cases hstate

/-! ## Fresh leases -/

/-- Leases on rows are below `next`, and rows in state leased carry different ones. -/
structure FreshLeases (jobs : Table JobKey Job) (next : LeaseId) : Prop where
  row_lt : ∀ key job l, jobs.get key = some job → job.leaseId = some l → l < next
  distinct : ∀ key key' job job' l, jobs.get key = some job → jobs.get key' = some job' →
    job.state = .leased → job'.state = .leased → job.leaseId = some l →
    job'.leaseId = some l → key = key'

theorem FreshLeases.take (h : FreshLeases d.db.jobs d.nextLease) (project : ProjectKey)
    (key : JobKey) (job : Job) :
    FreshLeases (d.take now project key job).db.jobs (d.take now project key job).nextLease := by
  refine ⟨fun k j l hj hl => ?_, fun k k' j j' l hj hj' hs hs' hl hl' => ?_⟩
  · rw [take_jobs, Table.get_set_eq_some] at hj
    rcases hj with ⟨-, rfl⟩ | ⟨-, hj⟩
    · rw [← Option.some.inj hl]
      exact Nat.lt_succ_self _
    · exact (h.row_lt k j l hj hl).trans (Nat.lt_succ_self _)
  · rw [take_jobs, Table.get_set_eq_some] at hj hj'
    rcases hj with ⟨rfl, rfl⟩ | ⟨-, hj⟩
    · rcases hj' with ⟨rfl, -⟩ | ⟨-, hj'⟩
      · rfl
      · rw [← Option.some.inj hl] at hl'
        exact absurd (h.row_lt k' j' _ hj' hl') (Nat.lt_irrefl _)
    · rcases hj' with ⟨rfl, rfl⟩ | ⟨-, hj'⟩
      · rw [← Option.some.inj hl'] at hl
        exact absurd (h.row_lt k j _ hj hl) (Nat.lt_irrefl _)
      · exact h.distinct k k' j j' l hj hj' hs hs' hl hl'

theorem FreshLeases.dispatch (h : FreshLeases w.db.jobs w.nextLease) (slots : Nat)
    (locked : List JobKey) :
    FreshLeases (w.dispatched slots locked).db.jobs (w.dispatched slots locked).nextLease := by
  obtain ⟨taken, -, htakes⟩ := dispatchDueJobs_takes w.now slots locked w.nextLease w.db
  exact htakes.invariant (P := fun d => FreshLeases d.db.jobs d.nextLease)
    (fun d project key job hd _ => hd.take project key job) h

/-- A leased row after a step was leased before, or the step was a dispatch. -/
theorem step_leased (hw : Leases w) (h : step w a = some w') {job : Job} {l : LeaseId}
    (hjob : w'.db.jobs.get key = some job) (hstate : job.state = .leased)
    (hl : job.leaseId = some l) : w.db.jobs.get key = some job ∨ w.nextLease ≤ l :=
  ((step_row hw h).2 key).leased hjob hstate hl

theorem FreshLeases.step (hw : Leases w) (hf : FreshLeases w.db.jobs w.nextLease)
    (h : MegaPanel.Scheduler.step w a = some w') : FreshLeases w'.db.jobs w'.nextLease := by
  have hkept : w'.nextLease = w.nextLease → FreshLeases w'.db.jobs w'.nextLease := by
    intro hnext
    have hold : ∀ key job l, w'.db.jobs.get key = some job → job.state = .leased →
        job.leaseId = some l → w.db.jobs.get key = some job := by
      intro key job l hjob hstate hl
      refine (step_leased hw h hjob hstate hl).resolve_right (Nat.not_le.mpr ?_)
      rw [← hnext]
      exact (hw.step h).row_lt key job l hjob hl
    refine ⟨(hw.step h).row_lt, fun k k' j j' l hj hj' hs hs' hl hl' => ?_⟩
    exact hf.distinct k k' j j' l (hold k j l hj hs hl) (hold k' j' l hj' hs' hl') hs hs' hl hl'
  cases step_sweep h with
  | count limit => exact hkept rfl
  | dispatch slots locked _ => exact hf.dispatch slots locked
  | publish key lease delivery =>
    refine hkept ?_
    cases delivery <;> rfl
  | other _ _ _ hnext _ _ _ => exact hkept hnext

/-! ## The invariant -/

variable {sid : SessionId}

/-- A lease has one holder: a leased row, or a worker; and what has been observed of a lease is
past. -/
structure Executions (w : World) (seen : List LeaseEvent) : Prop where
  leases : Leases w
  fresh : FreshLeases w.db.jobs w.nextLease
  row_free : ∀ sid k key job, w.sessions sid = some (.worker k) →
    w.db.jobs.get key = some job → job.state = .leased → job.leaseId ≠ some k.lease
  unique : ∀ sid sid' k k', w.sessions sid = some (.worker k) →
    w.sessions sid' = some (.worker k') → k.lease = k'.lease → sid = sid'
  seen_lt : ∀ e ∈ seen, e.lease < w.nextLease
  seen_row : ∀ e ∈ seen, ∀ key job, w.db.jobs.get key = some job → job.state = .leased →
    job.leaseId ≠ some e.lease
  seen_worker : ∀ sid k, w.sessions sid = some (.worker k) → k.phase = .claimed →
    .started k.lease ∉ seen
  distinct : seen.Nodup

theorem Executions.init (h : Init w) : Executions w [] where
  leases := .init h
  fresh := by
    refine ⟨(Leases.init h).row_lt, fun k k' j j' l hj => ?_⟩
    rw [h.jobs] at hj
    cases hj
  row_free := by
    intro sid k key job hk
    rw [h.sessions] at hk
    cases hk
  unique := by
    intro sid sid' k k' hk
    rw [h.sessions] at hk
    cases hk
  seen_lt := nofun
  seen_row := nofun
  seen_worker := fun _ _ _ _ => List.not_mem_nil
  distinct := List.nodup_nil

/-- What a step observes: a claim of a lease on a leased row, or the start of a worker that has
claimed and not started. -/
theorem leaseEvents_cases {e : LeaseEvent} (h : e ∈ leaseEvents w a) : leaseEvents w a = [e] ∧
    ((∃ sid key lease job, a = .claim sid key lease ∧ e = .claimed lease ∧
        w.db.jobs.get key = some job ∧ job.state = .leased ∧ job.leaseId = some lease) ∨
     (∃ sid valid k, a = .start sid valid ∧ e = .started k.lease ∧
        w.sessions sid = some (.worker k) ∧ k.phase = .claimed)) := by
  cases a with
  | claim sid key lease =>
    simp only [leaseEvents] at h ⊢
    split at h
    · next hcond =>
      rw [List.mem_singleton] at h
      rw [if_pos hcond, h]
      refine ⟨rfl, .inl ⟨sid, key, lease, ?_⟩⟩
      rcases claimExecution_cases w.now w.db key lease with
        hc | ⟨job, hjob, hclaim, -⟩
      · rw [hc] at hcond
        simp at hcond
      · obtain ⟨hstate, hlease, -⟩ := Job.claimable_iff.mp hclaim
        exact ⟨job, rfl, rfl, hjob, hstate, hlease⟩
    · cases h
  | start sid valid =>
    simp only [leaseEvents] at h ⊢
    split at h
    · next k hk =>
      split at h
      · next hphase =>
        rw [List.mem_singleton] at h
        rw [if_pos hphase, h]
        exact ⟨rfl, .inr ⟨sid, valid, k, rfl, rfl, World.worker_eq_some.mp hk, hphase⟩⟩
      · cases h
    · cases h
  | _ => cases h

/-- A claim that is observed has created a worker. -/
theorem step_claim_worker (h : step w (.claim sid key lease) = some w')
    (he : leaseEvents w (.claim sid key lease) ≠ []) :
    ∃ k, w'.sessions sid = some (.worker k) ∧ k.key = key ∧ k.lease = lease := by
  simp only [leaseEvents] at he
  split at he
  · next hcond =>
    simp only [step, stepClaim] at h
    split at h
    · split at h
      · next hc =>
        rw [hc] at hcond
        simp at hcond
      · cases h
        rw [World.setSession_sessions, if_pos rfl]
        exact ⟨_, rfl, rfl, rfl⟩
    · cases h
  · exact absurd rfl he

/-- A worker that starts is past its claim. -/
theorem step_start_phase {valid : Bool} {k : Worker} (h : step w (.start sid valid) = some w')
    (hk : w'.sessions sid = some (.worker k)) : k.phase ≠ .claimed := by
  obtain ⟨k₀, -, h⟩ := Option.bind_eq_some_iff.mp h
  simp only [stepStart] at h
  split at h
  · cases h
    rw [World.setSession_sessions, if_pos rfl] at hk
    cases hk
    dsimp only
    split <;> simp
  · cases h

theorem Executions.step {seen : List LeaseEvent} (he : Executions w seen)
    (h : MegaPanel.Scheduler.step w a = some w') : Executions w' (seen ++ leaseEvents w a) := by
  have hleases := he.leases.step h
  have hnext : w.nextLease ≤ w'.nextLease := (step_row he.leases h).1
  -- a leased row of the new state was there before or has a lease nobody has seen
  have hrow : ∀ key job l, w'.db.jobs.get key = some job → job.state = .leased →
      job.leaseId = some l → w.db.jobs.get key = some job ∨ w.nextLease ≤ l :=
    fun key job l => step_leased he.leases h
  have hseen : ∀ e ∈ seen ++ leaseEvents w a, e.lease < w.nextLease ∧
      ∀ key job, w'.db.jobs.get key = some job → job.state = .leased →
        job.leaseId ≠ some e.lease := by
    intro e hmem
    rcases List.mem_append.mp hmem with hmem | hmem
    · refine ⟨he.seen_lt e hmem, fun key job hjob hstate hl => ?_⟩
      rcases hrow key job _ hjob hstate hl with hold | hle
      · exact he.seen_row e hmem key job hold hstate hl
      · exact absurd (he.seen_lt e hmem) (Nat.not_lt.mpr hle)
    obtain ⟨-, ⟨sid, key, lease, job, rfl, rfl, hjob, hs, hl⟩ | ⟨sid, valid, k, rfl, rfl, hk, -⟩⟩ :=
      leaseEvents_cases hmem
    · refine ⟨he.fresh.row_lt key job lease hjob hl, fun key' job' hjob' hs' hl' => ?_⟩
      rcases hrow key' job' _ hjob' hs' hl' with hold | hle
      · obtain rfl := he.fresh.distinct key' key job' job lease hold hjob hs' hs hl' hl
        obtain ⟨k, hk, hkey, hlease⟩ := step_claim_worker h (List.ne_nil_of_mem hmem)
        exact hleases.leased_free sid k job' hk (hkey ▸ hjob') hs' (hlease ▸ hl')
      · exact absurd (he.fresh.row_lt key job lease hjob hl) (Nat.not_lt.mpr hle)
    · refine ⟨he.leases.worker_lt sid k hk, fun key job hjob hstate hl => ?_⟩
      rcases hrow key job _ hjob hstate hl with hold | hle
      · exact he.row_free sid k key job hk hold hstate hl
      · exact absurd (he.leases.worker_lt sid k hk) (Nat.not_lt.mpr hle)
  refine ⟨hleases, FreshLeases.step he.leases he.fresh h, ?_, ?_, fun e hmem => ?_, ?_, ?_, ?_⟩
  · intro s k key job hk hjob hstate hl
    rcases step_worker h hk with ⟨k₀, phase, hk₀, rfl, -⟩ | ⟨-, -, j, now, hj, hjs, hjl, -, hnew⟩
    · rcases hrow key job _ hjob hstate hl with hold | hle
      · exact he.row_free s k₀ key job hk₀ hold hstate hl
      · exact absurd (he.leases.worker_lt s k₀ hk₀) (Nat.not_lt.mpr hle)
    · rcases hrow key job _ hjob hstate hl with hold | hle
      · -- the claimed row was the only leased row with this lease, and it is running now
        obtain rfl := he.fresh.distinct key k.key job j _ hold hj hstate hjs hl hjl
        rw [hnew] at hjob
        rw [← Option.some.inj hjob] at hstate
        cases hstate
      · exact absurd (he.fresh.row_lt k.key j _ hj hjl) (Nat.not_lt.mpr hle)
  · intro s s' k k' hk hk' hlease
    rcases step_worker h hk with ⟨k₀, phase, hk₀, rfl, -⟩ | ⟨hs, -, j, now, hj, hjs, hjl, -, -⟩
    · rcases step_worker h hk' with
        ⟨k₁, phase', hk₁, rfl, -⟩ | ⟨hs', -, j, now, hj, hjs, hjl, -, -⟩
      · exact he.unique s s' k₀ k₁ hk₀ hk₁ hlease
      · exact absurd (hlease ▸ hjl) (he.row_free s k₀ k'.key j hk₀ hj hjs)
    · rcases step_worker h hk' with ⟨k₁, phase', hk₁, rfl, -⟩ | ⟨hs', -⟩
      · exact absurd (hlease ▸ hjl) (he.row_free s' k₁ k.key j hk₁ hj hjs)
      · exact Option.some.inj (hs.symm.trans hs')
  · exact ((hseen e hmem).1).trans_le hnext
  · exact fun e hmem => (hseen e hmem).2
  · intro s k hk hphase hmem
    have hstarts : ∀ sid valid, a = .start sid valid → s ≠ sid := by
      rintro sid valid rfl rfl
      exact step_start_phase h hk hphase
    rcases step_worker h hk with ⟨k₀, phase, hk₀, rfl, hor⟩ | ⟨hs, -, j, now, hj, hjs, hjl, -, -⟩
    · have hphase₀ : k₀.phase = .claimed := hor.elim (fun heq => heq ▸ hphase)
        (fun hne => absurd hphase hne)
      rcases List.mem_append.mp hmem with hmem | hmem
      · exact he.seen_worker s k₀ hk₀ hphase₀ hmem
      obtain ⟨-, ⟨_, _, _, _, _, heq, _⟩ | ⟨sid, valid, k', ha, heq, hk', -⟩⟩ :=
        leaseEvents_cases hmem
      · cases heq
      · exact hstarts sid valid ha (he.unique s sid k₀ k' hk₀ hk' (LeaseEvent.started.inj heq))
    · rcases List.mem_append.mp hmem with hmem | hmem
      · exact he.seen_row _ hmem k.key j hj hjs hjl
      · obtain ⟨-, ⟨_, _, _, _, _, heq, _⟩ | ⟨sid, valid, k', ha, -⟩⟩ := leaseEvents_cases hmem
        · cases heq
        · refine hstarts sid valid ha ?_
          rw [ha] at hs
          exact (Option.some.inj hs).symm
  · refine List.nodup_append.mpr ⟨he.distinct, ?_, ?_⟩
    · cases hevents : leaseEvents w a with
      | nil => exact List.nodup_nil
      | cons e rest =>
        have hmem : e ∈ leaseEvents w a := hevents ▸ List.mem_cons_self ..
        rw [← hevents, (leaseEvents_cases hmem).1]
        exact List.nodup_singleton e
    · rintro e hseen' _ hmem rfl
      obtain ⟨-, ⟨sid, key, lease, job, -, rfl, hjob, hs, hl⟩ | ⟨sid, valid, k, -, rfl, hk, hphase⟩⟩ :=
        leaseEvents_cases hmem
      · exact he.seen_row _ hseen' key job hjob hs hl
      · exact he.seen_worker sid k hk hphase hseen'

/-! ## The theorem -/

/-- **One execution per lease.** In every run each lease is claimed and starts source work at
most once, and every message sent and every wakeup marked published is for the job's current
unexpired lease. -/
theorem lease_executed_once {w : World} (h : Init w) (as : List Action) :
    (emitted step leaseEvents w as).Nodup ∧
      Along step (fun s _ t => PublishesCurrent s t) w as := by
  constructor
  · exact emitted_rule (G := fun _ _ _ => True) (P := List.Nodup)
      (fun _ _ _ _ he _ hstep => he.step hstep) (fun _ _ he => he.distinct)
      (Executions.init h) (along_of_forall (fun _ _ => trivial) w)
  · have hstep : ∀ s a t, True → step s a = some t → (PublishesCurrent s t ↔ True) :=
      fun s a t _ hs => iff_of_true (step_publishes hs) trivial
    exact (along_iff (I := fun _ => True) (fun _ _ _ _ _ => trivial) hstep trivial).mpr
      (along_of_forall (fun _ _ => trivial) w)

/-- A message sent twice and delivered three times, the last time after the lease was
recovered. -/
def duplicatedMessage : List Action :=
  [.create (.siteBuild, 0) 0 buildRequest, .dispatchBegin 1, .dispatchCommit [],
   .publish (.siteBuild, 0) 0 .crashed, .publish (.siteBuild, 0) 0 .sent,
   .claim 1 (.siteBuild, 0) 0, .claim 2 (.siteBuild, 0) 0, .start 1 true,
   .tick (seconds 601), .recover [], .claim 3 (.siteBuild, 0) 0]

theorem lease_executed_once_duplicatedMessage :
    emitted step leaseEvents World.fresh duplicatedMessage = [.claimed 0, .started 0] ∧
      (emitted step leaseEvents World.fresh duplicatedMessage).Nodup :=
  ⟨by decide +kernel, (lease_executed_once World.fresh_init _).1⟩

end MegaPanel.Scheduler
