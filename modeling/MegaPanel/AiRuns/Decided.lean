import MegaPanel.AiRuns.Model
import MegaPanel.Lib.Dict

set_option autoImplicit false

/-! # One execution, one decision

The worker that has found a run `reserved` is the only one that calls the provider for it. Its status
moves as it should as long as a request that could not queue its run marks it in time. The mark is
written to the row whatever has become of the run since: over a proposal, over a decision, or between
the start of the worker and its proposal (`executed_and_decided_once`).
-/

namespace MegaPanel.AiRuns

open MegaPanel.Lib
open MegaPanel.AiBudget (RunId SessionId Kind Job Usage Answer usagePayload actualCost)

/-! ## What is asked of a step -/

/-- The step marks a run that could not be queued. -/
def Action.marks : Action → Bool
  | .enqueueRaised _ => true
  | _ => false

/-- The moves of a status; `marks` tells whether the queueing has failed. -/
def moves (marks : Bool) : Status → Status → Bool
  | .reserved, .running => true
  | .reserved, .failed => marks
  | .running, .pendingApproval => true
  | .running, .failed => true
  | .pendingApproval, .approved => true
  | .pendingApproval, .rejected => true
  | _, _ => false

/-- New runs are reserved, and the others keep their status or move. -/
structure Orderly (st : State) (a : Action) (t : State) : Prop where
  created : ∀ id row, st.runs.get id = none → t.runs.get id = some row → row.status = .reserved
  moved : ∀ id row, st.runs.get id = some row → ∃ row', t.runs.get id = some row' ∧
    (row'.status = row.status ∨ moves a.marks row.status row'.status = true)

/-! ## When it is met -/

/-- The mark comes before the proposal, and the proposal of a marked run does not come. -/
def inTime (st : State) : Action → Bool
  | .enqueueRaised sid =>
    match st.sessions.get sid with
    | some (.enqueueing id loaded) => decide (loaded.job.kind ≠ .siteMap) ||
        (st.runs.get id).all (fun row => decide (row.status ∈ [.reserved, .running, .failed]))
    | _ => true
  | .finish sid answer =>
    match st.sessions.get sid with
    | some (.calling id loaded) => !loaded.accepts answer ||
        (st.runs.get id).all (fun row => decide (row.status ≠ .failed))
    | _ => true
  | _ => true

/-! ## Changes of one row -/

variable {st t : State} {a : Action} {id : RunId} {row loaded : AIRun}

theorem Orderly.of_same (h : t.runs = st.runs) (a : Action) : Orderly st a t where
  created := fun id row hnone hrow => by
    rw [h, hnone] at hrow
    cases hrow
  moved := fun id row hrow => ⟨row, by rw [h, hrow], .inl rfl⟩

theorem Orderly.of_insert {run : AIRun} (hnew : st.runs.get id = none)
    (h : t.runs = st.runs.set id run) (hreserved : run.status = .reserved) (a : Action) :
    Orderly st a t where
  created := fun j row hnone hrow => by
    rw [h] at hrow
    rcases Table.get_set_eq_some.mp hrow with ⟨_, rfl⟩ | ⟨_, hold⟩
    · exact hreserved
    · rw [hnone] at hold
      cases hold
  moved := fun j row hrow => by
    have hne : j ≠ id := fun heq => by
      rw [heq, hnew] at hrow
      cases hrow
    exact ⟨row, by rw [h, Table.get_set_ne _ hne, hrow], .inl rfl⟩

theorem orderly_set_iff {run : AIRun} (hrow : st.runs.get id = some row)
    (h : t.runs = st.runs.set id run) (a : Action) :
    Orderly st a t ↔ run.status = row.status ∨ moves a.marks row.status run.status = true := by
  constructor
  · intro horderly
    obtain ⟨row', hrow', hmoved⟩ := horderly.moved id row hrow
    rw [h, Table.get_set_self] at hrow'
    cases hrow'
    exact hmoved
  · intro hmoved
    refine ⟨fun j x hnone hx => ?_, fun j x hx => ?_⟩
    · rw [h] at hx
      rcases Table.get_set_eq_some.mp hx with ⟨rfl, _⟩ | ⟨_, hold⟩
      · rw [hrow] at hnone
        cases hnone
      · rw [hnone] at hold
        cases hold
    · by_cases hj : j = id
      · rw [hj, hrow] at hx
        cases hx
        exact ⟨run, by rw [h, hj, Table.get_set_self], hmoved⟩
      · exact ⟨x, by rw [h, Table.get_set_ne _ hj, hx], .inl rfl⟩

theorem flush_status {current : AIRun} (h : current.status ≠ loaded.status) :
    (AIRun.flush loaded current row).status = current.status := writeCol_dirty h _

theorem refusedRun_status (run : AIRun) (refusal : Refusal) :
    (refusedRun run refusal).status = .failed := by
  unfold refusedRun
  split
  · split <;> rfl
  · cases refusal <;> rfl

theorem executedRun_status (run : AIRun) (answer : Answer) :
    (executedRun run answer).status =
      if run.accepts answer = true then .pendingApproval else .failed := by
  cases answer <;> rfl

theorem decideAiRun_eq_ok {tenantId : TenantId} {decision : Decision} {run : Option AIRun}
    {decided : AIRun} (h : decideAiRun tenantId decision run = .ok decided) :
    ∃ row, run = some row ∧ row.status = .pendingApproval ∧
      (decided.status = .approved ∨ decided.status = .rejected) := by
  unfold decideAiRun at h
  split at h
  · cases h
  · next row hrow =>
    split_ifs at h with hkind hpending
    cases h
    refine ⟨row, (Option.filter_eq_some_iff.mp hrow).1, not_not.mp hpending, ?_⟩
    cases decision with
    | approve => exact .inl rfl
    | reject => exact .inr rfl

/-! ## What a step does -/

inductive Move (st : State) : Action → State → Prop
  | reserve (sid : SessionId) (id : RunId) (tenantId envelopeTenant : TenantId) (job : Job)
      (hnew : st.runs.get id = none) :
      Move st (.reserve sid id tenantId envelopeTenant job) { st with
        runs := st.runs.set id (reservedRun tenantId envelopeTenant job)
        sessions := st.sessions.set sid (.enqueueing id (reservedRun tenantId envelopeTenant job)) }
  | accept (sid : SessionId) (id : RunId) : Move st (.accept sid) { st with queue := id :: st.queue }
  /-- A session ends without a commit. -/
  | ended (a : Action) (sid : SessionId) (hcall : ∀ k, a ≠ .callProvider k)
      (htime : inTime st a = true) : Move st a (st.endSession sid)
  | marked (sid : SessionId) (id : RunId) (loaded row : AIRun)
      (hs : st.sessions.get sid = some (.enqueueing id loaded)) (hkind : loaded.job.kind = .siteMap)
      (hrow : st.runs.get id = some row) : Move st (.enqueueRaised sid) (State.endSession
        { st with runs := st.runs.set id (AIRun.flush loaded (queueFailed loaded) row) } sid)
  | take (sid : SessionId) (id : RunId) (row : AIRun) (hrow : st.runs.get id = some row)
      (hreserved : row.status = .reserved) : Move st (.take sid id) { st with
        runs := st.runs.set id (takenRun row)
        sessions := st.sessions.set sid (.taken id (takenRun row)) }
  | skip (sid : SessionId) (id : RunId) : Move st (.take sid id) st
  | refuse (sid : SessionId) (refusal : Refusal) (id : RunId) (loaded row : AIRun)
      (hs : st.sessions.get sid = some (.taken id loaded)) (hrow : st.runs.get id = some row) :
      Move st (.refuse sid refusal) (State.endSession { st with
        runs := st.runs.set id (AIRun.flush loaded (refusedRun loaded refusal) row) } sid)
  | call (sid : SessionId) (id : RunId) (loaded : AIRun)
      (hs : st.sessions.get sid = some (.taken id loaded)) :
      Move st (.callProvider sid) { st with sessions := st.sessions.set sid (.calling id loaded) }
  | finish (sid : SessionId) (answer : Answer) (id : RunId) (loaded row : AIRun)
      (hs : st.sessions.get sid = some (.calling id loaded)) (hrow : st.runs.get id = some row) :
      Move st (.finish sid answer) (State.endSession { st with
        runs := st.runs.set id (AIRun.flush loaded (executedRun loaded answer) row) } sid)
  | decide (id : RunId) (tenantId : TenantId) (decision : Decision) (row run : AIRun)
      (hrow : st.runs.get id = some row) (hpending : row.status = .pendingApproval)
      (hdecided : run.status = .approved ∨ run.status = .rejected) :
      Move st (.decide id tenantId decision) { st with runs := st.runs.set id run }

theorem step_move (hstep : AiRuns.step st a = some t) : Move st a t := by
  cases a with
  | reserve sid id tenantId envelopeTenant job =>
    simp only [AiRuns.step] at hstep
    split_ifs at hstep with hnew
    cases hstep
    exact .reserve sid id tenantId envelopeTenant job hnew.2.1
  | accept sid =>
    obtain ⟨_ | _ | _, hs, hstep⟩ := Option.bind_eq_some_iff.mp hstep <;> cases hstep
    exact .accept sid _
  | enqueued sid =>
    obtain ⟨_ | _ | _, hs, hstep⟩ := Option.bind_eq_some_iff.mp hstep <;> cases hstep
    exact .ended _ sid (fun _ heq => nomatch heq) rfl
  | enqueueRaised sid =>
    obtain ⟨⟨id, loaded⟩ | _ | _, hs, hstep⟩ := Option.bind_eq_some_iff.mp hstep
    · dsimp only at hstep
      split_ifs at hstep with hkind
      · obtain ⟨row, hrow, rfl⟩ := Option.map_eq_some_iff.mp hstep
        exact .marked sid id loaded row hs hkind hrow
      · cases hstep
        refine .ended _ sid (fun _ heq => nomatch heq) ?_
        simp only [inTime, hs]
        rw [decide_eq_true hkind, Bool.true_or]
    all_goals cases hstep
  | take sid id =>
    simp only [AiRuns.step] at hstep
    split_ifs at hstep
    obtain ⟨row, hrow, hstep⟩ := Option.bind_eq_some_iff.mp hstep
    split_ifs at hstep with hreserved
    · cases hstep
      exact .take sid id row hrow hreserved
    · cases hstep
      exact .skip sid id
  | refuse sid refusal =>
    obtain ⟨_ | ⟨id, loaded⟩ | _, hs, hstep⟩ := Option.bind_eq_some_iff.mp hstep <;> try cases hstep
    obtain ⟨row, hrow, rfl⟩ := Option.map_eq_some_iff.mp hstep
    exact .refuse sid refusal id loaded row hs hrow
  | callProvider sid =>
    obtain ⟨_ | ⟨id, loaded⟩ | _, hs, hstep⟩ := Option.bind_eq_some_iff.mp hstep <;> try cases hstep
    dsimp only at hstep
    split_ifs at hstep
    cases hstep
    exact .call sid id loaded hs
  | finish sid answer =>
    obtain ⟨_ | _ | ⟨id, loaded⟩, hs, hstep⟩ := Option.bind_eq_some_iff.mp hstep <;> try cases hstep
    obtain ⟨row, hrow, rfl⟩ := Option.map_eq_some_iff.mp hstep
    exact .finish sid answer id loaded row hs hrow
  | decide id tenantId decision =>
    obtain ⟨run, hrun, rfl⟩ := Option.map_eq_some_iff.mp hstep
    obtain ⟨row, hrow, hpending, hdecided⟩ := decideAiRun_eq_ok (toOption_eq_some.mp hrun)
    exact .decide id tenantId decision row run hrow hpending hdecided
  | crash sid =>
    obtain ⟨s, _, rfl⟩ := Option.map_eq_some_iff.mp hstep
    exact .ended _ sid (fun _ heq => nomatch heq) rfl

/-! ## Sessions -/

variable {runs : Table RunId AIRun} {s : Session} {sid : SessionId}

/-- The run that a task has taken. -/
def Session.owns : Session → Option RunId
  | .taken id _ | .calling id _ => some id
  | .enqueueing _ _ => none

/-- What is known of a session between two of its commits. -/
inductive InFlight (runs : Table RunId AIRun) : Session → Prop
  | enqueueing (id : RunId) (loaded row : AIRun) (hloaded : loaded.status = .reserved)
      (hrow : runs.get id = some row) : InFlight runs (.enqueueing id loaded)
  | taken (id : RunId) (loaded row : AIRun) (hloaded : loaded.status = .running)
      (hrow : runs.get id = some row) (hstatus : row.status = .running ∨ row.status = .failed) :
      InFlight runs (.taken id loaded)
  | calling (id : RunId) (loaded row : AIRun) (hloaded : loaded.status = .running)
      (hrow : runs.get id = some row) (hstatus : row.status = .running ∨ row.status = .failed) :
      InFlight runs (.calling id loaded)

structure Sound (st : State) : Prop where
  flight : ∀ sid s, st.sessions.get sid = some s → InFlight st.runs s
  unique : ∀ sid sid' s s' id, st.sessions.get sid = some s → st.sessions.get sid' = some s' →
    s.owns = some id → s'.owns = some id → sid = sid'

theorem sound_start : Sound start where
  flight := fun _ _ h => by cases h
  unique := fun _ _ _ _ _ h => by cases h

/-- A change of a row whose owners find it running or failed. -/
theorem InFlight.set (h : InFlight runs s) {run : AIRun}
    (hown : s.owns = some id → run.status = .running ∨ run.status = .failed) :
    InFlight (runs.set id run) s := by
  cases h with
  | enqueueing j loaded row hloaded hrow =>
    by_cases hj : j = id
    · exact .enqueueing j loaded run hloaded (by rw [hj, Table.get_set_self])
    · exact .enqueueing j loaded row hloaded (by rw [Table.get_set_ne _ hj, hrow])
  | taken j loaded row hloaded hrow hstatus =>
    by_cases hj : j = id
    · exact .taken j loaded run hloaded (by rw [hj, Table.get_set_self]) (hown (congrArg some hj))
    · exact .taken j loaded row hloaded (by rw [Table.get_set_ne _ hj, hrow]) hstatus
  | calling j loaded row hloaded hrow hstatus =>
    by_cases hj : j = id
    · exact .calling j loaded run hloaded (by rw [hj, Table.get_set_self])
        (hown (congrArg some hj))
    · exact .calling j loaded row hloaded (by rw [Table.get_set_ne _ hj, hrow]) hstatus

/-- The row of a run that a task has taken. -/
theorem InFlight.owned (h : InFlight runs s) (hown : s.owns = some id) :
    ∃ row, runs.get id = some row ∧ (row.status = .running ∨ row.status = .failed) := by
  cases h with
  | enqueueing j loaded row hloaded hrow => cases hown
  | taken j loaded row hloaded hrow hstatus =>
    cases hown
    exact ⟨row, hrow, hstatus⟩
  | calling j loaded row hloaded hrow hstatus =>
    cases hown
    exact ⟨row, hrow, hstatus⟩

theorem Sound.endSession (h : Sound st) (sid : SessionId) : Sound (st.endSession sid) where
  flight := fun j s hs => h.flight j s (Table.get_erase_eq_some.mp hs).2
  unique := fun j k s s' id hs hs' => h.unique j k s s' id (Table.get_erase_eq_some.mp hs).2
    (Table.get_erase_eq_some.mp hs').2

theorem Sound.setRow (h : Sound st) {run : AIRun}
    (hown : ∀ sid s, st.sessions.get sid = some s → s.owns = some id →
      run.status = .running ∨ run.status = .failed) :
    Sound { st with runs := st.runs.set id run } where
  flight := fun j s hs => (h.flight j s hs).set (hown j s hs)
  unique := h.unique

theorem Sound.setSession (h : Sound st) (hs : InFlight st.runs s)
    (hother : ∀ j s' id, j ≠ sid → st.sessions.get j = some s' → s.owns = some id →
      s'.owns ≠ some id) : Sound { st with sessions := st.sessions.set sid s } where
  flight := Table.forall_set h.flight hs
  unique := fun j k x y id hx hy hownx howny => by
    rcases Table.get_set_eq_some.mp hx with ⟨rfl, rfl⟩ | ⟨hj, hold⟩
    · rcases Table.get_set_eq_some.mp hy with ⟨rfl, _⟩ | ⟨hk, hold⟩
      · rfl
      · exact absurd howny (hother k y id hk hold hownx)
    · rcases Table.get_set_eq_some.mp hy with ⟨rfl, rfl⟩ | ⟨_, hold'⟩
      · exact absurd hownx (hother j x id hj hold howny)
      · exact h.unique j k x y id hold hold' hownx howny

/-- A run that nobody has taken. -/
theorem Sound.not_owned (h : Sound st) (hrow : ∀ row, st.runs.get id = some row →
      row.status = .reserved ∨ row.status = .pendingApproval) (hs : st.sessions.get sid = some s) :
    s.owns ≠ some id := by
  intro hown
  obtain ⟨row, hget, hstatus⟩ := (h.flight sid s hs).owned hown
  rcases hrow row hget with hfree | hfree <;> simp [hfree] at hstatus

/-- What a request writes that could not queue its run. -/
theorem Sound.marked_status (h : Sound st)
    (hs : st.sessions.get sid = some (.enqueueing id loaded)) (row : AIRun) :
    (AIRun.flush loaded (queueFailed loaded) row).status = .failed := by
  cases h.flight sid _ hs with
  | enqueueing _ _ _ hloaded _ =>
    refine flush_status ?_
    rw [hloaded]
    exact fun heq => nomatch heq

/-- What a task writes that refuses its run. -/
theorem Sound.refused_status (h : Sound st) (hs : st.sessions.get sid = some (.taken id loaded))
    (refusal : Refusal) (row : AIRun) :
    (AIRun.flush loaded (refusedRun loaded refusal) row).status = .failed := by
  cases h.flight sid _ hs with
  | taken _ _ _ hloaded _ _ =>
    rw [flush_status, refusedRun_status]
    rw [hloaded, refusedRun_status]
    exact fun heq => nomatch heq

theorem Sound.step (h : Sound st) (hstep : AiRuns.step st a = some t) : Sound t := by
  cases step_move hstep with
  | reserve sid id tenantId envelopeTenant job hnew =>
    have hrow := @Sound.setRow _ id h (reservedRun tenantId envelopeTenant job)
      (fun j s hs hown => absurd hown
        (h.not_owned (fun row hrow => by rw [hnew] at hrow; cases hrow) hs))
    exact hrow.setSession (.enqueueing id _ _ rfl (Table.get_set_self ..))
      (fun j s' k hj hs' hown => by cases hown)
  | accept sid id => exact ⟨h.flight, h.unique⟩
  | ended a sid _ _ => exact h.endSession sid
  | marked sid id loaded row hs _ _ =>
    exact (h.setRow (fun _ _ _ _ => .inr (h.marked_status hs row))).endSession sid
  | take sid id row hrow hreserved =>
    have hset := @Sound.setRow _ id h (takenRun row) (fun _ _ _ _ => .inl rfl)
    refine hset.setSession
      (.taken id _ _ rfl (Table.get_set_self ..) (.inl rfl)) (fun j s' k hj hs' hown => ?_)
    cases hown
    -- the others have found their run running or failed, and this one is reserved
    refine h.not_owned (fun x hx => .inl ?_) hs'
    rw [hrow] at hx
    cases hx
    exact hreserved
  | skip sid id => exact h
  | refuse sid refusal id loaded row hs _ =>
    exact (h.setRow (fun _ _ _ _ => .inr (h.refused_status hs refusal row))).endSession sid
  | call sid id loaded hs =>
    cases h.flight sid _ hs with
    | taken _ _ row hloaded hrow hstatus =>
      refine h.setSession (.calling id loaded row hloaded hrow hstatus)
        (fun j s' k hj hs' hown hown' => ?_)
      exact hj (h.unique j sid s' _ k hs' hs hown' hown)
  | finish sid answer id loaded row hs _ =>
    refine (h.endSession sid).setRow (fun j s' hs' hown => ?_)
    obtain ⟨hj, hs'⟩ := Table.get_erase_eq_some.mp hs'
    exact absurd (h.unique j sid s' _ id hs' hs hown rfl) hj
  | decide id tenantId decision row run hrow hpending _ =>
    refine h.setRow (fun j s hs hown => absurd hown (h.not_owned (fun x hx => .inr ?_) hs))
    rw [hrow] at hx
    cases hx
    exact hpending

/-! ## Statuses -/

/-- What a step does to the rows. -/
inductive Change (st : State) (a : Action) (t : State) : Prop
  | same (hruns : t.runs = st.runs) (htime : inTime st a = true)
  | inserted (id : RunId) (run : AIRun) (hnew : st.runs.get id = none)
      (hruns : t.runs = st.runs.set id run) (hreserved : run.status = .reserved)
      (htime : inTime st a = true)
  | changed (id : RunId) (row run : AIRun) (hrow : st.runs.get id = some row)
      (hruns : t.runs = st.runs.set id run) (hleft : run.status ≠ .reserved)
      (hmoved : (run.status = row.status ∨ moves a.marks row.status run.status = true) ↔
        inTime st a = true)

theorem Sound.change (h : Sound st) (hstep : AiRuns.step st a = some t) : Change st a t := by
  cases step_move hstep with
  | reserve sid id tenantId envelopeTenant job hnew =>
    exact .inserted id (reservedRun tenantId envelopeTenant job) hnew rfl rfl rfl
  | accept sid id => exact .same rfl rfl
  | ended a sid _ htime => exact .same rfl htime
  | marked sid id loaded row hs hkind hrow =>
    have hfailed := h.marked_status hs row
    refine .changed id row _ hrow rfl (by rw [hfailed]; decide) ?_
    have htime : inTime st (.enqueueRaised sid) =
        decide (row.status ∈ [Status.reserved, .running, .failed]) := by
      simp only [inTime, hs, hrow, hkind, Option.all_some]
      rfl
    rw [htime, hfailed]
    cases row.status <;> simp [moves, Action.marks]
  | take sid id row hrow hreserved =>
    refine .changed id row (takenRun row) hrow rfl (fun heq => nomatch heq) ?_
    exact iff_of_true (.inr (by rw [hreserved]; rfl)) rfl
  | skip sid id => exact .same rfl rfl
  | refuse sid refusal id loaded row hs hrow =>
    have hfailed := h.refused_status hs refusal row
    refine .changed id row _ hrow rfl (by rw [hfailed]; decide) (iff_of_true ?_ rfl)
    obtain ⟨x, hx, hstatus⟩ := (h.flight sid _ hs).owned rfl
    rw [hrow] at hx
    cases hx
    rw [hfailed]
    rcases hstatus with hrunning | hfailed
    · exact .inr (by rw [hrunning]; rfl)
    · exact .inl hfailed.symm
  | call sid id loaded hs => exact .same rfl rfl
  | finish sid answer id loaded row hs hrow =>
    cases h.flight sid _ hs with
    | calling _ _ x hloaded hx hstatus =>
      rw [hrow] at hx
      cases hx
      have hdirty : (executedRun loaded answer).status ≠ loaded.status := by
        rw [executedRun_status, hloaded]
        split <;> exact fun heq => nomatch heq
      have hnew : (AIRun.flush loaded (executedRun loaded answer) row).status =
          if loaded.accepts answer = true then .pendingApproval else .failed := by
        rw [flush_status hdirty, executedRun_status]
      have htime : inTime st (.finish sid answer) =
          (!loaded.accepts answer || decide (row.status ≠ .failed)) := by
        simp only [inTime, hs, hrow, Option.all_some]
      refine .changed id row _ hrow rfl ?_ ?_
      · rw [hnew]
        split <;> exact fun heq => nomatch heq
      · rw [hnew, htime]
        cases loaded.accepts answer <;> rcases hstatus with hstatus | hstatus <;>
          simp [moves, hstatus]
  | decide id tenantId decision row run hrow hpending hdecided =>
    refine .changed id row run hrow rfl ?_ (iff_of_true (.inr ?_) rfl)
    · rcases hdecided with heq | heq <;> rw [heq] <;> decide
    · rcases hdecided with heq | heq <;> rw [hpending, heq] <;> rfl

/-- **A step is orderly exactly when it comes in time.** -/
theorem Sound.orderly_iff (h : Sound st) (hstep : AiRuns.step st a = some t) :
    Orderly st a t ↔ inTime st a = true := by
  cases h.change hstep with
  | same hruns htime => exact iff_of_true (.of_same hruns a) htime
  | inserted id run hnew hruns hreserved htime =>
    exact iff_of_true (.of_insert hnew hruns hreserved a) htime
  | changed id row run hrow hruns hleft hmoved => exact (orderly_set_iff hrow hruns a).trans hmoved

/-! ## Calls -/

/-- The run is there and has been taken, or has failed before. -/
def Left (st : State) (id : RunId) : Prop :=
  ∃ row, st.runs.get id = some row ∧ row.status ≠ .reserved

/-- No run becomes reserved again. -/
theorem Sound.left_step (h : Sound st) (hstep : AiRuns.step st a = some t) (hleft : Left st id) :
    Left t id := by
  obtain ⟨old, hold, hstatus⟩ := hleft
  cases h.change hstep with
  | same hruns htime => exact ⟨old, by rw [hruns, hold], hstatus⟩
  | inserted j run hnew hruns hreserved htime =>
    have hne : id ≠ j := fun heq => by
      rw [heq, hnew] at hold
      cases hold
    exact ⟨old, by rw [hruns, Table.get_set_ne _ hne, hold], hstatus⟩
  | changed j row run hrow hruns hnew hmoved =>
    by_cases hj : id = j
    · exact ⟨run, by rw [hruns, hj, Table.get_set_self], hnew⟩
    · exact ⟨old, by rw [hruns, Table.get_set_ne _ hj, hold], hstatus⟩

/-- The provider has been called for `seen`, each time by a task that had taken the run. -/
structure Called (st : State) (seen : List RunId) : Prop where
  sound : Sound st
  nodup : seen.Nodup
  left : ∀ id ∈ seen, Left st id
  taken : ∀ sid id loaded, st.sessions.get sid = some (.taken id loaded) → id ∉ seen

/-- A task that has taken its run had done so before, or has found it reserved just now. -/
theorem taken_step (hstep : AiRuns.step st a = some t)
    (ht : t.sessions.get sid = some (.taken id loaded)) :
    (st.sessions.get sid = some (.taken id loaded) ∧ a ≠ .callProvider sid) ∨
      ∃ row, st.runs.get id = some row ∧ row.status = .reserved := by
  cases step_move hstep with
  | reserve other j tenantId envelopeTenant job _ =>
    rcases Table.get_set_eq_some.mp ht with ⟨_, heq⟩ | ⟨_, hold⟩
    · cases heq
    · exact .inl ⟨hold, fun heq => nomatch heq⟩
  | take other j row hrow hreserved =>
    rcases Table.get_set_eq_some.mp ht with ⟨_, heq⟩ | ⟨_, hold⟩
    · cases heq
      exact .inr ⟨row, hrow, hreserved⟩
    · exact .inl ⟨hold, fun heq => nomatch heq⟩
  | call other j copy _ =>
    rcases Table.get_set_eq_some.mp ht with ⟨_, heq⟩ | ⟨hne, hold⟩
    · cases heq
    · exact .inl ⟨hold, fun heq => hne (Action.callProvider.inj heq).symm⟩
  | ended a other hcall _ => exact .inl ⟨(Table.get_erase_eq_some.mp ht).2, hcall sid⟩
  | marked | refuse | finish =>
    exact .inl ⟨(Table.get_erase_eq_some.mp ht).2, fun heq => nomatch heq⟩
  | accept | skip | decide => exact .inl ⟨ht, fun heq => nomatch heq⟩

theorem providerCalls_eq (h : id ∈ providerCalls st a) :
    ∃ sid loaded, a = .callProvider sid ∧ st.sessions.get sid = some (.taken id loaded) ∧
      providerCalls st a = [id] := by
  unfold providerCalls at h
  split at h
  · next sid =>
    split at h
    · next j loaded hs =>
      cases List.mem_singleton.mp h
      exact ⟨sid, loaded, rfl, hs, by simp only [providerCalls, hs]⟩
    · cases h
  · cases h

/-- **A call is the first one for its run.** -/
theorem Called.step {seen : List RunId} (h : Called st seen) (hstep : AiRuns.step st a = some t) :
    Called t (seen ++ providerCalls st a) := by
  have hfresh : ∀ id ∈ providerCalls st a, id ∉ seen := fun id hid => by
    obtain ⟨sid, loaded, _, hs, _⟩ := providerCalls_eq hid
    exact h.taken sid id loaded hs
  refine ⟨h.sound.step hstep, ?_, fun id hid => ?_, fun sid id loaded ht hid => ?_⟩
  · refine List.nodup_append'.mpr ⟨h.nodup, ?_, fun id hid hcall => hfresh id hcall hid⟩
    cases hcalls : providerCalls st a with
    | nil => exact List.nodup_nil
    | cons id rest =>
      have hid : id ∈ providerCalls st a := by
        rw [hcalls]
        exact List.mem_cons_self ..
      obtain ⟨_, _, _, _, hsingle⟩ := providerCalls_eq hid
      rw [← hcalls, hsingle]
      exact List.nodup_singleton id
  · rcases List.mem_append.mp hid with hold | hcall
    · exact h.sound.left_step hstep (h.left id hold)
    · obtain ⟨sid, loaded, _, hs, _⟩ := providerCalls_eq hcall
      obtain ⟨row, hrow, hstatus⟩ := (h.sound.flight sid _ hs).owned rfl
      refine h.sound.left_step hstep ⟨row, hrow, ?_⟩
      rcases hstatus with heq | heq <;> rw [heq] <;> decide
  · rcases taken_step hstep ht with ⟨hs, hother⟩ | ⟨row, hrow, hreserved⟩
    · rcases List.mem_append.mp hid with hold | hcall
      · exact h.taken sid id loaded hs hold
      · obtain ⟨caller, copy, rfl, hcaller, _⟩ := providerCalls_eq hcall
        have hsame := h.sound.unique caller sid _ _ id hcaller hs rfl rfl
        exact hother (congrArg Action.callProvider hsame)
    · have hleft : Left st id := by
        rcases List.mem_append.mp hid with hold | hcall
        · exact h.left id hold
        obtain ⟨caller, copy, _, hcaller, _⟩ := providerCalls_eq hcall
        obtain ⟨x, hx, hstatus⟩ := (h.sound.flight caller _ hcaller).owned rfl
        refine ⟨x, hx, ?_⟩
        rcases hstatus with heq | heq <;> rw [heq] <;> decide
      obtain ⟨x, hx, hstatus⟩ := hleft
      rw [hrow] at hx
      cases hx
      exact hstatus hreserved

/-! ## Every run -/

/-- **A run is executed and decided at most once.** The provider is called at most once for each row.
All statuses move as they should, and a decided run keeps its status, exactly when each mark of a
failed queueing comes in time. -/
theorem executed_and_decided_once (as : List Action) :
    (emitted step providerCalls start as).Nodup ∧
      (Along step Orderly start as ↔
        Along step (fun st a _ => inTime st a = true) start as) := by
  constructor
  · have hstart : Called start [] :=
      ⟨sound_start, List.nodup_nil, fun _ h => (by cases h), fun _ _ _ h => (by cases h)⟩
    exact emitted_rule (G := fun _ _ _ => True) (I := Called)
      (fun st a t seen h _ hstep => h.step hstep) (fun st seen h => h.nodup) hstart
      (along_of_forall (Q := fun _ => True) (fun _ _ => trivial) start)
  · exact along_iff (I := Sound) (fun st a t h hstep => h.step hstep)
      (fun st a t h hstep => h.orderly_iff hstep) sound_start

/-- A job of a proposal that costs a cent. -/
def siteMapJob : Job := ⟨.siteMap, 1 / 100, 1, ⟨1, 1⟩⟩

/-- The queue takes the run of a proposal although its call raises. A worker executes it and it is
approved before the request marks it as failed. -/
def markedLate : List Action :=
  [.reserve 0 7 1 1 siteMapJob, .accept 0, .take 1 7, .callProvider 1,
    .finish 1 (.valid ⟨true, 10, 10⟩), .decide 7 1 .approve]

/-- An approved run becomes a failed one. -/
theorem decided_run_failed : ¬ Along step Orderly start (markedLate ++ [.enqueueRaised 0]) := by
  intro hall
  have hrun : (exec step start markedLate).any (fun st =>
      (step st (.enqueueRaised 0)).any (fun t =>
        (st.runs.get 7).any (fun row => decide (row.status = .approved)) &&
          (t.runs.get 7).any (fun row => decide (row.status = .failed)))) = true := by
    decide +kernel
  obtain ⟨st, hst, hrun⟩ := (Option.any_eq_true _ _).mp hrun
  obtain ⟨t, ht, hfacts⟩ := (Option.any_eq_true _ _).mp hrun
  obtain ⟨hbefore, hafter⟩ := Bool.and_eq_true_iff.mp hfacts
  obtain ⟨row, hrow, happroved⟩ := (Option.any_eq_true _ _).mp hbefore
  obtain ⟨row', hrow', hfailed⟩ := (Option.any_eq_true _ _).mp hafter
  obtain ⟨x, hx, hmoved⟩ := (hall.at hst ht).moved 7 row hrow
  rw [hrow'] at hx
  cases hx
  rw [of_decide_eq_true happroved, of_decide_eq_true hfailed] at hmoved
  revert hmoved
  decide

end MegaPanel.AiRuns
