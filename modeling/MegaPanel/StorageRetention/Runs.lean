import MegaPanel.StorageRetention.Model

set_option autoImplicit false

/-! # The statuses of retention runs

What a step of the panel can do (`Move`), and what this means for the runs: a run that has left
the queue never returns to it, no two sweeps execute one run, and at most one sweep deletes data
(`Sound`). A run that is `processing` belongs to a sweep for as long as no sweep dies while it
executes one (`Attended`).
-/

namespace MegaPanel.StorageRetention

open MegaPanel.Lib

variable {hash : Policy → String}

/-! ## What a step does -/

variable {w t : World} {id : RunId} {now : Time} {execution : Execution} {d : Deletion}
  {sid : SweepId} {pid : PassId} {a : Action}

/-- What a step of an execution does to its phase. -/
inductive PhaseMove (w : World) (now : Time) (execution : Execution) : Operation → Phase → Prop
  | lock (hphase : execution.phase = .claimed)
      (hfree : ∀ sid sweep, w.sweeps.get sid = some sweep → sweep.holdsLock = false) :
      PhaseMove w now execution .lock (.deleting ⟨w.policy, Source.all, [], []⟩)
  | drain (d : Deletion) (source : Source) (rest : List Source)
      (hphase : execution.phase = .deleting d) (hbatch : d.batch = [])
      (hsources : d.sources = source :: rest)
      (hnone : w.matching source now execution.tenantId d = []) :
      PhaseMove w now execution (.select []) (.deleting { d with sources := rest })
  | select (ids : List RowId) (d : Deletion) (source : Source) (rest : List Source)
      (hphase : execution.phase = .deleting d) (hbatch : d.batch = [])
      (hsources : d.sources = source :: rest) (hids : ids ≠ [])
      (hfound : ∀ id ∈ ids, id ∈ w.matching source now execution.tenantId d) :
      PhaseMove w now execution (.select ids) (.deleting { d with batch := ids })
  | delete (d : Deletion) (source : Source) (rest : List Source)
      (hphase : execution.phase = .deleting d) (hsources : d.sources = source :: rest) :
      PhaseMove w now execution .delete (.deleting { d with
        batch := [], removed := d.removed ++ d.batch.map (fun id => (source, id)) })
  | raise : PhaseMove w now execution .raise .raised

/-- The rows that a request may write: a new preview, or a preview that is queued. -/
inductive Requested (w : World) (id : RunId) : Run → Prop
  | preview (run : Run) (hnew : w.runs.get id = none) (hstatus : run.status = .preview) :
      Requested w id run
  | queue (run : Run) (hget : w.runs.get id = some run) (hstatus : run.status = .preview) :
      Requested w id { run with status := .queued }

/-- A request of the panel or a part of a schedule pass. -/
def Action.isPanel : Action → Bool
  | .preview .. | .queuePreview .. | .schedule .. | .scheduleNext .. | .scheduleAbort _ => true
  | _ => false

inductive Move (w : World) : Action → World → Prop
  | configure (policy : Policy) : Move w (.configure policy) { w with policy := policy }
  | change (id : RowId) (row : Option Row) (data : Table RowId Row)
      (hfree : ∀ sid sweep, w.sweeps.get sid = some sweep → sweep.removes id = false)
      (hself : data.get id = row) (hother : ∀ j, j ≠ id → data.get j = w.data.get j) :
      Move w (.change id row) { w with data := data }
  | request (a : Action) (id : RunId) (run : Run) (hrun : Requested w id run)
      (ha : a.isPanel = true) : Move w a (w.setRun id run)
  | pass (a : Action) (passes : Table PassId Pass)
      (hfresh : ∀ pid pass, passes.get pid = some pass → ∀ r ∈ pass.fresh,
        r.2.status = .queued ∨ ∃ q old, w.passes.get q = some old ∧ r ∈ old.fresh)
      (ha : a.isPanel = true) : Move w a { w with passes := passes }
  | scheduleCommit (pid : PassId) (pass : Pass) (hget : w.passes.get pid = some pass)
      (hnodup : (pass.fresh.map (·.1)).Nodup)
      (hnew : ∀ id ∈ pass.fresh.map (·.1), w.runs.get id = none) :
      Move w (.scheduleCommit pid)
        { w with runs := w.runs.insertAll pass.fresh, passes := w.passes.erase pid }
  | start (sid : SweepId) (limit : Nat) (now : Time) (hidle : w.sweeps.get sid = none) :
      Move w (.start sid limit now) (w.setSweep sid ⟨now, w.queuedIds limit, none⟩)
  | skip (sid : SweepId) (now : Time) (id : RunId) (rest : List RunId)
      (hget : w.sweeps.get sid = some ⟨now, id :: rest, none⟩)
      (hrun : ∀ run, w.runs.get id = some run → run.status ≠ .queued) :
      Move w (.claim sid) (w.setSweep sid ⟨now, rest, none⟩)
  | policyChanged (sid : SweepId) (now : Time) (id : RunId) (rest : List RunId) (run : Run)
      (hget : w.sweeps.get sid = some ⟨now, id :: rest, none⟩)
      (hrun : w.runs.get id = some run) (hstatus : run.status = .queued) :
      Move w (.claim sid) ((w.setRun id (run.policyChanged now)).setSweep sid ⟨now, rest, none⟩)
  | claim (sid : SweepId) (now : Time) (id : RunId) (rest : List RunId) (run : Run)
      (hget : w.sweeps.get sid = some ⟨now, id :: rest, none⟩)
      (hrun : w.runs.get id = some run) (hstatus : run.status = .queued) :
      Move w (.claim sid) ((w.setRun id (run.claimed now)).setSweep sid
        ⟨now, rest, some ⟨id, run.tenantId, .claimed⟩⟩)
  | phase (sid : SweepId) (now : Time) (todo : List RunId) (execution : Execution)
      (op : Operation) (phase : Phase)
      (hget : w.sweeps.get sid = some ⟨now, todo, some execution⟩)
      (hphase : PhaseMove w now execution op phase) :
      Move w (.execute sid op) (w.setPhase sid ⟨now, todo, some execution⟩ execution phase)
  | finish (sid : SweepId) (now completedAt : Time) (todo : List RunId) (execution : Execution)
      (d : Deletion) (hget : w.sweeps.get sid = some ⟨now, todo, some execution⟩)
      (hphase : execution.phase = .deleting d) (hbatch : d.batch = []) (hsources : d.sources = []) :
      Move w (.execute sid (.finish completedAt))
        (w.finish sid ⟨now, todo, some execution⟩ execution d completedAt)
  | fail (sid : SweepId) (now completedAt : Time) (todo : List RunId) (execution : Execution)
      (hget : w.sweeps.get sid = some ⟨now, todo, some execution⟩) :
      Move w (.execute sid (.fail completedAt))
        { (w.setSweep sid ⟨now, todo, none⟩) with
          runs := w.runs.modify execution.runId (fun run => run.raised completedAt) }
  | complete (sid : SweepId) (now : Time) (hget : w.sweeps.get sid = some ⟨now, [], none⟩) :
      Move w (.complete sid) { w with sweeps := w.sweeps.erase sid }
  | die (sid : SweepId) : Move w (.die sid) { w with sweeps := w.sweeps.erase sid }

theorem not_any_rows {κ ρ : Type*} [DecidableEq κ] {t : Table κ ρ} {p : κ × ρ → Bool}
    (h : t.rows.any p = false) {k : κ} {r : ρ} (hget : t.get k = some r) : p (k, r) = false := by
  cases hp : p (k, r) with
  | false => rfl
  | true => exact absurd (List.any_eq_true.mpr ⟨_, Table.mem_rows.mpr hget, hp⟩) (by simp [h])

theorem requested_of_ok {current : String} {tenantId : TenantId} {requestedBy : UserId}
    {confirmation : String} {run : Run}
    (h : queuePreviewRun current (w.runs.get id) tenantId requestedBy confirmation now = .ok run) :
    Requested w id run := by
  cases hget : w.runs.get id with
  | none =>
    rw [hget] at h
    cases h
  | some old =>
    simp only [hget, queuePreviewRun] at h
    split_ifs at h with _ _ hvalid
    cases h
    exact .queue old hget (not_not.mp (not_or.mp hvalid).1)

theorem select_cases {ids : List RowId} {d' : Deletion} (hphase : execution.phase = .deleting d)
    (h : w.select now execution.tenantId ids d = some d') :
    PhaseMove w now execution (.select ids) (.deleting d') := by
  unfold World.select at h
  split at h
  · next source rest hbatch hsources =>
    split at h
    · next hids =>
      simp only [isBatch, Bool.and_eq_true, List.all_eq_true, decide_eq_true_eq] at hids
      obtain ⟨⟨_, hfound⟩, hlength⟩ := hids
      cases h
      split
      · next hnil =>
        subst hnil
        have hnone : w.matching source now execution.tenantId d = [] := by
          rw [List.length_nil] at hlength
          have hpos : 0 < batchSize := by decide
          exact List.length_eq_zero_iff.mp (by omega)
        exact .drain d source rest hphase hbatch hsources hnone
      · next hnil => exact .select ids d source rest hphase hbatch hsources hnil hfound
    · cases h
  · cases h

theorem execute_move {todo : List RunId} {op : Operation}
    (hget : w.sweeps.get sid = some ⟨now, todo, some execution⟩)
    (h : w.execute sid ⟨now, todo, some execution⟩ execution op = some t) :
    Move w (.execute sid op) t := by
  cases op with
  | lock =>
    simp only [World.execute] at h
    split at h
    · next hfree =>
      cases h
      refine .phase sid now todo execution .lock _ hget (.lock hfree.1 (fun i sweep hi => ?_))
      have hall := List.all_eq_true.mp hfree.2 _ (Table.mem_rows.mpr hi)
      simpa using hall
    · cases h
  | select ids =>
    simp only [World.execute] at h
    split at h
    · next d hphase =>
      obtain ⟨d', hd', rfl⟩ := Option.map_eq_some_iff.mp h
      exact .phase sid now todo execution (.select ids) _ hget (select_cases hphase hd')
    · cases h
  | delete =>
    simp only [World.execute] at h
    split at h
    · next d hphase =>
      obtain ⟨d', hd', rfl⟩ := Option.map_eq_some_iff.mp h
      unfold Deletion.delete at hd'
      split at hd'
      · next id ids source rest hbatch hsources =>
        cases hd'
        rw [← hbatch]
        exact .phase sid now todo execution .delete _ hget
          (.delete d source rest hphase hsources)
      · cases hd'
    · cases h
  | finish completedAt =>
    simp only [World.execute] at h
    split at h
    · next d hphase =>
      split at h
      · next hdone =>
        cases h
        exact .finish sid now completedAt todo execution d hget hphase hdone.1 hdone.2
      · cases h
    · cases h
  | raise =>
    simp only [World.execute] at h
    split_ifs at h
    cases h
    exact .phase sid now todo execution .raise .raised hget .raise
  | fail completedAt =>
    simp only [World.execute] at h
    split at h
    · cases h
      exact .fail sid now completedAt todo execution hget
    · cases h

theorem claim_move {rest : List RunId} (hget : w.sweeps.get sid = some ⟨now, id :: rest, none⟩) :
    Move w (.claim sid) (w.claim hash sid now id rest) := by
  unfold World.claim
  split
  · next hnone =>
    exact .skip sid now id rest hget (fun run hrun => by rw [hnone] at hrun; cases hrun)
  · next run hrun =>
    split
    · next hstatus =>
      refine .skip sid now id rest hget (fun run' hrun' => ?_)
      cases hrun.symm.trans hrun'
      exact hstatus
    · next hstatus =>
      rw [not_not] at hstatus
      split
      · exact .policyChanged sid now id rest run hget hrun hstatus
      · exact .claim sid now id rest run hget hrun hstatus

theorem pass_fresh {old pass : Pass} (hold : w.passes.get pid = some old)
    (hpass : ∀ r ∈ pass.fresh, r ∈ old.fresh ∨ r.2.status = .queued) (q : PassId) (p : Pass)
    (hp : (w.passes.set pid pass).get q = some p) :
    ∀ r ∈ p.fresh, r.2.status = .queued ∨ ∃ q' old, w.passes.get q' = some old ∧ r ∈ old.fresh := by
  intro r hr
  rcases Table.get_set_eq_some.mp hp with ⟨_, rfl⟩ | ⟨_, hq⟩
  · rcases hpass r hr with hmem | hstatus
    · exact .inr ⟨pid, old, hold, hmem⟩
    · exact .inl hstatus
  · exact .inr ⟨q, p, hq, hr⟩

theorem scheduleNext_move {createdAt : Time}
    (h : step hash w (.scheduleNext pid id createdAt) = some t) :
    Move w (.scheduleNext pid id createdAt) t := by
  obtain ⟨pass, hpass, h⟩ := Option.bind_eq_some_iff.mp h
  split at h
  · cases h
  · next tenantId rest htodo =>
    split at h
    · cases h
      exact .pass _ _ (pass_fresh hpass (fun r hr => .inl hr)) rfl
    · cases h
      refine .pass _ _ (pass_fresh hpass (fun r hr => ?_)) rfl
      rcases List.mem_append.mp hr with hold | hnew
      · exact .inl hold
      · rw [List.mem_singleton] at hnew
        exact .inr (hnew ▸ rfl)

theorem step_move (h : step hash w a = some t) : Move w a t := by
  cases a with
  | configure policy =>
    cases h
    exact .configure policy
  | change id row =>
    simp only [step] at h
    split_ifs at h with hfree
    rw [Bool.not_eq_true] at hfree
    have hfree' : ∀ sid sweep, w.sweeps.get sid = some sweep → sweep.removes id = false :=
      fun sid sweep hget => not_any_rows hfree hget
    cases row with
    | some row =>
      cases h
      exact .change id (some row) _ hfree' (Table.get_set_self ..)
        (fun j hj => Table.get_set_ne _ hj _)
    | none =>
      cases h
      exact .change id none _ hfree' (Table.get_erase_self ..)
        (fun j hj => Table.get_erase_ne _ hj)
  | preview id tenantId requestedBy expiresAt createdAt =>
    simp only [step] at h
    split at h
    · next hnew =>
      cases h
      exact .request _ id _ (.preview _ hnew rfl) rfl
    · cases h
  | queuePreview id tenantId requestedBy confirmation now =>
    simp only [step] at h
    split at h
    · next run hrun =>
      cases h
      exact .request _ id run (requested_of_ok hrun) rfl
    · cases h
  | schedule pid tenants now =>
    simp only [step] at h
    split at h
    · cases h
      refine .pass _ _ (fun q pass hq r hr => ?_) rfl
      rcases Table.get_set_eq_some.mp hq with ⟨_, rfl⟩ | ⟨_, hq⟩
      · cases hr
      · exact .inr ⟨q, pass, hq, hr⟩
    · cases h
  | scheduleNext pid id createdAt => exact scheduleNext_move h
  | scheduleCommit pid =>
    obtain ⟨pass, hpass, h⟩ := Option.bind_eq_some_iff.mp h
    split at h
    · next hnew =>
      cases h
      exact .scheduleCommit pid pass hpass hnew.2.1 hnew.2.2
    · cases h
  | scheduleAbort pid =>
    obtain ⟨pass, hpass, rfl⟩ := Option.map_eq_some_iff.mp h
    refine .pass _ _ (fun q p hq r hr => .inr ⟨q, p, ?_, hr⟩) rfl
    rw [Table.get_erase] at hq
    split_ifs at hq
    exact hq
  | start sid limit now =>
    simp only [step] at h
    split at h
    · next hidle =>
      cases h
      exact .start sid limit now hidle
    · cases h
  | claim sid =>
    simp only [step] at h
    split at h
    · next now id rest hget =>
      cases h
      exact claim_move hget
    · cases h
  | execute sid op =>
    simp only [step] at h
    split at h
    · next now todo execution hget => exact execute_move hget h
    · cases h
  | complete sid =>
    simp only [step] at h
    split at h
    · next now hget =>
      cases h
      exact .complete sid now hget
    · cases h
  | die sid =>
    obtain ⟨_, _, rfl⟩ := Option.map_eq_some_iff.mp h
    exact .die sid

/-! ## Runs never return to the queue -/

variable {runs : Table RunId Run} {j : RunId}

def Status.rank : Status → Nat
  | .preview => 0
  | .queued => 1
  | .processing => 2
  | .succeeded | .failed => 3

/-- The run has left the queue. -/
def Status.hasLeft (status : Status) : Bool := decide (2 ≤ status.rank)

/-- The run has reached `succeeded` or `failed`. -/
def Status.isSettled (status : Status) : Bool := decide (status.rank = 3)

/-- What no step changes of a run. -/
structure Kept (run run' : Run) : Prop where
  tenantId : run'.tenantId = run.tenantId
  createdAt : run'.createdAt = run.createdAt
  startedAt : run.status.hasLeft = true → run'.startedAt = run.startedAt
  rank : run.status.rank ≤ run'.status.rank

theorem Kept.rfl (run : Run) : Kept run run := ⟨Eq.refl _, Eq.refl _, fun _ => Eq.refl _, le_refl _⟩

theorem Kept.hasLeft {run run' : Run} (h : Kept run run') (hleft : run.status.hasLeft = true) :
    run'.status.hasLeft = true := by
  simp only [Status.hasLeft, decide_eq_true_eq] at *
  have := h.rank
  omega

theorem Status.rank_le (status : Status) : status.rank ≤ 3 := by
  cases status <;> decide

theorem kept_set {old new run : Run} (hold : runs.get id = some old) (hnew : Kept old new)
    (hrun : runs.get j = some run) :
    ∃ run', (runs.set id new).get j = some run' ∧ Kept run run' := by
  by_cases hj : j = id
  · subst hj
    cases hold.symm.trans hrun
    exact ⟨new, Table.get_set_self .., hnew⟩
  · exact ⟨run, by rw [Table.get_set_ne _ hj, hrun], .rfl run⟩

theorem kept_modify {f : Run → Run} {run : Run} (hf : ∀ r, Kept r (f r))
    (hrun : runs.get j = some run) :
    ∃ run', (runs.modify id f).get j = some run' ∧ Kept run run' := by
  rw [Table.get_modify]
  split
  · next hj => exact ⟨f run, by rw [← hj, hrun]; rfl, hf run⟩
  · exact ⟨run, hrun, .rfl run⟩

theorem run_kept (h : Move w a t) {run : Run} (hrun : w.runs.get id = some run) :
    ∃ run', t.runs.get id = some run' ∧ Kept run run' := by
  cases h with
  | configure | change | pass | start | skip | phase | complete | die =>
    exact ⟨run, hrun, .rfl run⟩
  | request _ j new hnew =>
    cases hnew with
    | preview new hfree =>
      have hne : id ≠ j := fun heq => by rw [heq, hfree] at hrun; cases hrun
      exact ⟨run, (Table.get_set_ne _ hne _).trans hrun, .rfl run⟩
    | queue old hold hstatus =>
      exact kept_set hold ⟨Eq.refl _, Eq.refl _, fun _ => Eq.refl _,
        by simp [hstatus, Status.rank]⟩ hrun
  | scheduleCommit pid pass _ _ hfree =>
    have hold : id ∉ pass.fresh.map (·.1) := fun hmem => by
      rw [hfree id hmem] at hrun
      cases hrun
    exact ⟨run, (Table.get_insertAll_of_notMem hold _).trans hrun, .rfl run⟩
  | policyChanged _ _ _ _ old _ hold hstatus | claim _ _ _ _ old _ hold hstatus =>
    have hrank : old.status.rank = 1 := by rw [hstatus]; rfl
    have hwaits : old.status.hasLeft = false := by rw [hstatus]; rfl
    refine kept_set hold ⟨Eq.refl _, Eq.refl _, fun hleft => ?_, ?_⟩ hrun
    · rw [hwaits] at hleft
      cases hleft
    · rw [hrank]
      show 1 ≤ _ + 2
      omega
  | finish | fail =>
    exact kept_modify (fun r => ⟨Eq.refl _, Eq.refl _, fun _ => Eq.refl _, r.status.rank_le⟩) hrun

/-! ## Who executes a run -/

variable {sweeps : Table SweepId Sweep} {e : Execution}

/-- A sweep is executing a run, as it knows it. -/
def Executes (sweeps : Table SweepId Sweep) (sid : SweepId) (now : Time) (e : Execution) : Prop :=
  ∃ todo, sweeps.get sid = some ⟨now, todo, some e⟩

theorem executes_set {j : SweepId} {sweep : Sweep} : Executes (sweeps.set sid sweep) j now e ↔
      (j = sid ∧ sweep.now = now ∧ sweep.executing = some e) ∨
        (j ≠ sid ∧ Executes sweeps j now e) := by
  unfold Executes
  constructor
  · rintro ⟨todo, h⟩
    rcases Table.get_set_eq_some.mp h with ⟨hj, rfl⟩ | ⟨hj, h⟩
    · exact .inl ⟨hj, rfl, rfl⟩
    · exact .inr ⟨hj, todo, h⟩
  · rintro (⟨rfl, rfl, he⟩ | ⟨hj, todo, h⟩)
    · exact ⟨sweep.todo, by rw [Table.get_set_self, ← he]⟩
    · exact ⟨todo, by rw [Table.get_set_ne _ hj, h]⟩

theorem executes_erase {j : SweepId} :
    Executes (sweeps.erase sid) j now e ↔ j ≠ sid ∧ Executes sweeps j now e := by
  unfold Executes
  by_cases hj : j = sid
  · simp [hj]
  · simp [hj, Table.get_erase_ne]

theorem Executes.get {sweeps : Table SweepId Sweep} {sid : SweepId} {now now' : Time}
    {e : Execution} {todo : List RunId} {o : Option Execution} (h : Executes sweeps sid now e)
    (hget : sweeps.get sid = some ⟨now', todo, o⟩) : now' = now ∧ o = some e := by
  obtain ⟨todo', h⟩ := h
  cases h.symm.trans hget
  exact ⟨rfl, rfl⟩

/-- How a sweep comes to execute `e` after a step: it did so before and the step was not its own, or
the step has changed the phase, or it has just claimed the run. -/
inductive ExecutesMove (w t : World) (sid : SweepId) (now : Time) (e : Execution) : Action → Prop
  | same (a : Action) (hold : Executes w.sweeps sid now e) (ha : ∀ op, a ≠ .execute sid op) :
      ExecutesMove w t sid now e a
  | phase (op : Operation) (phase : Phase) (hold : Executes w.sweeps sid now { e with phase := phase })
      (hmove : PhaseMove w now { e with phase := phase } op e.phase) :
      ExecutesMove w t sid now e (.execute sid op)
  | claim (run : Run) (hold : w.runs.get e.runId = some run) (hstatus : run.status = .queued)
      (htenant : run.tenantId = e.tenantId) (hphase : e.phase = .claimed)
      (hrun : t.runs.get e.runId = some (run.claimed now)) : ExecutesMove w t sid now e (.claim sid)

theorem executes_cases (h : Move w a t) (he : Executes t.sweeps sid now e) :
    ExecutesMove w t sid now e a := by
  have hpanel : a.isPanel = true → ∀ op, a ≠ .execute sid op := by
    rintro ha op rfl
    cases ha
  cases h with
  | configure | change | scheduleCommit => exact .same _ he nofun
  | request _ _ _ _ ha | pass _ _ _ ha => exact .same _ he (hpanel ha)
  | start | skip | policyChanged =>
    rcases executes_set.mp he with ⟨_, _, hnone⟩ | ⟨_, he⟩
    · cases hnone
    · exact .same _ he nofun
  | finish | fail =>
    rcases executes_set.mp he with ⟨_, _, hnone⟩ | ⟨hj, he⟩
    · cases hnone
    · exact .same _ he (fun op heq => hj (Action.execute.inj heq).1.symm)
  | complete | die => exact .same _ (executes_erase.mp he).2 nofun
  | claim j now' id rest run hget hrun hstatus =>
    rcases executes_set.mp he with ⟨rfl, rfl, hself⟩ | ⟨_, he⟩
    · cases hself
      exact .claim run hrun hstatus rfl rfl (Table.get_set_self ..)
    · exact .same _ he nofun
  | phase j now' todo old op phase hget hphase =>
    rcases executes_set.mp he with ⟨rfl, rfl, hself⟩ | ⟨hj, he⟩
    · cases hself
      exact .phase op old.phase ⟨todo, hget⟩ hphase
    · exact .same _ he (fun op heq => hj (Action.execute.inj heq).1.symm)

/-- A run that is executed before a step is executed after it by the same sweep, or has reached
its end, or the sweep has died. -/
theorem executes_kept (h : Move w a t) (he : Executes w.sweeps sid now e) :
    (∃ phase, Executes t.sweeps sid now { e with phase := phase }) ∨
      (∀ run, t.runs.get e.runId = some run → run.status.isSettled = true) ∨ a = .die sid := by
  have hset : ∀ {j : SweepId} {sweep : Sweep}, (j = sid → ∃ phase, sweep.now = now
      ∧ sweep.executing = some { e with phase := phase }) →
      ∃ phase, Executes (w.sweeps.set j sweep) sid now { e with phase := phase } := by
    intro j sweep hj
    by_cases hsid : sid = j
    · obtain ⟨phase, hnow, hexec⟩ := hj hsid.symm
      exact ⟨phase, executes_set.mpr (.inl ⟨hsid, hnow, hexec⟩)⟩
    · exact ⟨e.phase, executes_set.mpr (.inr ⟨hsid, he⟩)⟩
  cases h with
  | configure | change | request | pass | scheduleCommit => exact .inl ⟨e.phase, he⟩
  | start j limit now' hidle =>
    refine .inl (hset (fun hj => ?_))
    obtain ⟨todo, hget⟩ := he
    rw [hj, hget] at hidle
    cases hidle
  | skip j now' id rest hget | policyChanged j now' id rest run hget
  | claim j now' id rest run hget =>
    refine .inl (hset (fun hj => ?_))
    cases (he.get (hj ▸ hget)).2
  | phase j now' todo old op phase hget =>
    refine .inl (hset (fun hj => ?_))
    obtain ⟨hnow, hold⟩ := he.get (hj ▸ hget)
    cases hold
    exact ⟨phase, hnow, rfl⟩
  | finish j now' completedAt todo old d hget | fail j now' completedAt todo old hget =>
    by_cases hj : sid = j
    · obtain ⟨_, hold⟩ := he.get (hj ▸ hget)
      cases hold
      refine .inr (.inl (fun run hrun => ?_))
      obtain ⟨_, _, rfl⟩ := Option.map_eq_some_iff.mp ((Table.get_modify_self ..).symm.trans hrun)
      rfl
    · exact .inl ⟨e.phase, executes_set.mpr (.inr ⟨hj, he⟩)⟩
  | complete j now' hget =>
    refine .inl ⟨e.phase, executes_erase.mpr ⟨fun hj => ?_, he⟩⟩
    cases (he.get (hj ▸ hget)).2
  | die j =>
    by_cases hj : sid = j
    · exact .inr (.inr (hj ▸ rfl))
    · exact .inl ⟨e.phase, executes_erase.mpr ⟨hj, he⟩⟩

/-! ## What holds in every run of the panel -/

variable {e' : Execution}

/-- What holds in every run, deaths of sweeps included. -/
structure Sound (w : World) : Prop where
  executing : ∀ sid now e, Executes w.sweeps sid now e → ∃ run, w.runs.get e.runId = some run
    ∧ run.status = .processing ∧ run.tenantId = e.tenantId ∧ run.startedAt = some now
  one : ∀ sid sid' now now' e e', Executes w.sweeps sid now e → Executes w.sweeps sid' now' e' →
    e.runId = e'.runId → sid = sid'
  lock : ∀ sid sid' now now' e e' d d', Executes w.sweeps sid now e →
    Executes w.sweeps sid' now' e' → e.phase = .deleting d → e'.phase = .deleting d' → sid = sid'
  fresh : ∀ pid pass, w.passes.get pid = some pass → ∀ r ∈ pass.fresh, r.2.status = .queued

theorem Sound.empty (policy : Policy) : Sound (World.empty policy) where
  executing := by rintro sid now e ⟨_, h⟩; cases h
  one := by rintro sid sid' now now' e e' ⟨_, h⟩; cases h
  lock := by rintro sid sid' now now' e e' d d' ⟨_, h⟩; cases h
  fresh := by intro pid pass h; cases h

/-- The row of a run that has left the queue changes only at the end of its execution. -/
theorem run_unchanged (h : Move w a t) {run : Run} (hrun : w.runs.get id = some run)
    (hleft : run.status.hasLeft = true)
    (hkept : ∀ sid now e, Executes w.sweeps sid now e → e.runId = id →
      ∃ now' e', Executes t.sweeps sid now' e') : t.runs.get id = some run := by
  have hne : ∀ {j : RunId} {old : Run}, w.runs.get j = some old → old.status.hasLeft = false →
      id ≠ j := by
    rintro j old hold hother rfl
    cases hrun.symm.trans hold
    rw [hother] at hleft
    cases hleft
  cases h with
  | configure | change | pass | start | skip | phase | complete | die => exact hrun
  | request _ j new hnew =>
    refine (Table.get_set_ne _ ?_ _).trans hrun
    cases hnew with
    | preview new hfree =>
      rintro rfl
      rw [hrun] at hfree
      cases hfree
    | queue old hold hpreview => exact hne hold (by rw [hpreview]; rfl)
  | scheduleCommit pid pass _ _ hfree =>
    refine (Table.get_insertAll_of_notMem (fun hmem => ?_) _).trans hrun
    rw [hfree _ hmem] at hrun
    cases hrun
  | policyChanged _ _ j _ old _ hold hqueued | claim _ _ j _ old _ hold hqueued =>
    exact (Table.get_set_ne _ (hne hold (by rw [hqueued]; rfl)) _).trans hrun
  | finish j now' completedAt todo old d hget | fail j now' completedAt todo old hget =>
    refine (Table.get_modify_ne _ (fun heq => ?_) _).trans hrun
    obtain ⟨_, _, he'⟩ := hkept j now' old ⟨todo, hget⟩ heq.symm
    rcases executes_set.mp he' with ⟨_, _, hnone⟩ | ⟨hother, _⟩
    · cases hnone
    · exact hother rfl

/-- A sweep that deletes data after a step did so before it, or has just got the lock. -/
theorem deleting_cases (h : Move w a t) (he : Executes t.sweeps sid now e)
    (hphase : e.phase = .deleting d) :
    (∃ e' d', Executes w.sweeps sid now e' ∧ e'.phase = .deleting d') ∨
      a = .execute sid .lock ∧
        ∀ j sweep, w.sweeps.get j = some sweep → sweep.holdsLock = false := by
  cases executes_cases h he with
  | same _ hold _ => exact .inl ⟨e, d, hold, hphase⟩
  | phase op phase hold hmove =>
    rw [hphase] at hmove
    cases hmove with
    | lock _ hfree => exact .inr ⟨rfl, hfree⟩
    | drain d' _ _ hp | select _ d' _ _ hp | delete d' _ _ hp => exact .inl ⟨_, d', hold, hp⟩
  | claim _ _ _ _ hnew _ =>
    rw [hphase] at hnew
    cases hnew

theorem holdsLock_of_executes (he : Executes w.sweeps sid now e) (hphase : e.phase = .deleting d) :
    ∃ sweep, w.sweeps.get sid = some sweep ∧ sweep.holdsLock = true := by
  obtain ⟨todo, hget⟩ := he
  cases e with
  | mk runId tenantId phase =>
    subst hphase
    exact ⟨_, hget, rfl⟩

/-- The sweep that executes a run is the only one to do so. -/
theorem Sound.only (hs : Sound w) {sid' : SweepId} {now' : Time} (he : Executes w.sweeps sid now e)
    (he' : Executes w.sweeps sid' now' e') (hid : e'.runId = e.runId) :
    sid' = sid := hs.one sid' sid now' now e' e he' he hid

/-- A queued run is not executed. -/
theorem Sound.not_queued (hs : Sound w) (he : Executes w.sweeps sid now e) {run : Run}
    (hrun : w.runs.get e.runId = some run) : run.status ≠ .queued := by
  obtain ⟨run', hrun', hstatus, _⟩ := hs.executing sid now e he
  cases hrun.symm.trans hrun'
  rw [hstatus]
  exact nofun

theorem Sound.executing_step (hs : Sound w) (h : Move w a t) (hold : Executes w.sweeps sid now e')
    (hid : e'.runId = e.runId) (htenant : e'.tenantId = e.tenantId)
    (he : Executes t.sweeps sid now e) : ∃ run, t.runs.get e.runId = some run
      ∧ run.status = .processing ∧ run.tenantId = e.tenantId ∧ run.startedAt = some now := by
  obtain ⟨run, hrun, hstatus, hrest⟩ := hs.executing sid now e' hold
  rw [hid] at hrun
  rw [htenant] at hrest
  refine ⟨run, run_unchanged h hrun (by rw [hstatus]; rfl) (fun sid' now' x hx hxid => ?_),
    hstatus, hrest⟩
  exact ⟨now, e, hs.only hold hx (hxid.trans hid.symm) ▸ he⟩

theorem Sound.step (hs : Sound w) (h : Move w a t) : Sound t where
  executing := by
    intro sid now e he
    cases executes_cases h he with
    | same _ hold _ => exact hs.executing_step h hold rfl rfl he
    | phase _ _ hold _ => exact hs.executing_step h hold rfl rfl he
    | claim run _ _ htenant _ hrun => exact ⟨_, hrun, rfl, htenant, rfl⟩
  one := by
    intro sid sid' now now' e e' he he' hid
    cases executes_cases h he with
    | same _ hold _ =>
      cases executes_cases h he' with
      | same _ hold' _ | phase _ _ hold' _ =>
        exact hs.one sid _ now now' _ _ hold hold' hid
      | claim run hrun hqueued =>
        rw [← hid] at hrun
        exact absurd hqueued (hs.not_queued hold hrun)
    | phase _ _ hold _ =>
      cases executes_cases h he' with
      | same _ hold' _ | phase _ _ hold' _ =>
        exact hs.one sid _ now now' _ _ hold hold' hid
    | claim run hrun hqueued =>
      cases executes_cases h he' with
      | same _ hold' _ =>
        rw [hid] at hrun
        exact absurd hqueued (hs.not_queued hold' hrun)
      | claim => rfl
  lock := by
    intro sid sid' now now' e e' d d' he he' hphase hphase'
    rcases deleting_cases h he hphase with ⟨x, dx, hx, hxp⟩ | ⟨ha, hfree⟩
    · rcases deleting_cases h he' hphase' with ⟨x', dx', hx', hxp'⟩ | ⟨_, hfree⟩
      · exact hs.lock sid sid' now now' x x' dx dx' hx hx' hxp hxp'
      · obtain ⟨sweep, hget, hlock⟩ := holdsLock_of_executes hx hxp
        rw [hfree sid sweep hget] at hlock
        cases hlock
    · rcases deleting_cases h he' hphase' with ⟨x', dx', hx', hxp'⟩ | ⟨ha', _⟩
      · obtain ⟨sweep, hget, hlock⟩ := holdsLock_of_executes hx' hxp'
        rw [hfree sid' sweep hget] at hlock
        cases hlock
      · cases ha.symm.trans ha'
        rfl
  fresh := by
    cases h with
    | pass _ passes hfresh =>
      intro pid pass hget r hr
      rcases hfresh pid pass hget r hr with hqueued | ⟨q, old, hold, hmem⟩
      · exact hqueued
      · exact hs.fresh q old hold r hmem
    | scheduleCommit pid _ =>
      intro q pass hget
      rw [Table.get_erase] at hget
      split_ifs at hget
      exact hs.fresh q pass hget
    | configure | change | request | start | skip | policyChanged | claim | phase | finish | fail
    | complete | die => exact hs.fresh

/-! ## Runs that are attended to -/

/-- Every run that is `processing` is executed by a sweep. -/
def Attended (w : World) : Prop :=
  ∀ id run, w.runs.get id = some run → run.status = .processing →
    ∃ sid now e, Executes w.sweeps sid now e ∧ e.runId = id

/-- How a row comes to be what it is after a step that has changed it. -/
inductive RunMove (w t : World) : Action → RunId → Run → Prop
  | waiting (a : Action) (id : RunId) (run : Run) (hstatus : run.status.hasLeft = false) :
      RunMove w t a id run
  | failed (a : Action) (id : RunId) (run : Run) (hstatus : run.status = .failed) :
      RunMove w t a id run
  | claimed (sid : SweepId) (now : Time) (e : Execution) (id : RunId) (run : Run)
      (he : Executes t.sweeps sid now e) (hid : e.runId = id)
      (hstatus : run.status = .processing) : RunMove w t (.claim sid) id run
  | finished (sid : SweepId) (now completedAt : Time) (e : Execution) (d : Deletion) (run : Run)
      (he : Executes w.sweeps sid now e) (hphase : e.phase = .deleting d) (hbatch : d.batch = [])
      (hsources : d.sources = []) (hstatus : run.status = .succeeded)
      (hdata : t.data = w.data.deleteWhere (fun id => decide (id ∈ d.ids))) :
      RunMove w t (.execute sid (.finish completedAt)) e.runId run

theorem run_cases (hs : Sound w) (h : Move w a t) {run : Run} (hrun : t.runs.get id = some run) :
    w.runs.get id = some run ∨ RunMove w t a id run := by
  have hmodify : ∀ {j : RunId} {f : Run → Run}, (w.runs.modify j f).get id = some run →
      w.runs.get id = some run ∨ id = j ∧ ∃ old, run = f old := by
    intro j f hget
    rw [Table.get_modify] at hget
    split at hget
    · next hj =>
      obtain ⟨old, _, hold⟩ := Option.map_eq_some_iff.mp hget
      exact .inr ⟨hj, old, hold.symm⟩
    · exact .inl hget
  cases h with
  | configure | change | pass | start | skip | phase | complete | die => exact .inl hrun
  | request _ j new hnew =>
    rcases Table.get_set_eq_some.mp hrun with ⟨_, rfl⟩ | ⟨_, hold⟩
    · refine .inr (.waiting _ _ _ ?_)
      cases hnew with
      | preview _ _ hpreview => rw [hpreview]; rfl
      | queue => rfl
    · exact .inl hold
  | scheduleCommit pid pass hget =>
    rcases Table.get_insertAll_eq_some hrun with hold | hnew
    · exact .inl hold
    · have hqueued : run.status = .queued := hs.fresh pid pass hget _ hnew
      exact .inr (.waiting _ _ _ (by rw [hqueued]; rfl))
  | policyChanged =>
    rcases Table.get_set_eq_some.mp hrun with ⟨_, rfl⟩ | ⟨_, hold⟩
    · exact .inr (.failed _ _ _ rfl)
    · exact .inl hold
  | claim sid now j rest old hget hold hqueued =>
    rcases Table.get_set_eq_some.mp hrun with ⟨rfl, rfl⟩ | ⟨_, hrun⟩
    · exact .inr (.claimed sid now _ _ _ (executes_set.mpr (.inl ⟨rfl, rfl, rfl⟩)) rfl rfl)
    · exact .inl hrun
  | finish sid now completedAt todo e d hget hphase hbatch hsources =>
    rcases hmodify hrun with hold | ⟨rfl, old, rfl⟩
    · exact .inl hold
    · exact .inr (.finished sid now completedAt e d _ ⟨todo, hget⟩ hphase hbatch hsources rfl rfl)
  | fail =>
    rcases hmodify hrun with hold | ⟨_, old, rfl⟩
    · exact .inl hold
    · exact .inr (.failed _ _ _ rfl)

/-- A step keeps the runs attended to unless it is the death of a sweep that executes one. -/
theorem Attended.step (hs : Sound w) (hw : Attended w) (h : Move w a t)
    (hdie : ∀ sid now e, a = .die sid → ¬ Executes w.sweeps sid now e) : Attended t := by
  intro id run hrun hstatus
  rcases run_cases hs h hrun with hold | hmove
  · obtain ⟨sid, now, e, he, rfl⟩ := hw id run hold hstatus
    rcases executes_kept h he with ⟨phase, he'⟩ | hsettled | rfl
    · exact ⟨sid, now, _, he', rfl⟩
    · have := hsettled run hrun
      rw [hstatus] at this
      cases this
    · exact absurd he (hdie sid now e rfl)
  · cases hmove with
    | waiting _ _ _ hwaiting =>
      rw [hstatus] at hwaiting
      cases hwaiting
    | failed _ _ _ hother | finished _ _ _ _ _ _ _ _ _ _ hother =>
      rw [hstatus] at hother
      cases hother
    | claimed sid now e _ _ he hid => exact ⟨sid, now, e, he, hid⟩

end MegaPanel.StorageRetention
