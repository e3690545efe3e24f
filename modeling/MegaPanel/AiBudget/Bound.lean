import MegaPanel.AiBudget.Books

set_option autoImplicit false

/-! # The budget is not overspent

`net` is the sum of the runs without the overruns. Settling a run does not let it grow, and a
reservation adds its estimate to it. The lock admits one reservation at a time, so `net` has not
grown past what that reservation has read when it commits (`InFlight.checked`). Therefore it stays
within the limits in every run, whatever order the requests and the workers take their steps in:
`budget_bound`.

A run is settled once, because one session at a time can settle it: the request that has reserved
it, or the worker that has found it `reserved`.
-/

namespace MegaPanel.AiBudget

open MegaPanel.Lib

variable {settings : Settings}

/-! ## Sessions -/

variable {w t : World} {g g' : Ledger} {sid : SessionId} {s : Session} {id : RunId}
  {hard : RunId → Prop}

/-- The run that a session will settle. -/
def Session.owns : Session → Option RunId
  | .generating id _ | .executing id _ => some id
  | _ => none

/-- What is known of a session between two of its statements. -/
inductive InFlight (settings : Settings) (w : World) (g : Ledger) (sid : SessionId) :
    Session → Prop
  | locked (job : Job) (hlock : w.lock = some sid) : InFlight settings w g sid (.locked job)
  | checkedDaily (job : Job) (daily : ℚ) (hlock : w.lock = some sid)
      (hdaily : daily + job.estimatedCost ≤ settings.aiDailyBudgetUsd) (hnet : net w g ≤ daily) :
      InFlight settings w g sid (.checkedDaily job daily)
  | checked (job : Job) (daily monthly : ℚ) (hlock : w.lock = some sid)
      (hdaily : daily + job.estimatedCost ≤ settings.aiDailyBudgetUsd)
      (hmonthly : monthly + job.estimatedCost ≤ settings.aiMonthlyBudgetUsd)
      (hnet : net w g ≤ daily) (hnet' : net w g ≤ monthly) :
      InFlight settings w g sid (.checked job daily monthly)
  | generating (id : RunId) (job : Job) (row : AIRun)
      (hcharge : g.get id = some ⟨id, job.estimatedCost, none⟩)
      (hrow : w.runs.get id = some row) (hkind : row.job.kind.isQueued = false) :
      InFlight settings w g sid (.generating id (reservedRun job))
  | enqueueing (id : RunId) (job : Job) (row : AIRun) (hrow : w.runs.get id = some row)
      (hkind : row.job.kind.isQueued = true) :
      InFlight settings w g sid (.enqueueing id (reservedRun job))
  | executing (id : RunId) (loaded row : AIRun) (estimate : ℚ)
      (hcharge : g.get id = some ⟨id, estimate, none⟩) (hcost : loaded.costUsd = some estimate)
      (hrunning : loaded.status = .running) (hrow : w.runs.get id = some row)
      (hkind : row.job.kind.isQueued = true) (hstatus : row.status ≠ .reserved) :
      InFlight settings w g sid (.executing id loaded)

theorem InFlight.owns_drawn (h : InFlight settings w g sid s) (hbooks : Books w g)
    (hid : s.owns = some id) : id ∈ w.drawn := by
  cases h with
  | generating _ _ _ hcharge | executing _ _ _ _ hcharge =>
    cases hid
    exact (hbooks.drawn _ _ hcharge).1
  | _ => cases hid

/-- A row of before, which is of the same job, and `reserved` only if it has been so. -/
structure SameJob (row row' : AIRun) : Prop where
  job : row'.job = row.job
  status : row.status ≠ .reserved → row'.status ≠ .reserved

/-- What the step of one session may do to the others: it changes the entries and deletes the rows
of the runs in `hard`, which are none of theirs. -/
structure Frame (w t : World) (g g' : Ledger) (hard : RunId → Prop) : Prop where
  rows : ∀ id row, w.runs.get id = some row → ¬ hard id ∨ row.job.kind.isQueued = true →
    ∃ row', t.runs.get id = some row' ∧ SameJob row row'
  charges : ∀ id c, g.get id = some c → ¬ hard id → g'.get id = some c

theorem InFlight.frame (h : InFlight settings w g sid s) (hframe : Frame w t g g' hard)
    (hown : ∀ id, s.owns = some id → ¬ hard id)
    (hlock : w.lock = some sid → t.lock = some sid ∧ net t g' ≤ net w g) :
    InFlight settings t g' sid s := by
  cases h with
  | locked job hl => exact .locked job (hlock hl).1
  | checkedDaily job daily hl hdaily hnet =>
    exact .checkedDaily job daily (hlock hl).1 hdaily ((hlock hl).2.trans hnet)
  | checked job daily monthly hl hdaily hmonthly hnet hnet' =>
    exact .checked job daily monthly (hlock hl).1 hdaily hmonthly ((hlock hl).2.trans hnet)
      ((hlock hl).2.trans hnet')
  | generating id job row hcharge hrow hkind =>
    have hsoft := hown id rfl
    obtain ⟨row', hrow', hsame⟩ := hframe.rows id row hrow (.inl hsoft)
    exact .generating id job row' (hframe.charges id _ hcharge hsoft) hrow' (hsame.job ▸ hkind)
  | enqueueing id job row hrow hkind =>
    obtain ⟨row', hrow', hsame⟩ := hframe.rows id row hrow (.inr hkind)
    exact .enqueueing id job row' hrow' (hsame.job ▸ hkind)
  | executing id loaded row estimate hcharge hcost hrunning hrow hkind hstatus =>
    have hsoft := hown id rfl
    obtain ⟨row', hrow', hsame⟩ := hframe.rows id row hrow (.inl hsoft)
    exact .executing id loaded row' estimate (hframe.charges id _ hcharge hsoft) hcost hrunning
      hrow' (hsame.job ▸ hkind) (hsame.status hstatus)

/-! ## The invariant -/

variable {row row' : AIRun} {other : SessionId} {estimate actual : ℚ}

structure Sound (settings : Settings) (w : World) (g : Ledger) : Prop where
  books : Books w g
  daily : net w g ≤ settings.aiDailyBudgetUsd
  monthly : net w g ≤ settings.aiMonthlyBudgetUsd
  queue : ∀ id ∈ w.queue, ∃ row, w.runs.get id = some row ∧ row.job.kind.isQueued = true
  flight : ∀ sid s, w.sessions.get sid = some s → InFlight settings w g sid s
  unique : ∀ sid sid' s s' id, w.sessions.get sid = some s → w.sessions.get sid' = some s' →
    s.owns = some id → s'.owns = some id → sid = sid'

theorem Sound.start (settings : Settings) : Sound settings World.start Table.empty where
  books := Books.empty
  daily := (sub_zero (0 : ℚ)).le.trans settings.daily_nonneg
  monthly := (sub_zero (0 : ℚ)).le.trans settings.monthly_nonneg
  queue := fun _ h => by cases h
  flight := fun _ _ h => by cases h
  unique := fun _ _ _ _ _ h => by cases h

/-- The step of the session `sid`. -/
theorem Sound.advance (sid : SessionId) (hard : RunId → Prop) (hs : Sound settings w g)
    (hbooks : Books t g') (hdaily : net t g' ≤ settings.aiDailyBudgetUsd)
    (hmonthly : net t g' ≤ settings.aiMonthlyBudgetUsd) (hframe : Frame w t g g' hard)
    (hqueue : ∀ id ∈ t.queue, id ∈ w.queue ∨
      ∃ row, t.runs.get id = some row ∧ row.job.kind.isQueued = true)
    (hothers : ∀ other s, other ≠ sid → t.sessions.get other = some s →
      w.sessions.get other = some s)
    (hhard : ∀ other s id, other ≠ sid → w.sessions.get other = some s → s.owns = some id →
      ¬ hard id) (hlock : ∀ other, other ≠ sid → w.lock = some other →
      t.lock = some other ∧ net t g' ≤ net w g)
    (hself : ∀ s, t.sessions.get sid = some s → InFlight settings t g' sid s
      ∧ ∀ other s' id, other ≠ sid → w.sessions.get other = some s' → s.owns = some id →
        s'.owns ≠ some id) : Sound settings t g' where
  books := hbooks
  daily := hdaily
  monthly := hmonthly
  queue := by
    intro id hid
    rcases hqueue id hid with hold | hnew
    · obtain ⟨row, hrow, hkind⟩ := hs.queue id hold
      obtain ⟨row', hrow', hsame⟩ := hframe.rows id row hrow (.inr hkind)
      exact ⟨row', hrow', hsame.job ▸ hkind⟩
    · exact hnew
  flight := by
    intro other s hother
    by_cases heq : other = sid
    · subst heq
      exact (hself s hother).1
    · have hold := hothers other s heq hother
      exact (hs.flight other s hold).frame hframe (fun id => hhard other s id heq hold)
        (hlock other heq)
  unique := by
    intro i j s s' id hi hj hs' hs''
    by_cases hisid : i = sid
    · by_cases hjsid : j = sid
      · exact hisid.trans hjsid.symm
      · subst hisid
        exact absurd hs'' ((hself s hi).2 j s' id hjsid (hothers j s' hjsid hj) hs')
    · by_cases hjsid : j = sid
      · subst hjsid
        exact absurd hs' ((hself s' hj).2 i s id hisid (hothers i s hisid hi) hs'')
      · exact hs.unique i j s s' id (hothers i s hisid hi) (hothers j s' hjsid hj) hs' hs''

/-- Nothing is deleted and nothing is settled. -/
theorem Frame.refl (h : t.runs = w.runs) : Frame w t g g (fun _ => False) where
  rows := fun id row hrow _ => ⟨row, by rw [h, hrow], ⟨rfl, fun hstatus => hstatus⟩⟩
  charges := fun _ _ hc _ => hc

/-- One row is rewritten. -/
theorem Frame.set (hrow : w.runs.get id = some row) (hruns : t.runs = w.runs.set id row')
    (hsame : SameJob row row')
    (hcharges : ∀ id c, g.get id = some c → ¬ hard id → g'.get id = some c) :
    Frame w t g g' hard where
  rows := by
    intro j r hj _
    rw [hruns, Table.get_set]
    split
    · next heq =>
      rw [heq, hrow] at hj
      cases hj
      exact ⟨row', rfl, hsame⟩
    · exact ⟨r, hj, ⟨rfl, fun hstatus => hstatus⟩⟩
  charges := hcharges

theorem sessions_endSession (h : (w.endSession sid).sessions.get other = some s) :
    other ≠ sid ∧ w.sessions.get other = some s := Table.get_erase_eq_some.mp h

theorem lock_endSession (hne : other ≠ sid) (h : w.lock = some other) :
    (w.endSession sid).lock = some other := by
  show (if w.lock = some sid then none else w.lock) = some other
  rw [if_neg (fun heq => hne (Option.some.inj (h.symm.trans heq))), h]

/-- A step that changes the session and nothing that is stored. -/
theorem Sound.session (sid : SessionId) (hs : Sound settings w g) (hruns : t.runs = w.runs)
    (hdrawn : t.drawn = w.drawn) (hqueue : ∀ id ∈ t.queue, id ∈ w.queue ∨
      ∃ row, t.runs.get id = some row ∧ row.job.kind.isQueued = true)
    (hothers : ∀ other s, other ≠ sid → t.sessions.get other = some s →
      w.sessions.get other = some s)
    (hlock : ∀ other, other ≠ sid → w.lock = some other → t.lock = some other)
    (hself : ∀ s, t.sessions.get sid = some s → InFlight settings t g sid s
      ∧ ∀ other s' id, other ≠ sid → w.sessions.get other = some s' → s.owns = some id →
        s'.owns ≠ some id) : Sound settings t g := by
  have hnet : net t g = net w g := by
    rw [net, net, World.spent, World.spent, hruns]
  refine hs.advance sid _ (hs.books.same hruns hdrawn) ?_ ?_ (Frame.refl hruns) hqueue hothers
    (fun _ _ _ _ _ _ hfalse => hfalse) (fun other hne hl => ⟨hlock other hne hl, hnet.le⟩) hself
  · exact hnet.le.trans hs.daily
  · exact hnet.le.trans hs.monthly

/-- The end of the session that settles the run `id`. -/
theorem Sound.settle {current : RunId} (hard : RunId → Prop) (hs : Sound settings w g)
    (hget : w.sessions.get sid = some s) (howns : s.owns = some id)
    (hcharge : g.get id = some ⟨id, estimate, none⟩)
    (hbooks : Books t (AiBudget.settle g id current actual))
    (hspent : t.spent + estimate = w.spent + actual) (hqueue : t.queue = w.queue)
    (hlock : t.lock = w.lock) (hsessions : t.sessions = w.sessions)
    (hframe : Frame w t g (AiBudget.settle g id current actual) hard)
    (hhard : ∀ j ∈ w.drawn, hard j → j = id) :
    Sound settings (t.endSession sid) (AiBudget.settle g id current actual) := by
  have hnet : net (t.endSession sid) (AiBudget.settle g id current actual) ≤ net w g :=
    net_settle hcharge hspent
  refine hs.advance sid hard (hbooks.same rfl rfl) (hnet.trans hs.daily)
    (hnet.trans hs.monthly) ⟨hframe.rows, hframe.charges⟩ ?_ ?_ ?_ ?_ ?_
  · intro j hj
    exact .inl (hqueue ▸ hj)
  · intro other s' _ hother
    rw [← hsessions]
    exact (sessions_endSession hother).2
  · intro other s' j hne hother hj hjhard
    -- Another session that owns a run owns another one.
    have hdrawn := (hs.flight other s' hother).owns_drawn hs.books hj
    have heq := hhard j hdrawn hjhard
    rw [heq] at hj
    exact hne (hs.unique other sid s' s id hother hget hj howns)
  · intro other hne hl
    exact ⟨lock_endSession hne (hlock.trans hl), hnet⟩
  · intro s' hs'
    exact absurd rfl (sessions_endSession hs').1

/-- A row that is settled where it stands. -/
theorem Sound.settleRow (hs : Sound settings w g) (hget : w.sessions.get sid = some s)
    (howns : s.owns = some id) (hcharge : g.get id = some ⟨id, estimate, none⟩)
    (hrow : w.runs.get id = some row) (hjob : row'.job = row.job)
    (hcost : row'.costUsd = some actual) (hstatus : row'.status ≠ .reserved) :
    Sound settings (World.endSession { w with runs := w.runs.set id row' } sid)
      (AiBudget.settle g id id actual) := by
  obtain ⟨run, hrun, hold⟩ := hs.books.row id _ hcharge
  have hsame : run = row := Option.some.inj (hrun.symm.trans hrow)
  rw [hsame] at hold
  refine hs.settle (fun j => j = id) hget howns hcharge ?_ ?_ rfl rfl rfl ?_
    (fun _ _ heq => heq)
  · refine hs.books.settle hcharge hcost hstatus (.inl rfl) (fun j => ?_) (.inl rfl)
      (hs.books.drawn id _ hcharge).1
    rw [Table.get_set]
    split <;> rfl
  · have htotal := Table.total_set_old hrow row' AIRun.counted
    have hcounted : row.counted = estimate := by
      rw [AIRun.counted, hold]
      rfl
    have hcounted' : row'.counted = actual := by
      rw [AIRun.counted, hcost]
      rfl
    rw [hcounted, hcounted'] at htotal
    exact htotal
  · refine Frame.set hrow rfl ⟨hjob, fun _ => hstatus⟩ (fun j c hc hne => ?_)
    rw [get_settle hcharge, if_neg hne, hc]

/-! ## The steps -/

variable {loaded : AIRun} {a : Action}

theorem Sound.replace {newId : RunId} {usage : Usage} (hs : Sound settings w g)
    (hget : w.sessions.get sid = some (.generating id loaded)) (hnew : newId ∉ w.drawn) :
    Sound settings (World.endSession { w with
      runs := (w.runs.erase id).set newId (replacingRun loaded.job usage)
      drawn := newId :: w.drawn } sid)
      (AiBudget.settle g id newId
        (actualCost (some usage) loaded.job.pricing loaded.job.estimatedCost)) := by
  cases hs.flight sid _ hget with
  | generating _ job row hcharge hrow hkind =>
    have hid := (hs.books.drawn id _ hcharge).1
    have hne : id ≠ newId := fun heq => hnew (heq ▸ hid)
    have hnone : w.runs.get newId = none := by
      cases h : w.runs.get newId with
      | none => rfl
      | some run => exact absurd (hs.books.run_drawn h) hnew
    have hstatus : (replacingRun job usage).status ≠ .reserved := by
      simp only [replacingRun]
      split
      · exact nofun
      · split <;> exact nofun
    refine hs.settle (fun j => j = id ∨ j = newId) hget rfl hcharge ?_ ?_ rfl rfl rfl ?_ ?_
    · refine hs.books.settle hcharge rfl hstatus (.inr hnew) (fun j => ?_) (.inr rfl)
        (List.mem_cons_self ..)
      rw [Table.get_set, Table.get_erase]
      rfl
    · obtain ⟨run, hrun, hold⟩ := hs.books.row id _ hcharge
      have hsame : run = row := Option.some.inj (hrun.symm.trans hrow)
      have hcounted : row.counted = job.estimatedCost := by
        rw [AIRun.counted, ← hsame, hold]
        rfl
      have herase := Table.total_erase hrow AIRun.counted
      have hgone : (w.runs.erase id).get newId = none := by
        rw [Table.get_erase_ne _ hne.symm, hnone]
      have hset := Table.total_set_new hgone (replacingRun job usage) AIRun.counted
      rw [hcounted] at herase
      show ((w.runs.erase id).set newId (replacingRun job usage)).total AIRun.counted
          + job.estimatedCost = w.runs.total AIRun.counted + _
      rw [hset, ← herase]
      show _ + actualCost (some usage) job.pricing job.estimatedCost + _ = _
      exact add_right_comm _ _ _
    · constructor
      · intro j r hj hsoft
        have hjid : j ≠ id := by
          rintro rfl
          rw [hrow] at hj
          cases hj
          rcases hsoft with hsoft | hqueued
          · exact hsoft (.inl rfl)
          · rw [hkind] at hqueued
            cases hqueued
        have hjnew : j ≠ newId := by
          rintro rfl
          rw [hnone] at hj
          cases hj
        exact ⟨r, by rw [Table.get_set_ne _ hjnew, Table.get_erase_ne _ hjid, hj],
          ⟨rfl, fun hst => hst⟩⟩
      · intro j c hc hsoft
        rw [get_settle hcharge, if_neg (fun heq => hsoft (.inl heq)), hc]
    · rintro j hj (heq | heq)
      · exact heq
      · exact absurd (heq ▸ hj) hnew

theorem failReservation_flush {job : Job} {row : AIRun} {code : String} {usage : Option Usage}
    (hcost : row.costUsd = some job.estimatedCost) :
    (AIRun.flush (reservedRun job) (failReservation (reservedRun job) code usage) row).costUsd
        = some (actualCost usage job.pricing job.estimatedCost) ∧
      (AIRun.flush (reservedRun job) (failReservation (reservedRun job) code usage) row).status
        = .failed := by
  have hdirty : Status.failed ≠ Status.reserved := nofun
  constructor
  · show writeCol (some job.estimatedCost) (some (actualCost usage job.pricing job.estimatedCost))
      row.costUsd = _
    rw [hcost, writeCol_stored]
  · show writeCol Status.reserved Status.failed row.status = _
    rw [writeCol_dirty hdirty]

theorem Sound.fail {code : String} {usage : Option Usage} (hs : Sound settings w g)
    (hget : w.sessions.get sid = some (.generating id loaded)) (hrow : w.runs.get id = some row) :
    Sound settings (World.endSession { w with
      runs := w.runs.set id (AIRun.flush loaded (failReservation loaded code usage) row) } sid)
      (AiBudget.settle g id id (actualCost usage loaded.job.pricing loaded.job.estimatedCost)) := by
  cases hs.flight sid _ hget with
  | generating _ job row₀ hcharge hrow₀ hkind =>
    obtain ⟨run, hrun, hold⟩ := hs.books.row id _ hcharge
    have hsame : run = row := Option.some.inj (hrun.symm.trans hrow)
    rw [hsame] at hold
    obtain ⟨hcost, hstatus⟩ := @failReservation_flush job row code usage hold
    exact hs.settleRow hget rfl hcharge hrow rfl hcost (by rw [hstatus]; exact nofun)

theorem executedRun_cost (loaded : AIRun) (answer : Answer) :
    (executedRun loaded answer).costUsd = some (executedCost loaded answer) := by
  cases answer <;> rfl

theorem executedRun_status (loaded : AIRun) (answer : Answer) :
    (executedRun loaded answer).status ≠ .reserved ∧
      (executedRun loaded answer).status ≠ .running := by
  cases answer with
  | valid usage =>
    simp only [executedRun]
    split <;> exact ⟨nofun, nofun⟩
  | _ => exact ⟨nofun, nofun⟩

theorem Sound.execute {answer : Answer} (hs : Sound settings w g)
    (hget : w.sessions.get sid = some (.executing id loaded)) (hrow : w.runs.get id = some row) :
    Sound settings (World.endSession { w with
      runs := w.runs.set id (AIRun.flush loaded (executedRun loaded answer) row) } sid)
      (AiBudget.settle g id id (executedCost loaded answer)) := by
  cases hs.flight sid _ hget with
  | executing _ _ row₀ estimate hcharge hcost hrunning hrow₀ hkind hstatus =>
    obtain ⟨run, hrun, hold⟩ := hs.books.row id _ hcharge
    have hsame : run = row := Option.some.inj (hrun.symm.trans hrow)
    rw [hsame] at hold
    obtain ⟨hnotReserved, hnotRunning⟩ := executedRun_status loaded answer
    refine hs.settleRow hget rfl hcharge hrow rfl ?_ ?_
    · show writeCol loaded.costUsd (executedRun loaded answer).costUsd row.costUsd = _
      rw [executedRun_cost, hcost, hold]
      exact writeCol_stored _ _
    · show writeCol loaded.status (executedRun loaded answer).status row.status ≠ .reserved
      rw [hrunning, writeCol_dirty hnotRunning]
      exact hnotReserved

theorem Sound.reserve {job : Job} {daily monthly : ℚ} (hs : Sound settings w g)
    (hget : w.sessions.get sid = some (.checked job daily monthly)) (hid : id ∉ w.drawn) :
    Sound settings { w with
      runs := w.runs.set id (reservedRun job)
      drawn := id :: w.drawn
      lock := none
      sessions := w.sessions.set sid (reservedSession id job) }
      (g.set id ⟨id, job.estimatedCost, none⟩) := by
  cases hs.flight sid _ hget with
  | checked _ _ _ hlock hdaily hmonthly hnet hnet' =>
    have hnone : w.runs.get id = none := by
      cases h : w.runs.get id with
      | none => rfl
      | some run => exact absurd (hs.books.run_drawn h) hid
    have hfree : g.get id = none := by
      cases h : g.get id with
      | none => rfl
      | some c => exact absurd (hs.books.drawn id c h).1 hid
    -- The reservation adds its estimate, and no overrun.
    have hgrown : (w.runs.set id (reservedRun job)).total AIRun.counted
        - (g.set id ⟨id, job.estimatedCost, none⟩).total Charge.overrun
        = net w g + job.estimatedCost := by
      rw [Table.total_set_new hnone, Table.total_set_new hfree]
      simp only [net, World.spent, overrun, AIRun.counted, reservedRun, Charge.overrun,
        Option.getD_some, Option.elim_none]
      ring
    refine hs.advance sid (fun j => j = id) (hs.books.reserve hid rfl rfl)
      ?_ ?_ ⟨fun j r hj _ => ?_, fun j c hc _ => ?_⟩ (fun j hj => .inl hj) ?_ ?_ ?_ ?_
    · exact hgrown.le.trans (by linarith)
    · exact hgrown.le.trans (by linarith)
    · have hne : j ≠ id := by
        rintro rfl
        rw [hnone] at hj
        cases hj
      exact ⟨r, by rw [Table.get_set_ne _ hne, hj], ⟨rfl, fun hst => hst⟩⟩
    · have hne : j ≠ id := by
        rintro rfl
        rw [hfree] at hc
        cases hc
      rw [Table.get_set_ne _ hne, hc]
    · intro other s hne hother
      rwa [Table.get_set_ne _ hne] at hother
    · rintro other s j hne hother hj rfl
      exact hid ((hs.flight other s hother).owns_drawn hs.books hj)
    · intro other hne hl
      exact absurd (Option.some.inj (hl.symm.trans hlock)) hne
    · intro s hself
      rw [Table.get_set_self] at hself
      cases hself
      refine ⟨?_, fun other s' j _ hother hj hj' => ?_⟩
      · rw [reservedSession]
        split
        · next hkind => exact .enqueueing id job _ (Table.get_set_self _ _ _) hkind
        · next hkind =>
          rw [Bool.not_eq_true] at hkind
          exact .generating id job _ (Table.get_set_self _ _ _) (Table.get_set_self _ _ _) hkind
      · have hdrawn := (hs.flight other s' hother).owns_drawn hs.books hj'
        rw [reservedSession] at hj
        split at hj
        · cases hj
        · cases hj
          exact hid hdrawn

theorem Sound.take {run : AIRun} (hs : Sound settings w g) (hqueue : id ∈ w.queue)
    (hrow : w.runs.get id = some row) (hstatus : row.status = .reserved) (hjob : run.job = row.job)
    (hcost : run.costUsd = row.costUsd) (hrunning : run.status = .running) :
    Sound settings { w with
      runs := w.runs.set id run, sessions := w.sessions.set sid (.executing id run) } g := by
  obtain ⟨estimate, hcharge⟩ := hs.books.reserved id row hrow hstatus
  obtain ⟨old, hold, hcounted⟩ := hs.books.row id _ hcharge
  have hsame : old = row := Option.some.inj (hold.symm.trans hrow)
  rw [hsame] at hcounted
  obtain ⟨row', hrow', hkind⟩ := hs.queue id hqueue
  have hrows : row' = row := Option.some.inj (hrow'.symm.trans hrow)
  rw [hrows] at hkind
  have hreserved : run.status ≠ .reserved := by
    rw [hrunning]
    exact nofun
  have hnet : (w.runs.set id run).total AIRun.counted - overrun g = net w g :=
    congrArg (· - overrun g) (Table.total_set_same hrow (congrArg (fun cost => cost.getD 0) hcost))
  refine hs.advance sid (fun _ => False)
    (hs.books.rewrite hrow hcost hreserved rfl rfl) (hnet.le.trans hs.daily)
    (hnet.le.trans hs.monthly)
    (Frame.set hrow rfl ⟨hjob, fun _ => hreserved⟩ (fun _ _ hc _ => hc)) (fun j hj => .inl hj) ?_
    (fun _ _ _ _ _ _ hfalse => hfalse) (fun other _ hl => ⟨hl, hnet.le⟩) ?_
  · intro other s hne hother
    rwa [Table.get_set_ne _ hne] at hother
  · intro s hself
    rw [Table.get_set_self] at hself
    cases hself
    refine ⟨.executing id run run estimate hcharge (hcost.trans hcounted) hrunning
      (Table.get_set_self _ _ _) (hjob ▸ hkind) hreserved, ?_⟩
    intro other s' j _ hother hj hj'
    cases hj
    -- The row is `reserved` and its kind is queued: nobody works on it.
    cases hs.flight other s' hother with
    | generating _ _ r _ hr hrkind =>
      cases hj'
      rw [hrow] at hr
      cases hr
      rw [hkind] at hrkind
      cases hrkind
    | executing _ _ r _ _ _ _ hr _ hrstatus =>
      cases hj'
      rw [hrow] at hr
      cases hr
      exact hrstatus hstatus
    | _ => cases hj'

/-- A session rewrites a row, not its cost, and ends. -/
theorem Sound.rewriteEnd {run : AIRun} (hs : Sound settings w g) (hrow : w.runs.get id = some row)
    (hjob : run.job = row.job) (hcost : run.costUsd = row.costUsd)
    (hstatus : run.status ≠ .reserved) :
    Sound settings (World.endSession { w with runs := w.runs.set id run } sid) g := by
  have hnet : (w.runs.set id run).total AIRun.counted - overrun g = net w g :=
    congrArg (· - overrun g) (Table.total_set_same hrow (congrArg (fun cost => cost.getD 0) hcost))
  refine hs.advance sid (fun _ => False)
    (hs.books.rewrite hrow hcost hstatus rfl rfl) (hnet.le.trans hs.daily)
    (hnet.le.trans hs.monthly)
    (Frame.set hrow rfl ⟨hjob, fun _ => hstatus⟩ (fun _ _ hc _ => hc)) (fun j hj => .inl hj)
    (fun other s _ hother => (sessions_endSession hother).2) (fun _ _ _ _ _ _ hfalse => hfalse)
    (fun other hne hl => ⟨lock_endSession hne hl, hnet.le⟩) ?_
  intro s hself
  exact absurd rfl (sessions_endSession hself).1

theorem Sound.enqueueFailed (hs : Sound settings w g)
    (hget : w.sessions.get sid = some (.enqueueing id loaded)) (hrow : w.runs.get id = some row) :
    Sound settings (World.endSession { w with
      runs := w.runs.set id (AIRun.flush loaded
        { loaded with status := .failed, errorCode := some "queue_unavailable" } row) } sid) g := by
  cases hs.flight sid _ hget with
  | enqueueing _ job row₀ hrow₀ hkind =>
    have hdirty : Status.failed ≠ Status.reserved := nofun
    refine hs.rewriteEnd hrow rfl (writeCol_clean _ _) ?_
    show writeCol Status.reserved Status.failed row.status ≠ .reserved
    rw [writeCol_dirty hdirty]
    exact hdirty

/-- A session goes on to a stage in which it has not settled anything. -/
theorem Sound.setSession (hs : Sound settings w g) (ht : t = w.setSession sid s)
    (howns : s.owns = none) (hself : InFlight settings t g sid s) : Sound settings t g := by
  subst ht
  refine hs.session sid rfl rfl (fun j hj => .inl hj) ?_ (fun other _ hl => hl) ?_
  · intro other s' hne hother
    rwa [World.setSession, Table.get_set_ne _ hne] at hother
  · intro s' hs'
    rw [World.setSession, Table.get_set_self] at hs'
    cases hs'
    refine ⟨hself, fun _ _ j _ _ hj => ?_⟩
    rw [howns] at hj
    cases hj

theorem Sound.step (hs : Sound settings w g) (h : AiBudget.step settings w a = some t) :
    Sound settings t (g.add w a) := by
  have hspent : net w g ≤ w.spent := by
    have hover := overrun_nonneg g
    rw [net]
    linarith
  cases step_move h with
  | start sid job hfree hlock =>
    refine hs.session sid rfl rfl (fun j hj => .inl hj) ?_ ?_ ?_
    · intro other s hne hother
      rwa [World.setSession, Table.get_set_ne _ hne] at hother
    · intro other _ hl
      rw [hlock] at hl
      cases hl
    · intro s hself
      rw [World.setSession, Table.get_set_self] at hself
      cases hself
      exact ⟨.locked job rfl, fun _ _ _ _ _ hj => by cases hj⟩
  | checkDaily sid job hget hok =>
    cases hs.flight sid _ hget with
    | locked _ hlock => exact hs.setSession rfl rfl (.checkedDaily job _ hlock hok hspent)
  | checkMonthly sid job daily hget hok =>
    cases hs.flight sid _ hget with
    | checkedDaily _ _ hlock hdaily hnet =>
      exact hs.setSession rfl rfl (.checked job _ _ hlock hdaily hok hnet hspent)
  | reserve sid id job daily monthly hget hid =>
    simp only [Ledger.add, hget]
    exact hs.reserve hget hid
  | enqueue sid id loaded hget =>
    refine hs.session sid rfl rfl (fun j hj => ?_) (fun other s _ hother => hother)
      (fun other _ hl => hl) ?_
    · rcases List.mem_append.mp hj with hold | hnew
      · exact .inl hold
      · cases hs.flight sid _ hget with
        | enqueueing _ job row hrow hkind =>
          rw [List.mem_singleton.mp hnew]
          exact .inr ⟨row, hrow, hkind⟩
    · intro s hself
      rw [hget] at hself
      cases hself
      refine ⟨?_, fun _ _ _ _ _ hj => by cases hj⟩
      cases hs.flight sid _ hget with
      | enqueueing _ job row hrow hkind => exact .enqueueing id job row hrow hkind
  | enqueueFailed sid failed id loaded row hget hrow => exact hs.enqueueFailed hget hrow
  | replace sid id newId loaded usage hget hnew =>
    simp only [Ledger.add, hget]
    exact hs.replace hget hnew
  | failProvider sid id newId loaded row code usage hget hrow =>
    simp only [Ledger.add, hget]
    exact hs.fail hget hrow
  | failInvalid sid id newId loaded row usage hget hrow =>
    simp only [Ledger.add, hget]
    exact hs.fail hget hrow
  | take sid id row hfree hqueue hrow hstatus => exact hs.take hqueue hrow hstatus rfl rfl rfl
  | execute sid answer id loaded row hget hrow =>
    simp only [Ledger.add, hget]
    exact hs.execute hget hrow
  | endSession sid hadd =>
    rw [hadd]
    refine hs.session sid rfl rfl (fun j hj => .inl hj)
      (fun other s _ hother => (sessions_endSession hother).2)
      (fun other hne hl => lock_endSession hne hl) ?_
    intro s hself
    exact absurd rfl (sessions_endSession hself).1

/-! ## Runs -/

/-- A reservation is committed within both limits: `daily` and `monthly` are the sums that its
check has read. -/
def WithinLimits (settings : Settings) (w : World) : Action → Prop
  | .reserve sid _ =>
    match w.sessions.get sid with
    | some (.checked job daily monthly) =>
      daily + job.estimatedCost ≤ settings.aiDailyBudgetUsd
        ∧ monthly + job.estimatedCost ≤ settings.aiMonthlyBudgetUsd
    | _ => True
  | _ => True

theorem Sound.withinLimits (hs : Sound settings w g) (a : Action) : WithinLimits settings w a := by
  cases a with
  | reserve sid id =>
    rw [WithinLimits]
    split
    · next hget =>
      cases hs.flight sid _ hget with
      | checked _ _ _ _ hdaily hmonthly _ _ => exact ⟨hdaily, hmonthly⟩
    · trivial
  | _ => trivial

/-- Of the reservation `id` and the run that replaces it, exactly one is there, with its cost. -/
def CountedOnce (w : World) (id : RunId) (c : Charge) : Prop :=
  (∃ run, w.runs.get c.current = some run ∧ run.costUsd = some c.cost)
    ∧ (c.current ≠ id → w.runs.get id = none)

theorem Sound.ghost_step {s t : World × Ledger} (hs : Sound settings s.1 s.2)
    (h : withGhost (AiBudget.step settings) (note settings) s a = some t) :
    Sound settings t.1 t.2 := by
  obtain ⟨hstep, hnote⟩ := withGhost_eq_some.mp h
  have hadd : note settings s.1 a s.2 = s.2.add s.1 a := by
    rw [note, hstep]
  rw [hnote, hadd]
  exact hs.step hstep

/-- **The budget is not overspent.** In every run of the requests and the workers, each reservation
commits within both limits; the sum exceeds a limit by the overruns of the runs that are over at
most; each reservation is counted once; and every run belongs to a reservation. -/
theorem budget_bound {run : List Action} {t : World} {g : Ledger}
    (hrun : exec (withGhost (step settings) (note settings)) (World.start, Table.empty) run
      = some (t, g)) :
    Along (step settings) (fun w a _ => WithinLimits settings w a) World.start run
      ∧ t.spent ≤ settings.aiDailyBudgetUsd + overrun g
      ∧ t.spent ≤ settings.aiMonthlyBudgetUsd + overrun g
      ∧ (∀ id c, g.get id = some c → CountedOnce t id c)
      ∧ ∀ id row, t.runs.get id = some row → ∃ r c, g.get r = some c ∧ c.current = id := by
  have hstart : Sound settings World.start Table.empty := Sound.start settings
  have halong : Along (withGhost (step settings) (note settings))
      (fun s a _ => WithinLimits settings s.1 a) (World.start, Table.empty) run :=
    along_rule (I := fun s : World × Ledger => Sound settings s.1 s.2) (G := fun _ _ _ => True)
      (fun s a u hs _ hstep => ⟨hs.ghost_step hstep, hs.withinLimits a⟩) hstart
      (along_of_forall (Q := fun _ => True) (fun _ _ => trivial) _)
  have hend : Sound settings t g :=
    exec_invariant (I := fun s : World × Ledger => Sound settings s.1 s.2) (G := fun _ _ _ => True)
      (fun s a u hs _ hstep => hs.ghost_step hstep) hstart
      (along_of_forall (Q := fun _ => True) (fun _ _ => trivial) _) hrun
  refine ⟨(along_withGhost (note settings)).mp halong, ?_, ?_, fun id c hc => ?_, hend.books.all⟩
  · have hnet := hend.daily
    rw [net] at hnet
    linarith
  · have hnet := hend.monthly
    rw [net] at hnet
    linarith
  · exact ⟨hend.books.row id c hc, hend.books.gone id c hc⟩

def smallBudget : Settings where
  aiDisabled := false
  aiDailyBudgetUsd := 1
  aiMonthlyBudgetUsd := 2
  daily_nonneg := by norm_num
  monthly_nonneg := by norm_num

def brief : Job := ⟨.seoBrief, 1, 1, ⟨1, 1⟩⟩

/-- A reservation of the whole daily limit, which two million tokens replace. -/
def dearBrief : List Action :=
  [.start 0 brief, .checkDaily 0, .checkMonthly 0, .reserve 0 0,
    .answer 0 (.valid ⟨true, 1000000, 1000000⟩) 1]

/-- The brief has cost two dollars: the limit and an overrun of one. -/
theorem budget_bound_dearBrief : ∃ t g,
    exec (withGhost (step smallBudget) (note smallBudget)) (World.start, Table.empty) dearBrief
      = some (t, g)
    ∧ (t.spent = 2 ∧ overrun g = 1)
    ∧ t.spent ≤ smallBudget.aiDailyBudgetUsd + overrun g := by
  have hrun : ((exec (withGhost (step smallBudget) (note smallBudget))
      (World.start, Table.empty) dearBrief).map (fun s => (s.1.spent, overrun s.2)))
      = some (2, 1) := by decide +kernel
  obtain ⟨⟨t, g⟩, hexec, hsums⟩ := Option.map_eq_some_iff.mp hrun
  obtain ⟨hspent, hover⟩ := Prod.mk.inj hsums
  exact ⟨t, g, hexec, ⟨hspent, hover⟩, (budget_bound hexec).2.1⟩

end MegaPanel.AiBudget
