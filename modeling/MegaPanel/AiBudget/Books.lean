import MegaPanel.AiBudget.Model

set_option autoImplicit false

/-! # The ledger of the reservations

The ledger has one entry for each reservation that has been committed: the run that stands for it
now, its estimate, and the actual cost once it has come to its end. What a run costs more than its
estimate is its overrun.

`Books` says that the runs and the ledger agree: an entry has one run, with its cost, and a run
belongs to one entry. It is kept by the three ways in which runs change (`Books.reserve`,
`Books.settle`, `Books.rewrite`). What a step does at all is in `Move`.
-/

namespace MegaPanel.AiBudget

open MegaPanel.Lib

variable {settings : Settings}

/-! ## The ledger -/

variable {id : RunId} {actual estimate : ℚ} {w : World}

/-- An entry of the ledger, which is kept under the id of the reservation. -/
structure Charge where
  current : RunId
  estimate : ℚ
  actual : Option ℚ

def Charge.cost (c : Charge) : ℚ := c.actual.getD c.estimate

/-- What a run that is over costs more than its estimate. -/
def Charge.overrun (c : Charge) : ℚ := c.actual.elim 0 (fun actual => max 0 (actual - c.estimate))

abbrev Ledger := Table RunId Charge

def overrun (g : Ledger) : ℚ := g.total Charge.overrun

/-- The reservation `id` is settled. -/
def settle (g : Ledger) (id current : RunId) (actual : ℚ) : Ledger :=
  g.modify id (fun c => { c with current := current, actual := some actual })

/-- The cost of a run that a worker has executed. -/
def executedCost (loaded : AIRun) (answer : Answer) : ℚ := (executedRun loaded answer).counted

def Ledger.add (g : Ledger) (w : World) : Action → Ledger
  | .reserve sid id =>
    match w.sessions.get sid with
    | some (.checked job _ _) => g.set id ⟨id, job.estimatedCost, none⟩
    | _ => g
  | .answer sid answer newId =>
    match w.sessions.get sid, answer with
    | some (.generating id loaded), .valid usage =>
      settle g id newId (actualCost (some usage) loaded.job.pricing loaded.job.estimatedCost)
    | some (.generating id loaded), .providerError _ usage
    | some (.generating id loaded), .invalid usage =>
      settle g id id (actualCost usage loaded.job.pricing loaded.job.estimatedCost)
    | _, _ => g
  | .execute sid answer =>
    match w.sessions.get sid with
    | some (.executing id loaded) => settle g id id (executedCost loaded answer)
    | _ => g
  | _ => g

def note (settings : Settings) (w : World) (a : Action) (g : Ledger) : Ledger :=
  match step settings w a with
  | some _ => g.add w a
  | none => g

/-- What has been spent, without the overruns. -/
def net (w : World) (g : Ledger) : ℚ := w.spent - overrun g

theorem overrun_nonneg (g : Ledger) : 0 ≤ overrun g := by
  refine List.sum_nonneg (fun x hx => ?_)
  obtain ⟨r, _, rfl⟩ := List.mem_map.mp hx
  rw [Charge.overrun]
  cases r.2.actual with
  | none => exact le_refl 0
  | some actual => exact le_max_left _ _

variable {g : Ledger}

theorem get_settle {current : RunId} {c : Charge} (h : g.get id = some c) (r : RunId) :
    (settle g id current actual).get r =
      if r = id then some { c with current := current, actual := some actual } else g.get r := by
  rw [settle, Table.get_modify, h, Option.map_some]

/-- Settling an open entry adds its overrun. -/
theorem overrun_settle {g : Ledger} {id current : RunId} {estimate actual : ℚ}
    (h : g.get id = some ⟨id, estimate, none⟩) :
    overrun (settle g id current actual) = overrun g + max 0 (actual - estimate) := by
  have hset := Table.total_set_old h ⟨current, estimate, some actual⟩ Charge.overrun
  rw [overrun, settle, Table.modify_of_some h]
  simpa [Charge.overrun, overrun] using hset

/-- Settling a run does not let `net` grow. -/
theorem net_settle {w' : World} {current : RunId} (h : g.get id = some ⟨id, estimate, none⟩)
    (hspent : w'.spent + estimate = w.spent + actual) :
    net w' (settle g id current actual) ≤ net w g := by
  have hover := @overrun_settle g id current estimate actual h
  have hmax : actual - estimate ≤ max 0 (actual - estimate) := le_max_right _ _
  rw [net, net, hover]
  linarith

/-! ## Steps -/

variable {t : World}

/-- What a step does. -/
inductive Move (settings : Settings) (w : World) : Action → World → Prop
  | start (sid : SessionId) (job : Job) (hfree : w.sessions.get sid = none)
      (hlock : w.lock = none) :
      Move settings w (.start sid job) { w.setSession sid (.locked job) with lock := some sid }
  | checkDaily (sid : SessionId) (job : Job) (hs : w.sessions.get sid = some (.locked job))
      (hok : w.spent + job.estimatedCost ≤ settings.aiDailyBudgetUsd) :
      Move settings w (.checkDaily sid) (w.setSession sid (.checkedDaily job w.spent))
  | checkMonthly (sid : SessionId) (job : Job) (daily : ℚ)
      (hs : w.sessions.get sid = some (.checkedDaily job daily))
      (hok : w.spent + job.estimatedCost ≤ settings.aiMonthlyBudgetUsd) :
      Move settings w (.checkMonthly sid) (w.setSession sid (.checked job daily w.spent))
  | reserve (sid : SessionId) (id : RunId) (job : Job) (daily monthly : ℚ)
      (hs : w.sessions.get sid = some (.checked job daily monthly)) (hid : id ∉ w.drawn) :
      Move settings w (.reserve sid id) { w with
        runs := w.runs.set id (reservedRun job)
        drawn := id :: w.drawn
        lock := none
        sessions := w.sessions.set sid (reservedSession id job) }
  | enqueue (sid : SessionId) (id : RunId) (loaded : AIRun)
      (hs : w.sessions.get sid = some (.enqueueing id loaded)) :
      Move settings w (.enqueue sid) { w with queue := w.queue ++ [id] }
  | enqueueFailed (sid : SessionId) (failed : Bool) (id : RunId) (loaded row : AIRun)
      (hs : w.sessions.get sid = some (.enqueueing id loaded)) (hrow : w.runs.get id = some row) :
      Move settings w (.enqueued sid failed) (World.endSession { w with
        runs := w.runs.set id (AIRun.flush loaded
          { loaded with status := .failed, errorCode := some "queue_unavailable" } row) } sid)
  | replace (sid : SessionId) (id newId : RunId) (loaded : AIRun) (usage : Usage)
      (hs : w.sessions.get sid = some (.generating id loaded)) (hnew : newId ∉ w.drawn) :
      Move settings w (.answer sid (.valid usage) newId) (World.endSession { w with
        runs := (w.runs.erase id).set newId (replacingRun loaded.job usage)
        drawn := newId :: w.drawn } sid)
  | failProvider (sid : SessionId) (id newId : RunId) (loaded row : AIRun) (code : String)
      (usage : Option Usage) (hs : w.sessions.get sid = some (.generating id loaded))
      (hrow : w.runs.get id = some row) :
      Move settings w (.answer sid (.providerError code usage) newId) (World.endSession { w with
        runs := w.runs.set id (AIRun.flush loaded (failReservation loaded code usage) row) } sid)
  | failInvalid (sid : SessionId) (id newId : RunId) (loaded row : AIRun) (usage : Option Usage)
      (hs : w.sessions.get sid = some (.generating id loaded)) (hrow : w.runs.get id = some row) :
      Move settings w (.answer sid (.invalid usage) newId) (World.endSession { w with
        runs := w.runs.set id
          (AIRun.flush loaded (failReservation loaded "invalid_ai_output" usage) row) } sid)
  | take (sid : SessionId) (id : RunId) (row : AIRun) (hfree : w.sessions.get sid = none)
      (hqueue : id ∈ w.queue) (hrow : w.runs.get id = some row) (hstatus : row.status = .reserved) :
      Move settings w (.take sid id) { w with
        runs := w.runs.set id { row with status := .running, errorCode := none }
        sessions := w.sessions.set sid
          (.executing id { row with status := .running, errorCode := none }) }
  | execute (sid : SessionId) (answer : Answer) (id : RunId) (loaded row : AIRun)
      (hs : w.sessions.get sid = some (.executing id loaded)) (hrow : w.runs.get id = some row) :
      Move settings w (.execute sid answer) (World.endSession { w with
        runs := w.runs.set id (AIRun.flush loaded (executedRun loaded answer) row) } sid)
  | endSession {a : Action} (sid : SessionId) (hadd : ∀ g : Ledger, g.add w a = g) :
      Move settings w a (w.endSession sid)

theorem checkLimit_ok {code : String} {limit total : ℚ}
    (h : checkLimit code limit total estimate = .ok ()) : total + estimate ≤ limit := by
  rw [checkLimit] at h
  split_ifs at h
  next hle => exact not_lt.mp hle

theorem enforceDaily_ok {total : ℚ} (h : enforceDaily settings total estimate = .ok ()) :
    total + estimate ≤ settings.aiDailyBudgetUsd := by
  rw [enforceDaily] at h
  split_ifs at h
  exact checkLimit_ok h

theorem step_move {a : Action} (h : step settings w a = some t) : Move settings w a t := by
  cases a with
  | start sid job =>
    simp only [step] at h
    split at h
    · next hok =>
      cases h
      exact .start sid job hok.1 hok.2
    · cases h
  | checkDaily sid =>
    obtain ⟨s, hs, h⟩ := Option.bind_eq_some_iff.mp h
    cases s with
    | locked job =>
      dsimp only at h
      split at h
      · next hok =>
        cases h
        exact .checkDaily sid job hs (enforceDaily_ok hok)
      · cases h
    | _ => cases h
  | checkMonthly sid =>
    obtain ⟨s, hs, h⟩ := Option.bind_eq_some_iff.mp h
    cases s with
    | checkedDaily job daily =>
      dsimp only at h
      split at h
      · next hok =>
        cases h
        exact .checkMonthly sid job daily hs (checkLimit_ok hok)
      · cases h
    | _ => cases h
  | reserve sid id =>
    obtain ⟨s, hs, h⟩ := Option.bind_eq_some_iff.mp h
    cases s with
    | checked job daily monthly =>
      dsimp only at h
      split_ifs at h with hid
      cases h
      exact .reserve sid id job daily monthly hs hid
    | _ => cases h
  | enqueue sid =>
    obtain ⟨s, hs, h⟩ := Option.bind_eq_some_iff.mp h
    cases s with
    | enqueueing id loaded =>
      cases h
      exact .enqueue sid id loaded hs
    | _ => cases h
  | enqueued sid failed =>
    obtain ⟨s, hs, h⟩ := Option.bind_eq_some_iff.mp h
    cases s with
    | enqueueing id loaded =>
      dsimp only at h
      split at h
      · obtain ⟨row, hrow, rfl⟩ := Option.map_eq_some_iff.mp h
        exact .enqueueFailed sid failed id loaded row hs hrow
      · cases h
        exact .endSession sid (fun _ => rfl)
    | _ => cases h
  | answer sid answer newId =>
    obtain ⟨s, hs, h⟩ := Option.bind_eq_some_iff.mp h
    cases s with
    | generating id loaded =>
      cases answer with
      | valid usage =>
        dsimp only at h
        split_ifs at h with hnew
        cases h
        exact .replace sid id newId loaded usage hs hnew
      | providerError code usage =>
        obtain ⟨row, hrow, rfl⟩ := Option.map_eq_some_iff.mp h
        exact .failProvider sid id newId loaded row code usage hs hrow
      | invalid usage =>
        obtain ⟨row, hrow, rfl⟩ := Option.map_eq_some_iff.mp h
        exact .failInvalid sid id newId loaded row usage hs hrow
      | crash =>
        cases h
        exact .endSession sid (fun g => by simp only [Ledger.add, hs])
    | _ => cases h
  | take sid id =>
    simp only [step] at h
    split at h
    · next hok =>
      obtain ⟨row, hrow, h⟩ := Option.bind_eq_some_iff.mp h
      split at h
      · next hstatus =>
        cases h
        exact .take sid id row hok.1 hok.2 hrow hstatus
      · cases h
    · cases h
  | execute sid answer =>
    obtain ⟨s, hs, h⟩ := Option.bind_eq_some_iff.mp h
    cases s with
    | executing id loaded =>
      obtain ⟨row, hrow, rfl⟩ := Option.map_eq_some_iff.mp h
      exact .execute sid answer id loaded row hs hrow
    | _ => cases h
  | abort sid =>
    obtain ⟨s, _, rfl⟩ := Option.map_eq_some_iff.mp h
    exact .endSession sid (fun _ => rfl)

/-! ## The books -/

variable {row' : AIRun}

/-- Every entry of the ledger has one run, and every run belongs to one entry. -/
structure Books (w : World) (g : Ledger) : Prop where
  drawn : ∀ r c, g.get r = some c → r ∈ w.drawn ∧ c.current ∈ w.drawn
  row : ∀ r c, g.get r = some c → ∃ run, w.runs.get c.current = some run
    ∧ run.costUsd = some c.cost
  gone : ∀ r c, g.get r = some c → c.current ≠ r → w.runs.get r = none
  single : ∀ r r' c c', g.get r = some c → g.get r' = some c' → c.current = c'.current → r = r'
  all : ∀ id run, w.runs.get id = some run → ∃ r c, g.get r = some c ∧ c.current = id
  reserved : ∀ id run, w.runs.get id = some run → run.status = .reserved →
    ∃ estimate, g.get id = some ⟨id, estimate, none⟩

theorem Books.run_drawn (h : Books w g) {run : AIRun} (hrun : w.runs.get id = some run) :
    id ∈ w.drawn := by
  obtain ⟨r, c, hc, rfl⟩ := h.all id run hrun
  exact (h.drawn r c hc).2

theorem Books.empty : Books World.start Table.empty where
  drawn := fun _ _ h => by cases h
  row := fun _ _ h => by cases h
  gone := fun _ _ h => by cases h
  single := fun _ _ _ _ h => by cases h
  all := fun _ _ h => by cases h
  reserved := fun _ _ h => by cases h

/-- A step that leaves the runs. -/
theorem Books.same (h : Books w g) (hruns : t.runs = w.runs) (hdrawn : t.drawn = w.drawn) :
    Books t g where
  drawn := by rw [hdrawn]; exact h.drawn
  row := by rw [hruns]; exact h.row
  gone := by rw [hruns]; exact h.gone
  single := h.single
  all := by rw [hruns]; exact h.all
  reserved := by rw [hruns]; exact h.reserved

/-- A run changes, but not its cost. -/
theorem Books.rewrite (h : Books w g) {row : AIRun} (hrow : w.runs.get id = some row)
    (hcost : row'.costUsd = row.costUsd) (hstatus : row'.status ≠ .reserved)
    (hruns : t.runs = w.runs.set id row') (hdrawn : t.drawn = w.drawn) : Books t g where
  drawn := by rw [hdrawn]; exact h.drawn
  row := by
    intro r c hc
    obtain ⟨run, hrun, hrcost⟩ := h.row r c hc
    rw [hruns, Table.get_set]
    split
    · next heq =>
      rw [heq, hrow] at hrun
      cases hrun
      exact ⟨row', rfl, hcost.trans hrcost⟩
    · exact ⟨run, hrun, hrcost⟩
  gone := by
    intro r c hc hne
    have hnone := h.gone r c hc hne
    have hrid : r ≠ id := by
      rintro rfl
      rw [hrow] at hnone
      cases hnone
    rw [hruns, Table.get_set_ne _ hrid, hnone]
  single := h.single
  all := by
    intro j run hj
    rw [hruns] at hj
    exact Table.forall_set h.all (h.all _ row hrow) j run hj
  reserved := by
    intro j run hj hreserved
    rw [hruns] at hj
    rcases Table.get_set_eq_some.mp hj with ⟨_, rfl⟩ | ⟨_, hold⟩
    · exact absurd hreserved hstatus
    · exact h.reserved j run hold hreserved

/-- A reservation is made. -/
theorem Books.reserve (h : Books w g) {job : Job} (hid : id ∉ w.drawn)
    (hruns : t.runs = w.runs.set id (reservedRun job)) (hdrawn : t.drawn = id :: w.drawn) :
    Books t (g.set id ⟨id, job.estimatedCost, none⟩) where
  drawn := by
    intro r c hc
    rw [hdrawn]
    rcases Table.get_set_eq_some.mp hc with ⟨rfl, rfl⟩ | ⟨_, hold⟩
    · exact ⟨List.mem_cons_self .., List.mem_cons_self ..⟩
    · exact ⟨List.mem_cons_of_mem _ (h.drawn r c hold).1, List.mem_cons_of_mem _ (h.drawn r c hold).2⟩
  row := by
    intro r c hc
    rw [hruns]
    rcases Table.get_set_eq_some.mp hc with ⟨rfl, rfl⟩ | ⟨_, hold⟩
    · exact ⟨reservedRun job, Table.get_set_self _ _ _, rfl⟩
    have hne : c.current ≠ id := fun heq => hid (heq ▸ (h.drawn r c hold).2)
    obtain ⟨run, hrun, hcost⟩ := h.row r c hold
    exact ⟨run, by rw [Table.get_set_ne _ hne, hrun], hcost⟩
  gone := by
    intro r c hc hne
    rw [hruns]
    rcases Table.get_set_eq_some.mp hc with ⟨rfl, rfl⟩ | ⟨hr, hold⟩
    · exact absurd rfl hne
    · rw [Table.get_set_ne _ hr, h.gone r c hold hne]
  single := by
    intro r r' c c' hc hc' heq
    rcases Table.get_set_eq_some.mp hc with ⟨rfl, rfl⟩ | ⟨_, hold⟩
    · rcases Table.get_set_eq_some.mp hc' with ⟨rfl, _⟩ | ⟨_, hold'⟩
      · rfl
      · have hcur : r = c'.current := heq
        exact absurd (hcur ▸ (h.drawn r' c' hold').2) hid
    · rcases Table.get_set_eq_some.mp hc' with ⟨rfl, rfl⟩ | ⟨_, hold'⟩
      · have hcur : c.current = r' := heq
        exact absurd (hcur ▸ (h.drawn r c hold).2) hid
      · exact h.single r r' c c' hold hold' heq
  all := by
    intro j run hj
    rw [hruns] at hj
    rcases Table.get_set_eq_some.mp hj with ⟨rfl, _⟩ | ⟨_, hold⟩
    · exact ⟨j, _, Table.get_set_self _ _ _, rfl⟩
    obtain ⟨r, c, hc, hcur⟩ := h.all j run hold
    have hne : r ≠ id := fun heq => hid (heq ▸ (h.drawn r c hc).1)
    exact ⟨r, c, by rw [Table.get_set_ne _ hne, hc], hcur⟩
  reserved := by
    intro j run hj hstatus
    rw [hruns] at hj
    rcases Table.get_set_eq_some.mp hj with ⟨rfl, _⟩ | ⟨hne, hold⟩
    · exact ⟨job.estimatedCost, Table.get_set_self _ _ _⟩
    · rw [Table.get_set_ne _ hne]
      exact h.reserved j run hold hstatus

/-- A run is settled where it stands, or by a new one. -/
theorem Books.settle (h : Books w g) {current : RunId}
    (hcharge : g.get id = some ⟨id, estimate, none⟩) (hcost : row'.costUsd = some actual)
    (hstatus : row'.status ≠ .reserved) (hnew : current = id ∨ current ∉ w.drawn)
    (hruns : ∀ j, t.runs.get j = if j = current then some row' else
      if j = id then none else w.runs.get j)
    (hdrawn : t.drawn = w.drawn ∨ t.drawn = current :: w.drawn) (hmem : current ∈ t.drawn) :
    Books t (AiBudget.settle g id current actual) := by
  have hid := (h.drawn id _ hcharge).1
  have hgrow : ∀ j ∈ w.drawn, j ∈ t.drawn := by
    intro j hj
    rcases hdrawn with heq | heq
    · rw [heq]; exact hj
    · rw [heq]; exact List.mem_cons_of_mem _ hj
  -- The run of another entry is neither the old nor the new one.
  have hother : ∀ r c, g.get r = some c → r ≠ id → c.current ≠ id ∧ c.current ≠ current := by
    intro r c hc hr
    have hne : c.current ≠ id := fun heq => hr (h.single r id c _ hc hcharge heq)
    refine ⟨hne, fun heq => ?_⟩
    rcases hnew with heq' | hfresh
    · exact hne (heq.trans heq')
    · exact hfresh (heq ▸ (h.drawn r c hc).2)
  have hget : ∀ r c, (AiBudget.settle g id current actual).get r = some c →
      (r = id ∧ c = ⟨current, estimate, some actual⟩) ∨ (r ≠ id ∧ g.get r = some c) := by
    intro r c hc
    rw [get_settle hcharge] at hc
    split at hc
    · next heq =>
      cases hc
      exact .inl ⟨heq, rfl⟩
    · next hne => exact .inr ⟨hne, hc⟩
  constructor
  · intro r c hc
    rcases hget r c hc with ⟨rfl, rfl⟩ | ⟨_, hold⟩
    · exact ⟨hgrow _ hid, hmem⟩
    · exact ⟨hgrow _ (h.drawn r c hold).1, hgrow _ (h.drawn r c hold).2⟩
  · intro r c hc
    rcases hget r c hc with ⟨rfl, rfl⟩ | ⟨hr, hold⟩
    · exact ⟨row', by rw [hruns, if_pos rfl], hcost⟩
    obtain ⟨run, hrun, hrcost⟩ := h.row r c hold
    obtain ⟨hne, hne'⟩ := hother r c hold hr
    exact ⟨run, by rw [hruns, if_neg hne', if_neg hne, hrun], hrcost⟩
  · intro r c hc hne
    rcases hget r c hc with ⟨rfl, rfl⟩ | ⟨hr, hold⟩
    · rw [hruns, if_neg hne.symm, if_pos rfl]
    · have hrcur : r ≠ current := by
        rintro rfl
        rcases hnew with heq | hfresh
        · exact hr heq
        · exact hfresh (h.drawn r c hold).1
      rw [hruns, if_neg hrcur, if_neg hr, h.gone r c hold hne]
  · intro r r' c c' hc hc' heq
    rcases hget r c hc with ⟨rfl, rfl⟩ | ⟨hr, hold⟩
    · rcases hget r' c' hc' with ⟨rfl, _⟩ | ⟨hr', hold'⟩
      · rfl
      · exact absurd heq.symm (hother r' c' hold' hr').2
    · rcases hget r' c' hc' with ⟨rfl, rfl⟩ | ⟨_, hold'⟩
      · exact absurd heq (hother r c hold hr).2
      · exact h.single r r' c c' hold hold' heq
  · intro j run hj
    rw [hruns] at hj
    split at hj
    · next heq => exact ⟨id, _, by rw [get_settle hcharge, if_pos rfl], heq.symm⟩
    split_ifs at hj with hne
    obtain ⟨r, c, hc, hcur⟩ := h.all j run hj
    have hr : r ≠ id := by
      rintro rfl
      rw [hcharge] at hc
      cases hc
      exact hne hcur.symm
    exact ⟨r, c, by rw [get_settle hcharge, if_neg hr, hc], hcur⟩
  · intro j run hj hreserved
    rw [hruns] at hj
    split at hj
    · cases hj
      exact absurd hreserved hstatus
    · split_ifs at hj with hne
      rw [get_settle hcharge, if_neg hne]
      exact h.reserved j run hj hreserved

end MegaPanel.AiBudget
