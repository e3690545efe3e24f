import MegaPanel.AlertDelivery.Model

set_option autoImplicit false

/-! # The attempts of alert deliveries

The second transaction of `process_alert_delivery` looks for its attempt by the count of the
delivery instance it holds. That instance is the one of its own claim, so every outcome goes to
the attempt of its own dispatch, whatever recovery and other sessions have done since. What
fails is the end of a delivery: neither recovery nor the next claim touches the attempt of a
lost dispatch, which stays `processing` when a later one settles the delivery; and neither looks
at the number of attempts.

`History` keeps, beside the state, how often each delivery was dispatched, which dispatch each
session carries out, and what each dispatch has returned.
-/

namespace MegaPanel.AlertDelivery

open MegaPanel.Lib

/-! ## Dispatches and their answers -/

structure History where
  dispatches : DeliveryId → Nat
  current : SessionId → Option (DeliveryId × Nat)
  answers : DeliveryId × Nat → Option Answer

def History.empty : History := ⟨fun _ => 0, fun _ => none, fun _ => none⟩

/-- A claim that finds its notification begins the next dispatch of its delivery. -/
def note (_ : World) (a : Action) (h : History) : History :=
  match a with
  | .claim sid id true =>
    { h with
      dispatches := Function.update h.dispatches id (h.dispatches id + 1)
      current := Function.update h.current sid (some (id, h.dispatches id + 1)) }
  | .finish sid answer =>
    match h.current sid with
    | some dispatch => { h with answers := Function.update h.answers dispatch (some answer) }
    | none => h
  | _ => h

/-- The attempt was finished with this answer. -/
structure Attempt.Records (a : Attempt) (answer : Answer) : Prop where
  finished : a.finishedAt.isSome = true
  delivered : answer.ok = true → a.status = .delivered ∧ a.errorCode = none
  failed : answer.ok = false →
    (a.status = .retrying ∨ a.status = .deadLetter) ∧ a.errorCode = answer.errorCode

/-- The attempt row of a dispatch: open until the dispatch has returned. -/
def Attempt.Of (a : Attempt) : Option Answer → Prop
  | none => a = Attempt.begin
  | some answer => a.Records answer

/-- What every state should satisfy. The attempts of a delivery are numbered through, so each
dispatch has one and no two share their sequence. -/
structure AttemptsOk (s : World × History) : Prop where
  one : ∀ id n, (s.1.db.attempts.get (id, n)).isSome ↔ 1 ≤ n ∧ n ≤ s.2.dispatches id
  own : ∀ key a, s.1.db.attempts.get key = some a → a.Of (s.2.answers key)
  settled : ∀ id d, s.1.db.deliveries.get id = some d → d.status.isTerminal = true →
    ∀ n a, s.1.db.attempts.get (id, n) = some a → a.status ≠ .processing
  bound : ∀ id, s.2.dispatches id ≤ maxAttempts

/-! ## The condition -/

variable {db : Db} {id : DeliveryId} {n : Nat}

/-- Another attempt of the delivery is open. -/
def Db.othersOpen (db : Db) (id : DeliveryId) (n : Nat) : Bool :=
  db.attempts.rows.any (fun r =>
    decide (r.1.1 = id) && decide (r.1.2 ≠ n) && decide (r.2.status = .processing))

/-- A delivery is claimed with attempts left, and settled when no other attempt of it is
open. -/
def keepsAttempts (w : World) (a : Action) : Bool :=
  match a with
  | .claim _ id true =>
    (w.db.deliveries.get id).all (fun d => decide (d.attemptCount < maxAttempts))
  | .claim _ id false => !w.db.othersOpen id 0
  | .finish sid answer =>
    (w.sessions sid).all (fun dispatch =>
      decide (dispatch.copy.outcome answer = .retrying) ||
        !w.db.othersOpen dispatch.id dispatch.copy.attemptCount)
  | _ => true

theorem Db.othersOpen_eq_false :
    db.othersOpen id n = false ↔
      ∀ m a, m ≠ n → db.attempts.get (id, m) = some a → a.status ≠ .processing := by
  rw [othersOpen, List.any_eq_false]
  constructor
  · intro h m a hm ha hopen
    exact h ((id, m), a) (Table.mem_rows.mpr ha) (by simp [hm, hopen])
  · rintro h ⟨⟨i, m⟩, a⟩ hrow hopen
    simp only [Bool.and_eq_true, decide_eq_true_eq] at hopen
    obtain ⟨⟨rfl, hm⟩, hopen⟩ := hopen
    exact h m a hm (Table.mem_rows.mp hrow) hopen

/-! ## Outcomes -/

theorem Delivery.outcome_ne_processing (d : Delivery) (answer : Answer) :
    d.outcome answer ≠ .processing := by
  unfold Delivery.outcome
  split
  · exact Status.noConfusion
  · split <;> exact Status.noConfusion

theorem Delivery.outcome_isTerminal (d : Delivery) (answer : Answer) :
    (d.outcome answer).isTerminal = !decide (d.outcome answer = .retrying) := by
  unfold Delivery.outcome
  split
  · rfl
  · split <;> rfl

theorem Delivery.finish_status (d : Delivery) (now : Time) (answer : Answer) :
    (d.finish now answer).status = d.outcome answer := by
  simp only [Delivery.finish]
  split <;> rfl

theorem Delivery.finish_attemptCount (d : Delivery) (now : Time) (answer : Answer) :
    (d.finish now answer).attemptCount = d.attemptCount := by
  simp only [Delivery.finish]
  split <;> rfl

/-- A finishing transaction writes its outcome and leaves the count alone. -/
theorem Delivery.flush_finish {copy stored : Delivery} {now : Time} {answer : Answer}
    (h : copy.status = .processing) :
    (Delivery.flush copy (copy.finish now answer) stored).status = copy.outcome answer ∧
      (Delivery.flush copy (copy.finish now answer) stored).attemptCount
        = stored.attemptCount := by
  rw [Delivery.flush, Delivery.finish_status, Delivery.finish_attemptCount]
  exact ⟨writeCol_dirty (h ▸ copy.outcome_ne_processing answer) _, writeCol_clean _ _⟩

theorem Attempt.finish_records (d : Delivery) (now : Time) (answer : Answer) :
    (Attempt.begin.finish d now answer).Records answer where
  finished := rfl
  delivered hok := by
    simp [Attempt.finish, Attempt.begin, Delivery.outcome, hok]
  failed hok := by
    simp only [Attempt.finish, Delivery.outcome, hok, Bool.false_eq_true, if_false, and_true]
    split
    · exact .inl rfl
    · exact .inr rfl

/-! ## What always holds -/

variable {s t : World × History} {new d : Delivery} {j : DeliveryId} {a : Attempt} {sid : SessionId}
  {answer : Answer}

/-- A session carries out the dispatch whose attempt its copy counts. -/
structure SessionOk (s : World × History) (sid : SessionId) (dispatch : Dispatch) : Prop where
  current : s.2.current sid = some (dispatch.id, dispatch.copy.attemptCount)
  counted : 1 ≤ dispatch.copy.attemptCount ∧
    dispatch.copy.attemptCount ≤ s.2.dispatches dispatch.id
  unanswered : s.2.answers (dispatch.id, dispatch.copy.attemptCount) = none
  processing : dispatch.copy.status = .processing

structure Tracked (s : World × History) : Prop where
  count : ∀ id d, s.1.db.deliveries.get id = some d → s.2.dispatches id = d.attemptCount
  unborn : ∀ id, s.1.db.deliveries.get id = none → s.2.dispatches id = 0
  one : ∀ id n, (s.1.db.attempts.get (id, n)).isSome ↔ 1 ≤ n ∧ n ≤ s.2.dispatches id
  own : ∀ key a, s.1.db.attempts.get key = some a → a.Of (s.2.answers key)
  future : ∀ id n, s.2.dispatches id < n → s.2.answers (id, n) = none
  session : ∀ sid dispatch, s.1.sessions sid = some dispatch → SessionOk s sid dispatch
  distinct : ∀ sid sid' dispatch dispatch', s.1.sessions sid = some dispatch →
    s.1.sessions sid' = some dispatch' → dispatch.id = dispatch'.id →
    dispatch.copy.attemptCount = dispatch'.copy.attemptCount → sid = sid'

theorem Tracked.init {w : World} (h : Init w) : Tracked (w, History.empty) where
  count id d hd := by
    rw [h.deliveries] at hd
    cases hd
  unborn _ _ := rfl
  one id n := by
    rw [h.attempts]
    simp only [Table.get_empty, Option.isSome_none, Bool.false_eq_true, false_iff, not_and,
      not_le]
    intro hn
    exact hn
  own key a ha := by
    rw [h.attempts] at ha
    cases ha
  future _ _ _ := rfl
  session sid dispatch hs := by
    rw [h.sessions] at hs
    cases hs
  distinct sid sid' dispatch dispatch' hs := by
    rw [h.sessions] at hs
    cases hs

/-- Sessions that end, or stay as they are, keep what they know. -/
theorem Tracked.of_sessions (h : Tracked s)
    (hsession : ∀ sid dispatch, t.1.sessions sid = some dispatch →
      s.1.sessions sid = some dispatch) (hdelivery : ∀ id d, t.1.db.deliveries.get id = some d →
      s.2.dispatches id = d.attemptCount)
    (hunborn : ∀ id, t.1.db.deliveries.get id = none → s.1.db.deliveries.get id = none)
    (hattempts : t.1.db.attempts = s.1.db.attempts) (hhistory : t.2 = s.2) : Tracked t where
  count id d hd := by
    rw [hhistory]
    exact hdelivery id d hd
  unborn id hd := by
    rw [hhistory]
    exact h.unborn id (hunborn id hd)
  one id n := by
    rw [hattempts, hhistory]
    exact h.one id n
  own key a ha := by
    rw [hattempts] at ha
    rw [hhistory]
    exact h.own key a ha
  future id n hn := by
    rw [hhistory] at hn ⊢
    exact h.future id n hn
  session sid dispatch hs := by
    obtain ⟨hcurrent, hcounted, hunanswered, hprocessing⟩ :=
      h.session sid dispatch (hsession sid dispatch hs)
    exact ⟨hhistory ▸ hcurrent, hhistory ▸ hcounted, hhistory ▸ hunanswered, hprocessing⟩
  distinct sid sid' dispatch dispatch' hs hs' :=
    h.distinct sid sid' dispatch dispatch' (hsession sid dispatch hs) (hsession sid' dispatch' hs')

/-- A row written under `id` counts the dispatches if it has the right count. -/
theorem count_set {dispatches : DeliveryId → Nat}
    (h : ∀ id d, db.deliveries.get id = some d → dispatches id = d.attemptCount)
    (hnew : dispatches id = new.attemptCount) (j : DeliveryId) (d : Delivery)
    (hd : (db.setDelivery id new).deliveries.get j = some d) : dispatches j = d.attemptCount := by
  exact Table.forall_set h hnew j d hd

theorem unborn_set (hd : (db.setDelivery id new).deliveries.get j = none) :
    j ≠ id ∧ db.deliveries.get j = none := by
  have hne : j ≠ id := by
    rintro rfl
    rw [show (db.setDelivery j new).deliveries.get j = some new from Table.get_set_self ..] at hd
    cases hd
  exact ⟨hne, (Table.get_set_ne _ hne _).symm.trans hd⟩

theorem setAttempt_get {b : Attempt} {key : DeliveryId × Nat}
    (h : (db.setAttempt id n a).attempts.get key = some b) :
    (key = (id, n) ∧ b = a) ∨ (key ≠ (id, n) ∧ db.attempts.get key = some b) :=
  Table.get_set_eq_some.mp h

/-- The sessions after one of them was set. -/
theorem setSession_get {sessions : SessionId → Option Dispatch} {j : SessionId}
    {session : Option Dispatch} {dispatch : Dispatch}
    (h : Function.update sessions sid session j = some dispatch) :
    (j = sid ∧ session = some dispatch) ∨ (j ≠ sid ∧ sessions j = some dispatch) := by
  by_cases hj : j = sid
  · rw [hj, Function.update_self] at h
    exact .inl ⟨hj, h⟩
  · rw [Function.update_of_ne hj] at h
    exact .inr ⟨hj, h⟩

/-- A claim begins the next dispatch. -/
theorem Tracked.claim (h : Tracked s) (hsession : s.1.sessions sid = none)
    (hd : s.1.db.deliveries.get id = some d) :
    Tracked ({ s.1.setSession sid (some ⟨id, d.claim s.1.now⟩) with
      db := (s.1.db.setDelivery id (d.claim s.1.now)).setAttempt id (d.attemptCount + 1)
        Attempt.begin }, note s.1 (.claim sid id true) s.2) := by
  have hcount := h.count id d hd
  have hdispatches : ∀ j, (note s.1 (.claim sid id true) s.2).dispatches j =
      if j = id then s.2.dispatches id + 1 else s.2.dispatches j :=
    fun j => Function.update_apply ..
  have hanswers : (note s.1 (.claim sid id true) s.2).answers = s.2.answers := rfl
  have hnew : s.2.answers (id, s.2.dispatches id + 1) = none :=
    h.future id _ (Nat.lt_succ_self _)
  constructor
  · intro j d' hd'
    rw [hdispatches]
    rcases Table.get_set_eq_some.mp hd' with ⟨rfl, rfl⟩ | ⟨hne, hd'⟩
    · rw [if_pos rfl, hcount]
      rfl
    · rw [if_neg hne]
      exact h.count j d' hd'
  · intro j hj
    obtain ⟨hne, hj⟩ := unborn_set hj
    rw [hdispatches, if_neg hne]
    exact h.unborn j hj
  · intro j n
    show ((s.1.db.attempts.set (id, d.attemptCount + 1) Attempt.begin).get (j, n)).isSome ↔ _
    rw [hdispatches, Table.get_set]
    by_cases hj : j = id
    · subst hj
      rw [if_pos rfl, hcount]
      by_cases hn : n = d.attemptCount + 1
      · subst hn
        simp
      · have hkey : (j, n) ≠ (j, d.attemptCount + 1) := fun heq => hn (Prod.mk.inj heq).2
        rw [if_neg hkey, h.one, hcount]
        omega
    · have hkey : (j, n) ≠ (id, d.attemptCount + 1) := fun heq => hj (Prod.mk.inj heq).1
      rw [if_neg hkey, if_neg hj]
      exact h.one j n
  · intro key a ha
    rw [hanswers]
    rcases setAttempt_get ha with ⟨rfl, rfl⟩ | ⟨_, ha⟩
    · rw [← hcount, hnew]
      rfl
    · exact h.own key a ha
  · intro j n hn
    rw [hanswers]
    rw [hdispatches] at hn
    refine h.future j n ?_
    split at hn
    · next hj => rw [hj]; omega
    · exact hn
  · intro j dispatch hs
    rcases setSession_get hs with ⟨rfl, heq⟩ | ⟨hj, hs₀⟩
    · cases heq
      refine ⟨?_, ?_, ?_, rfl⟩
      · show Function.update s.2.current j (some (id, s.2.dispatches id + 1)) j = _
        rw [Function.update_self, hcount]
        rfl
      · rw [hdispatches, if_pos rfl, hcount]
        exact ⟨Nat.succ_pos _, le_rfl⟩
      · rw [hanswers, ← hnew, hcount]
        rfl
    · obtain ⟨hcurrent, hcounted, hunanswered, hprocessing⟩ := h.session j dispatch hs₀
      refine ⟨?_, ⟨hcounted.1, ?_⟩, hunanswered, hprocessing⟩
      · exact (Function.update_of_ne hj ..).trans hcurrent
      · rw [hdispatches]
        split
        · next hid =>
          have hle := hcounted.2
          rw [hid] at hle
          exact hle.trans (Nat.le_succ _)
        · exact hcounted.2
  · -- The new attempt is later than those of all other sessions.
    have hlater : ∀ j dispatch, s.1.sessions j = some dispatch → dispatch.id = id →
        dispatch.copy.attemptCount ≠ d.attemptCount + 1 := by
      intro j dispatch hs hid
      have hle := (h.session j dispatch hs).counted.2
      rw [hid, hcount] at hle
      omega
    intro j j' dispatch dispatch' hs hs' hid hn
    rcases setSession_get hs with ⟨hj, heq⟩ | ⟨_, hs₀⟩
    · cases heq
      rcases setSession_get hs' with ⟨hj', _⟩ | ⟨_, hs₀'⟩
      · exact hj.trans hj'.symm
      · exact absurd hn.symm (hlater j' dispatch' hs₀' hid.symm)
    · rcases setSession_get hs' with ⟨_, heq⟩ | ⟨_, hs₀'⟩
      · cases heq
        exact absurd hn (hlater j dispatch hs₀ hid)
      · exact h.distinct j j' dispatch dispatch' hs₀ hs₀' hid hn

/-- The end of a dispatch finishes its own attempt, which is still open. -/
theorem Tracked.finish (h : Tracked s) {dispatch : Dispatch} {stored : Delivery}
    (hsession : s.1.sessions sid = some dispatch)
    (hstored : s.1.db.deliveries.get dispatch.id = some stored)
    (ha : s.1.db.attempts.get (dispatch.id, dispatch.copy.attemptCount) = some a) :
    a = Attempt.begin ∧
    Tracked ({ s.1.setSession sid none with
      db := (s.1.db.setDelivery dispatch.id (Delivery.flush dispatch.copy
        (dispatch.copy.finish s.1.now answer) stored)).setAttempt dispatch.id
          dispatch.copy.attemptCount (a.finish dispatch.copy s.1.now answer) },
      note s.1 (.finish sid answer) s.2) := by
  obtain ⟨hcurrent, hcounted, hunanswered, hprocessing⟩ := h.session sid dispatch hsession
  have hbegin : a = Attempt.begin := by
    have hown := h.own _ a ha
    rw [hunanswered] at hown
    exact hown
  have hflush := @Delivery.flush_finish dispatch.copy stored s.1.now answer hprocessing
  have hnote : note s.1 (.finish sid answer) s.2 = ⟨s.2.dispatches, s.2.current,
      Function.update s.2.answers (dispatch.id, dispatch.copy.attemptCount) (some answer)⟩ := by
    simp only [note, hcurrent]
  have hothers : ∀ j other, Function.update s.1.sessions sid none j = some other →
      j ≠ sid ∧ s.1.sessions j = some other := by
    intro j other hs
    rcases setSession_get hs with ⟨_, heq⟩ | hother
    · cases heq
    · exact hother
  refine ⟨hbegin, ?_⟩
  rw [hnote]
  constructor
  · refine count_set h.count ?_
    rw [hflush.2]
    exact h.count _ stored hstored
  · intro j hj
    exact h.unborn j (unborn_set hj).2
  · intro j n
    show ((s.1.db.attempts.set _ _).get (j, n)).isSome ↔ _
    rw [Table.get_set]
    split
    · next hkey =>
      obtain ⟨rfl, rfl⟩ := Prod.mk.inj hkey
      simpa using hcounted
    · exact h.one j n
  · intro key b hb
    show b.Of (Function.update s.2.answers _ _ key)
    rcases setAttempt_get hb with ⟨rfl, rfl⟩ | ⟨hne, hb⟩
    · rw [Function.update_self, hbegin]
      exact Attempt.finish_records ..
    · rw [Function.update_of_ne hne]
      exact h.own key b hb
  · intro j n hn
    show Function.update s.2.answers _ _ _ = none
    rw [Function.update_of_ne]
    · exact h.future j n hn
    · intro heq
      obtain ⟨rfl, rfl⟩ := Prod.mk.inj heq
      exact absurd hcounted.2 (not_le.mpr hn)
  · intro j other hs
    obtain ⟨hj, hs₀⟩ := hothers j other hs
    obtain ⟨hcurrent', hcounted', hunanswered', hprocessing'⟩ := h.session j other hs₀
    refine ⟨hcurrent', hcounted', ?_, hprocessing'⟩
    show Function.update s.2.answers _ _ _ = none
    rw [Function.update_of_ne, hunanswered']
    intro heq
    obtain ⟨hid, hn⟩ := Prod.mk.inj heq
    exact hj (h.distinct j sid other dispatch hs₀ hsession hid hn)
  · intro j j' other other' hs hs'
    exact h.distinct j j' other other' (hothers j other hs).2 (hothers j' other' hs').2

theorem Tracked.step {a : Action} (h : Tracked s)
    (hstep : withGhost AlertDelivery.step note s a = some t) : Tracked t := by
  obtain ⟨w', history⟩ := t
  obtain ⟨hst, hghost⟩ := withGhost_eq_some.mp hstep
  dsimp only at hst hghost
  subst hghost
  cases step_move hst with
  | tick elapsed =>
    exact h.of_sessions (fun _ _ hs => hs) h.count (fun _ hd => hd) rfl rfl
  | create id hnew =>
    exact h.of_sessions (fun _ _ hs => hs) (count_set h.count (h.unborn id hnew))
      (fun j hj => (unborn_set hj).2) rfl rfl
  | missing sid id d hd =>
    exact h.of_sessions (fun _ _ hs => hs) (count_set h.count (h.count id d hd))
      (fun j hj => (unborn_set hj).2) rfl rfl
  | claim sid id d hsession hd => exact h.claim hsession hd
  | finish sid answer dispatch stored a hsession hstored ha =>
    exact (h.finish hsession hstored ha).2
  | recover id d hd =>
    exact h.of_sessions (fun _ _ hs => hs) (count_set h.count (h.count id d hd))
      (fun j hj => (unborn_set hj).2) rfl rfl
  | die sid =>
    refine h.of_sessions (fun j other hs => ?_) h.count (fun _ hd => hd) rfl rfl
    rcases setSession_get hs with ⟨_, heq⟩ | ⟨_, hs₀⟩
    · cases heq
    · exact hs₀

/-! ## When a step keeps the attempts in order -/

variable {db' : Db}

/-- The delivery is not settled, or all its attempts are closed. -/
def Db.SettledAt (db : Db) (id : DeliveryId) : Prop :=
  ∀ d, db.deliveries.get id = some d → d.status.isTerminal = true →
    ∀ n a, db.attempts.get (id, n) = some a → a.status ≠ .processing

theorem Tracked.attempts_settled_iff (h : Tracked s) :
    AttemptsOk s ↔ (∀ id, s.1.db.SettledAt id) ∧ ∀ id, s.2.dispatches id ≤ maxAttempts :=
  ⟨fun hok => ⟨fun id d => hok.settled id d, hok.bound⟩,
    fun hok => ⟨h.one, h.own, fun id d => hok.1 id d, hok.2⟩⟩

theorem Db.SettledAt.of_eq (h : db.SettledAt id)
    (hdelivery : db'.deliveries.get id = db.deliveries.get id)
    (hattempts : ∀ n, db'.attempts.get (id, n) = db.attempts.get (id, n)) : db'.SettledAt id := by
  intro d hd hterminal n a ha
  rw [hdelivery] at hd
  rw [hattempts] at ha
  exact h d hd hterminal n a ha

/-- A step on one delivery leaves the others as they were. -/
theorem settled_iff (h : ∀ j, db.SettledAt j)
    (hdelivery : ∀ j, j ≠ id → db'.deliveries.get j = db.deliveries.get j)
    (hattempts : ∀ j n, j ≠ id → db'.attempts.get (j, n) = db.attempts.get (j, n)) :
    (∀ j, db'.SettledAt j) ↔ db'.SettledAt id := by
  constructor
  · intro hall
    exact hall id
  · intro hid j
    by_cases hj : j = id
    · exact hj ▸ hid
    · exact (h j).of_eq (hdelivery j hj) (fun n => hattempts j n hj)

/-- An open delivery may have open attempts. -/
theorem Db.SettledAt.of_open (hd : db.deliveries.get id = some d)
    (hopen : d.status.isTerminal = false) : db.SettledAt id := by
  intro d' hd' hterminal
  rw [hd] at hd'
  cases hd'
  rw [hopen] at hterminal
  cases hterminal

/-- A settled delivery has all its attempts closed. -/
theorem Db.settledAt_iff (hd : db.deliveries.get id = some d)
    (hterminal : d.status.isTerminal = true) :
    db.SettledAt id ↔ ∀ n a, db.attempts.get (id, n) = some a → a.status ≠ .processing := by
  constructor
  · intro h
    exact h d hd hterminal
  · intro h d' _ _
    exact h

/-- Writing a delivery alone. -/
theorem settled_setDelivery (h : ∀ j, db.SettledAt j) (id : DeliveryId) (new : Delivery) :
    (∀ j, (db.setDelivery id new).SettledAt j) ↔ (db.setDelivery id new).SettledAt id :=
  settled_iff h (fun _ hj => Table.get_set_ne _ hj _) (fun _ _ _ => rfl)

theorem setAttempt_get_ne (hj : j ≠ id) (n m : Nat) (a : Attempt) :
    (db.setAttempt id n a).attempts.get (j, m) = db.attempts.get (j, m) :=
  Table.get_set_ne _ (fun heq => hj (Prod.mk.inj heq).1) _

/-- Writing a delivery and one of its attempts. -/
theorem settled_setBoth (h : ∀ j, db.SettledAt j) (id : DeliveryId) (new : Delivery) (n : Nat)
    (a : Attempt) :
    (∀ j, ((db.setDelivery id new).setAttempt id n a).SettledAt j) ↔
      ((db.setDelivery id new).setAttempt id n a).SettledAt id :=
  settled_iff h (fun _ hj => Table.get_set_ne _ hj _) (fun _ m hj => setAttempt_get_ne hj n m a)

theorem Tracked.finish_iff (h : Tracked s) (hsettled : ∀ id, s.1.db.SettledAt id)
    {dispatch : Dispatch} (stored : Delivery) (a : Attempt)
    (hsession : s.1.sessions sid = some dispatch) :
    (∀ id, ((s.1.db.setDelivery dispatch.id (Delivery.flush dispatch.copy
        (dispatch.copy.finish s.1.now answer) stored)).setAttempt dispatch.id
          dispatch.copy.attemptCount (a.finish dispatch.copy s.1.now answer)).SettledAt id) ↔
      keepsAttempts s.1 (.finish sid answer) = true := by
  have hstatus := (@Delivery.flush_finish dispatch.copy stored s.1.now answer
    (h.session sid dispatch hsession).processing).1
  have hrow : ((s.1.db.setDelivery dispatch.id (Delivery.flush dispatch.copy
      (dispatch.copy.finish s.1.now answer) stored)).setAttempt dispatch.id
        dispatch.copy.attemptCount (a.finish dispatch.copy s.1.now answer)).deliveries.get
          dispatch.id = some (Delivery.flush dispatch.copy
            (dispatch.copy.finish s.1.now answer) stored) := Table.get_set_self ..
  rw [settled_setBoth hsettled]
  simp only [keepsAttempts, hsession, Option.all_some, Bool.or_eq_true, decide_eq_true_eq,
    Bool.not_eq_true', Db.othersOpen_eq_false]
  by_cases hretry : dispatch.copy.outcome answer = .retrying
  · simp only [hretry, true_or, iff_true]
    refine .of_open hrow ?_
    rw [hstatus, hretry]
    rfl
  rw [Db.settledAt_iff hrow (by rw [hstatus, Delivery.outcome_isTerminal]; simp [hretry])]
  simp only [hretry, false_or]
  constructor
  · intro hclosed m b hm hb
    refine hclosed m b ?_
    rw [← hb]
    exact Table.get_set_ne _ (fun heq => hm (Prod.mk.inj heq).2) _
  · intro hothers m b hb
    rcases setAttempt_get hb with ⟨_, rfl⟩ | ⟨hkey, hb⟩
    · exact dispatch.copy.outcome_ne_processing answer
    · exact hothers m b (fun heq => hkey (by rw [heq])) hb

theorem Tracked.attemptsOk_step {a : Action} (h : Tracked s) (hok : AttemptsOk s)
    (hstep : withGhost AlertDelivery.step note s a = some t) :
    AttemptsOk t ↔ keepsAttempts s.1 a = true := by
  rw [(h.step hstep).attempts_settled_iff]
  obtain ⟨hsettled, hbound⟩ := h.attempts_settled_iff.mp hok
  obtain ⟨w', history⟩ := t
  obtain ⟨hst, hghost⟩ := withGhost_eq_some.mp hstep
  dsimp only at hst hghost ⊢
  subst hghost
  cases step_move hst with
  | tick elapsed | die sid => exact iff_of_true ⟨hsettled, hbound⟩ rfl
  | create id hnew =>
    refine iff_of_true ⟨(settled_setDelivery hsettled id _).mpr ?_, hbound⟩ rfl
    exact .of_open (Table.get_set_self ..) rfl
  | recover id d hd =>
    refine iff_of_true ⟨(settled_setDelivery hsettled id _).mpr ?_, hbound⟩ rfl
    exact .of_open (Table.get_set_self ..) rfl
  | missing sid id d hd =>
    have hclosed : (s.1.db.setDelivery id d.missingNotification).SettledAt id ↔
        ∀ n a, s.1.db.attempts.get (id, n) = some a → a.status ≠ .processing :=
      Db.settledAt_iff (Table.get_set_self ..) rfl
    show (∀ j, (s.1.db.setDelivery id d.missingNotification).SettledAt j) ∧ _ ↔ _
    rw [settled_setDelivery hsettled, hclosed, keepsAttempts, Bool.not_eq_true',
      Db.othersOpen_eq_false]
    constructor
    · intro hall n b _ hb
      exact hall.1 n b hb
    · intro hothers
      refine ⟨fun n b hb => hothers n b ?_ hb, hbound⟩
      have hn := ((h.one id n).mp (by rw [hb]; rfl)).1
      omega
  | claim sid id d hsession hd =>
    have hcount := h.count id d hd
    have hall : ∀ j, ((s.1.db.setDelivery id (d.claim s.1.now)).setAttempt id
        (d.attemptCount + 1) Attempt.begin).SettledAt j :=
      (settled_setBoth hsettled id _ _ _).mpr
        (.of_open (d := d.claim s.1.now) (Table.get_set_self ..) rfl)
    have hdispatches : ∀ j, (note s.1 (.claim sid id true) s.2).dispatches j =
        if j = id then s.2.dispatches id + 1 else s.2.dispatches j :=
      fun j => Function.update_apply ..
    simp only [keepsAttempts, hd, Option.all_some, decide_eq_true_eq]
    constructor
    · rintro ⟨_, hle⟩
      have hle := hle id
      rw [hdispatches, if_pos rfl, hcount] at hle
      exact hle
    · intro hlt
      refine ⟨hall, fun j => ?_⟩
      rw [hdispatches]
      split
      · rw [hcount]
        exact hlt
      · exact hbound j
  | finish sid answer dispatch stored b hsession hstored hb =>
    rw [← h.finish_iff hsettled stored b hsession]
    have hdispatches : (note s.1 (.finish sid answer) s.2).dispatches = s.2.dispatches := by
      simp only [note]
      split <;> rfl
    rw [hdispatches]
    constructor
    · intro hall
      exact hall.1
    · intro hall
      exact ⟨hall, hbound⟩

/-- **Attempts of alert deliveries.** In every state of a run each dispatch has one attempt, in
which its own answer is recorded, no settled delivery has an open attempt and no delivery was
dispatched more than `MAX_ATTEMPTS` times, exactly when deliveries are claimed with attempts
left and settled with no other attempt open. -/
theorem attemptsOk_iff {w : World} (h : Init w) (as : List Action) :
    Along (withGhost step note) (fun _ _ t => AttemptsOk t) (w, History.empty) as ↔
      Along step (fun w a _ => keepsAttempts w a = true) w as := by
  rw [← along_withGhost note (g := History.empty)]
  refine along_invariant_iff (J := Tracked) (fun s a t hs ht => hs.step ht)
    (fun s a t hs hok ht => hs.attemptsOk_step hok ht) (Tracked.init h) ?_
  refine (Tracked.init h).attempts_settled_iff.mpr ⟨fun id d hd => ?_, fun id => Nat.zero_le _⟩
  rw [h.deliveries] at hd
  cases hd

/-! ## Runs -/

def World.fresh : World := ⟨⟨Table.empty, Table.empty⟩, 0, fun _ => none⟩

theorem World.fresh_init : Init World.fresh := ⟨rfl, rfl, fun _ => rfl⟩

def accepted : Answer := ⟨true, none, false⟩
def unavailable : Answer := ⟨false, some "unavailable", true⟩

/-- A failed and a successful dispatch of one alert, and an alert whose notification is gone. -/
theorem attemptsOk_iff_retried :
    Along (withGhost step note) (fun _ _ t => AttemptsOk t) (World.fresh, History.empty)
      [.create 0, .create 1, .claim 1 0 true, .claim 2 1 false, .finish 1 unavailable,
        .tick (seconds 60), .claim 2 0 true, .finish 2 accepted] :=
  (attemptsOk_iff World.fresh_init _).mpr (by decide +kernel)

/-- The first worker dies in its dispatch; after its lease has run out the alert is recovered
and dispatched again. -/
def lostDispatch : List Action :=
  [.create 0, .claim 1 0 true, .die 1, .tick (seconds 301), .recover 0, .claim 2 0 true]

/-- The second dispatch delivers the alert; the attempt of the first stays open. -/
theorem attemptsOk_lostDispatch :
    ¬ ∀ w as, Init w →
      Along (withGhost step note) (fun _ _ t => AttemptsOk t) (w, History.empty) as := by
  intro h
  have hrun := h World.fresh (lostDispatch ++ .finish 2 accepted :: []) World.fresh_init
  have hstate : (exec (withGhost step note) (World.fresh, History.empty) lostDispatch).any
      (fun s => (withGhost step note s (.finish 2 accepted)).any (fun t =>
        (t.1.db.deliveries.get 0).any (·.status = .delivered) &&
          (t.1.db.attempts.get (0, 1)).any (·.status = .processing))) = true := by
    decide +kernel
  obtain ⟨s, hs, hcheck⟩ := (Option.any_eq_true _ _).mp hstate
  obtain ⟨t, ht, hcheck⟩ := (Option.any_eq_true _ _).mp hcheck
  obtain ⟨hdelivered, hopen⟩ := (Bool.and_eq_true _ _).mp hcheck
  obtain ⟨d, hd, hdelivered⟩ := (Option.any_eq_true _ _).mp hdelivered
  obtain ⟨a, ha, hopen⟩ := (Option.any_eq_true _ _).mp hopen
  refine (hrun.at hs ht).settled 0 d hd ?_ 1 a ha (of_decide_eq_true hopen)
  rw [of_decide_eq_true hdelivered]
  rfl

end MegaPanel.AlertDelivery
