import MegaPanel.LeadDelivery.Fencing

set_option autoImplicit false

/-! # The attempts of a delivery

`process_delivery` counts an attempt when it claims a delivery and compares the count with the
bound when the dispatch comes back with a retryable failure, on the copy its claim has loaded.
Three paths put a delivery on the queue, or dispatch it, without that comparison: a claim, also
of a delivery whose lease ran out; a recovery; and a failure that comes back to a copy older
than the row. A run keeps every delivery `Bounded` exactly when none of them is taken for a
delivery that has used its attempts. `noteDispatch` counts the dispatches of each delivery
since it was created or last resent.
-/

namespace MegaPanel.LeadDelivery

open MegaPanel.Lib

/-! ## The property and the condition -/

variable {w : World} {a : Action} {tx : Tx} {d : Delivery}

/-- Each commit of a claim is followed by a dispatch; a resend starts the count again. -/
def noteDispatch (w : World) (a : Action) (dispatches : DeliveryId → Nat) : DeliveryId → Nat :=
  fun id =>
    match w.committing a with
    | some (_, tx) =>
      if id = tx.id then
        match tx.purpose with
        | .claim _ _ => dispatches id + 1
        | .resend _ => 0
        | _ => dispatches id
      else dispatches id
    | none => dispatches id

/-- A delivery that was dispatched `count` times: at most as often as it may be, and once it
has used its attempts it is in its last dispatch or settled. -/
structure Delivery.Bounded (d : Delivery) (count : Nat) : Prop where
  bound : count ≤ d.maxAttempts
  exhausted : d.maxAttempts ≤ count →
    d.status = .processing ∨ d.status = .delivered ∨ d.status = .deadLetter

/-- Every delivery is bounded. -/
def Bounded (s : World × (DeliveryId → Nat)) : Prop :=
  ∀ id d, s.1.db.deliveries.get id = some d → d.Bounded (s.2 id)

/-- The transactions after which a delivery is dispatched or waits to be dispatched: claims,
recoveries, and dispatches that failed and are to be retried. -/
def Tx.requeues (tx : Tx) : Bool :=
  match tx.purpose with
  | .claim _ _ | .recover => true
  | .finish _ result => decide (tx.loaded.outcome result = .retrying)
  | .resend _ => false

/-- Such a transaction commits for a row with attempts left. -/
def attemptsLeft (w : World) (a : Action) : Bool :=
  (w.committing a).all (fun c => !c.2.requeues ||
    (w.db.deliveries.get c.2.id).all (fun d => decide (d.attemptCount < d.maxAttempts)))

theorem attemptsLeft_iff {sid : SessionId} (hcommit : w.committing a = some (sid, tx))
    (hd : w.db.deliveries.get tx.id = some d) :
    attemptsLeft w a = true ↔ (tx.requeues = true → d.attemptCount < d.maxAttempts) := by
  simp only [attemptsLeft, hcommit, Option.all_some, hd, Bool.or_eq_true, Bool.not_eq_true',
    decide_eq_true_eq]
  cases tx.requeues <;> simp

/-! ## The stored count is the number of dispatches -/

variable {old new : Delivery} {s t : World × (DeliveryId → Nat)}

/-- `attempt_count` counts the dispatches. -/
structure Counted (s : World × (DeliveryId → Nat)) : Prop where
  consistent : Consistent s.1
  count : ∀ id d, s.1.db.deliveries.get id = some d →
    s.2 id = d.attemptCount ∧ d.maxAttempts = maxAttempts
  unborn : ∀ id, s.1.db.deliveries.get id = none → s.2 id = 0

theorem Counted.init (h : Init w) : Counted (w, fun _ => 0) where
  consistent := .init h
  count id d hd := by
    rw [h.deliveries] at hd
    cases hd
  unborn _ _ := rfl

/-- What a commit makes of the two counts of its delivery. -/
theorem Written.count (h : Written tx old new) :
    (match tx.purpose with
      | .claim _ _ => old.attemptCount + 1
      | .resend _ => 0
      | _ => old.attemptCount) = new.attemptCount := by
  cases h with
  | claim _ _ hp _ => rw [hp]; rfl
  | finish n result hp => rw [hp, finish_written_attemptCount]
  | recover hp _ => rw [hp]; rfl
  | resend transport hp _ => rw [hp, Delivery.resend_attemptCount]

theorem Counted.step (h : Counted s)
    (hstep : withGhost LeadDelivery.step noteDispatch s a = some t) : Counted t := by
  obtain ⟨hst, hghost⟩ := withGhost_eq_some.mp hstep
  have hc := h.consistent.step hst
  cases step_dbMove hst with
  | quiet hcommit hquiet =>
    have hsame : t.2 = s.2 := by
      rw [hghost]
      funext id
      rw [noteDispatch, hcommit]
    refine ⟨hc, fun id d hd => ?_, fun id hd => ?_⟩
    · rw [hsame]
      rcases hquiet.new id d hd with hold | ⟨hnone, hnew⟩
      · exact h.count id d hold
      · exact ⟨(h.unborn id hnone).trans hnew.attemptCount.symm, hnew.maxAttempts⟩
    · rw [hsame]
      cases hold : s.1.db.deliveries.get id with
      | none => exact h.unborn id hold
      | some d =>
        rw [hquiet.rows id d hold] at hd
        cases hd
  | commit sid tx lead computed stored hcommit hsession hdb =>
    obtain ⟨old, new, hold, hnew, hwritten⟩ :=
      (h.consistent.tx hsession).written lead computed stored
    rw [← hdb] at hnew
    have hget : ∀ id, id ≠ tx.id →
        t.1.db.deliveries.get id = s.1.db.deliveries.get id := fun id hid => by
      rw [hdb, Tx.flush_get, if_neg hid]
    have hother : ∀ id, id ≠ tx.id → t.2 id = s.2 id := fun id hid => by
      rw [hghost, noteDispatch, hcommit]
      exact if_neg hid
    refine ⟨hc, fun id d hd => ?_, fun id hd => ?_⟩
    · by_cases hid : id = tx.id
      · subst hid
        obtain ⟨hcount, hmax⟩ := h.count tx.id old hold
        rw [hnew] at hd
        cases hd
        refine ⟨?_, hwritten.same.maxAttempts.trans hmax⟩
        rw [← hwritten.count, hghost, noteDispatch, hcommit]
        simp only [if_true, hcount]
      · rw [hget id hid] at hd
        rw [hother id hid]
        exact h.count id d hd
    · by_cases hid : id = tx.id
      · rw [hid, hnew] at hd
        cases hd
      · rw [hget id hid] at hd
        rw [hother id hid]
        exact h.unborn id hd

/-! ## When a step keeps the bound -/

variable {count : Nat}

theorem Delivery.New.bounded {lead : LeadId} (h : d.New lead) : d.Bounded 0 where
  bound := Nat.zero_le _
  exhausted hle := by
    rw [h.maxAttempts] at hle
    exact absurd hle (by decide)

/-- A delivery that waits to be dispatched again is bounded as long as it has attempts left. -/
theorem Delivery.bounded_waiting_iff (h : d.status = .retrying) :
    d.Bounded count ↔ count < d.maxAttempts := by
  constructor
  · intro hb
    by_contra hle
    rcases hb.exhausted (by omega) with hs | hs | hs
    all_goals
      rw [h] at hs
      cases hs
  · intro hlt
    exact ⟨hlt.le, fun hle => by omega⟩

/-- A delivery in its dispatch or settled is bounded as long as its dispatches are. -/
theorem Delivery.bounded_busy_iff
    (h : d.status = .processing ∨ d.status = .delivered ∨ d.status = .deadLetter) :
    d.Bounded count ↔ count ≤ d.maxAttempts :=
  ⟨fun hb => hb.bound, fun hle => ⟨hle, fun _ => h⟩⟩

/-- What a commit must find for its delivery to stay bounded. -/
theorem Written.bounded_row_iff (h : Written tx old new)
    (hcopy : ∀ n result, tx.purpose = .finish n result → tx.loaded.status = .processing)
    (hbounded : old.Bounded old.attemptCount) (hmax : 0 < old.maxAttempts) :
    new.Bounded new.attemptCount ↔
      (tx.requeues = true → old.attemptCount < old.maxAttempts) := by
  have hsame := h.same.maxAttempts
  cases h with
  | claim trigger n hp _ =>
    have hrequeues : tx.requeues = true := by rw [Tx.requeues, hp]
    have hnew : (old.claim tx.openedAt).Bounded (old.attemptCount + 1) ↔
        old.attemptCount + 1 ≤ old.maxAttempts := Delivery.bounded_busy_iff (.inl rfl)
    simp only [hrequeues, true_implies]
    exact hnew
  | finish n result hp =>
    have hstatus := @finish_written_status tx.loaded old tx.openedAt result
      (hcopy n result hp)
    have hrequeues : tx.requeues = decide (tx.loaded.outcome result = .retrying) := by
      rw [Tx.requeues, hp]
    rw [finish_written_attemptCount, hrequeues, decide_eq_true_eq]
    by_cases hretry : tx.loaded.outcome result = .retrying
    · rw [Delivery.bounded_waiting_iff (hstatus.trans hretry), hsame]
      simp only [hretry, true_implies]
    have hsettled : tx.loaded.outcome result = .delivered ∨
        tx.loaded.outcome result = .deadLetter := by
      unfold Delivery.outcome at hretry ⊢
      split
      · exact .inl rfl
      split
      · next hok hagain => rw [if_neg hok, if_pos hagain] at hretry; exact absurd rfl hretry
      · exact .inr rfl
    rw [Delivery.bounded_busy_iff (.inr (by rw [hstatus]; exact hsettled)), hsame]
    simp only [hretry, false_implies, iff_true]
    exact hbounded.bound
  | recover hp _ =>
    have hrequeues : tx.requeues = true := by rw [Tx.requeues, hp]
    have hnew : (old.recover tx.openedAt).Bounded old.attemptCount ↔
        old.attemptCount < old.maxAttempts := Delivery.bounded_waiting_iff rfl
    simp only [hrequeues, true_implies]
    exact hnew
  | resend transport hp _ =>
    have hrequeues : tx.requeues = false := by rw [Tx.requeues, hp]
    simp only [hrequeues, Bool.false_eq_true, false_implies, iff_true]
    rw [Delivery.resend_attemptCount]
    exact ⟨Nat.zero_le _, fun hle => by omega⟩

theorem Counted.bounded_step (h : Counted s) (hbounded : Bounded s)
    (hstep : withGhost LeadDelivery.step noteDispatch s a = some t) :
    Bounded t ↔ attemptsLeft s.1 a = true := by
  obtain ⟨hst, hghost⟩ := withGhost_eq_some.mp hstep
  have hcount := h.step hstep
  cases step_dbMove hst with
  | quiet hcommit hquiet =>
    have hleft : attemptsLeft s.1 a = true := by rw [attemptsLeft, hcommit]; rfl
    refine iff_of_true (fun id d hd => ?_) hleft
    rw [(hcount.count id d hd).1]
    rcases hquiet.new id d hd with hold | ⟨_, hnew⟩
    · rw [← (h.count id d hold).1]
      exact hbounded id d hold
    · rw [hnew.attemptCount]
      exact hnew.bounded
  | commit sid tx lead computed stored hcommit hsession hdb =>
    have htx := h.consistent.tx hsession
    obtain ⟨old, new, hold, hnew, hwritten⟩ := htx.written lead computed stored
    rw [← hdb] at hnew
    obtain ⟨holdCount, hmax⟩ := h.count tx.id old hold
    have hrow : new.Bounded new.attemptCount ↔
        (tx.requeues = true → old.attemptCount < old.maxAttempts) :=
      hwritten.bounded_row_iff (fun n result hp => (htx.dispatch n result hp).processing)
        (holdCount ▸ hbounded tx.id old hold) (by rw [hmax]; decide)
    rw [attemptsLeft_iff hcommit hold, ← hrow]
    constructor
    · intro hb
      rw [← (hcount.count tx.id new hnew).1]
      exact hb tx.id new hnew
    · intro hb id d hd
      rw [(hcount.count id d hd).1]
      by_cases hid : id = tx.id
      · subst hid
        rw [hnew] at hd
        cases hd
        exact hb
      · rw [hdb, Tx.flush_get, if_neg hid] at hd
        rw [← (h.count id d hd).1]
        exact hbounded id d hd

/-- **The bound on attempts.** In every state of a run each delivery was dispatched at most
`max_attempts` times since it was created or resent, and is settled or in its last dispatch
once it was dispatched that often, exactly when no claim, no recovery and no late failure
commits for a delivery that has used its attempts. -/
theorem bounded_iff {w : World} (h : Init w) (as : List Action) :
    Along (withGhost step noteDispatch) (fun _ _ t => Bounded t) (w, fun _ => 0) as ↔
      Along step (fun w a _ => attemptsLeft w a = true) w as := by
  rw [← along_withGhost noteDispatch (g := fun _ => 0)]
  refine along_invariant_iff (J := Counted) (fun s a t hs ht => hs.step ht)
    (fun s a t hs hb ht => hs.bounded_step hb ht) (Counted.init h) (fun id d hd => ?_)
  rw [h.deliveries] at hd
  cases hd

/-! ## Runs -/

/-- Five dispatches fail, each within its lease; the delivery ends as a dead letter. -/
theorem bounded_iff_fiveFailures :
    Along (withGhost step noteDispatch) (fun _ _ t => Bounded t) (World.fresh, fun _ => 0)
      (createCentral :: (List.range 5).flatMap (fun sid =>
        dispatch sid 0 ++ comeBack sid unreachable ++ [.tick (seconds 3600)])) :=
  (bounded_iff World.fresh_init _).mpr (by decide +kernel)

/-- Every worker dies in its dispatch, and every lease is recovered. -/
def dyingWorkers (n : Nat) : List Action :=
  createCentral :: (List.range n).flatMap (fun sid =>
    dispatch sid 0 ++ .die sid :: .tick (seconds 301) :: .recover sid 0 :: readAndCommit sid)

/-- After five lost dispatches the delivery is not dead: it is retrying, and the sixth dispatch
begins. -/
theorem bounded_dyingWorkers :
    ¬ ∀ w as, Init w →
      Along (withGhost step noteDispatch) (fun _ _ t => Bounded t) (w, fun _ => 0) as := by
  intro h
  have hrun := h World.fresh (dyingWorkers 5 ++ [.claim 9 0 .automatic, .advance 9, .advance 9,
    .advance 9] ++ .commit 9 :: []) World.fresh_init
  have hstate : (exec (withGhost step noteDispatch) (World.fresh, fun _ => 0) (dyingWorkers 5 ++
      [.claim 9 0 .automatic, .advance 9, .advance 9, .advance 9])).any (fun s =>
        (withGhost step noteDispatch s (.commit 9)).any (fun t =>
          (t.1.db.deliveries.get 0).any (fun d => decide (d.maxAttempts < t.2 0)))) = true := by
    decide +kernel
  obtain ⟨s, hs, hcheck⟩ := (Option.any_eq_true _ _).mp hstate
  obtain ⟨t, ht, hcheck⟩ := (Option.any_eq_true _ _).mp hcheck
  obtain ⟨d, hd, hover⟩ := (Option.any_eq_true _ _).mp hcheck
  have hbound := ((hrun.at hs ht) 0 d hd).bound
  have hlt := of_decide_eq_true hover
  omega

end MegaPanel.LeadDelivery
