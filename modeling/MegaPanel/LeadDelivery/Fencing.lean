import MegaPanel.LeadDelivery.Sessions

set_option autoImplicit false

/-! # Fencing of dispatches

The second transaction of `process_delivery` writes the outcome of its dispatch without looking
at what has become of the lease: the row carries no token, and the status it tests is not read
again. A step is `Fenced` when it leaves delivered deliveries delivered and writes an outcome
only for the latest attempt of the delivery. The theorem says which runs consist of such steps:
those in which no dispatch comes back after another session has claimed its delivery.
`noteClaim` keeps the session that claimed each delivery last.
-/

namespace MegaPanel.LeadDelivery

open MegaPanel.Lib

/-! ## The property and the condition -/

variable {s : World × (DeliveryId → Option SessionId)} {a : Action} {sid : SessionId} {tx : Tx}
  {n : Nat}

/-- What the step must not do: take a delivery out of `delivered`, or write the outcome of a
dispatch over a later attempt. -/
structure Fenced (w : World) (a : Action) (w' : World) : Prop where
  absorbing : ∀ id d, w.db.deliveries.get id = some d → d.status = .delivered →
    ∃ d', w'.db.deliveries.get id = some d' ∧ d'.status = .delivered
  latest : ∀ sid tx n result, w.committing a = some (sid, tx) →
    tx.purpose = .finish n result → w.db.lastSequence tx.id = n

/-- The session whose claim of each delivery was committed last. -/
def noteClaim (w : World) (a : Action) (claimant : DeliveryId → Option SessionId) :
    DeliveryId → Option SessionId :=
  fun id =>
    match w.committing a with
    | some (sid, tx) =>
      if tx.purpose.isClaim = true ∧ id = tx.id then some sid else claimant id
    | none => claimant id

/-- A transaction that commits the outcome of a dispatch runs in the session that claimed the
delivery last. -/
def finishesLast (s : World × (DeliveryId → Option SessionId)) (a : Action) : Bool :=
  (s.1.committing a).all (fun c => !c.2.purpose.isFinish || s.2 c.2.id == some c.1)

theorem finishesLast_of_finish {result : Result} (hcommit : s.1.committing a = some (sid, tx))
    (hp : tx.purpose = .finish n result) : finishesLast s a = true ↔ s.2 tx.id = some sid := by
  rw [finishesLast, hcommit, Option.all_some, hp]
  simp [Purpose.isFinish]

/-! ## Claimants and attempts -/

variable {w : World} {t : World × (DeliveryId → Option SessionId)}

/-- The session that claimed a delivery last is the one with its latest attempt. -/
structure Tracked (s : World × (DeliveryId → Option SessionId)) : Prop where
  consistent : Consistent s.1
  claimant : ∀ sid session id n, s.1.sessions sid = some session →
    session.attempt = some (id, n) → (s.2 id = some sid ↔ s.1.db.lastSequence id = n)

theorem Tracked.init (h : Init w) : Tracked (w, fun _ => none) where
  consistent := .init h
  claimant sid session id n hs := by
    rw [h.sessions sid] at hs
    cases hs

/-- The attempt of a dispatch is not later than the latest one. -/
theorem Consistent.attempt_le (h : Consistent w) {s : Session} {id : DeliveryId}
    (hs : w.sessions sid = some s) (hattempt : s.attempt = some (id, n)) :
    n ≤ w.db.lastSequence id := by
  refine Db.le_lastSequence ?_
  cases s with
  | reading _ _ => cases hattempt
  | dispatching i m copy lead =>
    have hd : CopyOk w.db i copy ∧ DispatchOk w.db i m copy := h.session sid _ hs
    cases hattempt
    exact hd.2.attempt
  | writing tx stage =>
    have htx := h.tx hs
    rw [Session.attempt] at hattempt
    split at hattempt
    · next m result hp =>
      have hd := (htx.dispatch m result hp).attempt
      cases hattempt
      exact hd
    · cases hattempt

theorem Tracked.step (h : Tracked s) (hstep : withGhost LeadDelivery.step noteClaim s a = some t) :
    Tracked t := by
  obtain ⟨hst, hghost⟩ := withGhost_eq_some.mp hstep
  refine ⟨h.consistent.step hst, fun j session id n hs hattempt => ?_⟩
  rw [hghost, noteClaim]
  rcases attempt_origin hst hs hattempt with
    ⟨session₀, hs₀, hattempt₀, hother⟩ | ⟨tx, trigger, hcommit, rfl, hp⟩
  · -- The dispatch was there before; a claim of the same delivery takes over from it.
    have hbefore := h.claimant j session₀ id n hs₀ hattempt₀
    have hle := h.consistent.attempt_le hs₀ hattempt₀
    cases step_dbMove hst with
    | quiet hcommit hquiet =>
      have hlast : t.1.db.lastSequence id = s.1.db.lastSequence id :=
        Db.lastSequence_congr (fun m => by rw [hquiet.attempts])
      rw [hcommit, hlast]
      exact hbefore
    | commit sid tx lead computed stored hcommit hsession hdb =>
      have hlast := (h.consistent.tx hsession).lastSequence lead computed stored id
      rw [hcommit, hdb, hlast]
      by_cases hclaim : tx.purpose.isClaim = true ∧ id = tx.id
      · have hj : sid ≠ j := fun heq => hother tx (heq ▸ hcommit)
        rw [if_pos hclaim]
        simp only [if_pos hclaim, Option.some.injEq, hj, false_iff]
        omega
      · rw [if_neg hclaim]
        simp only [if_neg hclaim]
        exact hbefore
  · -- The dispatch begins with this step.
    cases step_dbMove hst with
    | quiet hnone _ => rw [hcommit] at hnone; cases hnone
    | commit sid tx' lead computed stored hcommit' hsession hdb =>
      rw [hcommit] at hcommit'
      cases hcommit'
      have htx := h.consistent.tx hsession
      have hclaim : tx.purpose.isClaim = true ∧ tx.id = tx.id := ⟨by rw [hp]; rfl, rfl⟩
      rw [hcommit, hdb, htx.lastSequence, if_pos hclaim, htx.sequence trigger n hp]
      simp only [hclaim.1, and_self, if_true]

/-- An outcome is written for the latest attempt exactly when no one has claimed since. -/
theorem Tracked.latest_iff (h : Tracked s) {t : World} (hstep : LeadDelivery.step s.1 a = some t) :
    (∀ sid tx n result, s.1.committing a = some (sid, tx) → tx.purpose = .finish n result →
      s.1.db.lastSequence tx.id = n) ↔ finishesLast s a = true := by
  cases step_dbMove hstep with
  | quiet hcommit _ => simp [finishesLast, hcommit]
  | commit sid tx lead computed stored hcommit hsession _ =>
    cases hp : tx.purpose with
    | finish n result =>
      have hattempt : (Session.writing tx (.ready lead computed stored)).attempt
          = some (tx.id, n) := by rw [Session.attempt, hp]
      rw [finishesLast_of_finish hcommit hp, h.claimant sid _ tx.id n hsession hattempt]
      constructor
      · intro hall
        exact hall sid tx n result hcommit hp
      · intro hlast sid' tx' m result' hcommit' hp'
        rw [hcommit] at hcommit'
        cases hcommit'
        rw [hp] at hp'
        cases hp'
        exact hlast
    | _ =>
      simp only [finishesLast, hcommit, Option.all_some, hp, Purpose.isFinish, Bool.not_false,
        Bool.true_or, iff_true]
      intro sid' tx' m result' hcommit' hp'
      cases hcommit'
      rw [hp] at hp'
      cases hp'

/-! ## Runs without late dispatches -/

/-- While no later claim has been committed, the delivery of a dispatch is not settled. -/
structure Unsettled (s : World × (DeliveryId → Option SessionId)) : Prop where
  tracked : Tracked s
  pending : ∀ sid session id n, s.1.sessions sid = some session →
    session.attempt = some (id, n) → s.2 id = some sid →
    ∃ d, s.1.db.deliveries.get id = some d ∧ d.status.isTerminal = false

theorem Unsettled.init (h : Init w) : Unsettled (w, fun _ => none) where
  tracked := .init h
  pending sid session id n _ _ hclaim := by cases hclaim

/-- What a commit does to a delivery that is delivered, or that its own dispatch may settle. -/
theorem Unsettled.written (h : Unsettled s) {lead : Lead} {computed : Aggregate}
    {stored : Option Aggregate} (hlast : finishesLast s a = true)
    (hcommit : s.1.committing a = some (sid, tx))
    (hsession : s.1.sessions sid = some (.writing tx (.ready lead computed stored)))
    {old new : Delivery} (hold : s.1.db.deliveries.get tx.id = some old)
    (hwritten : Written tx old new) : old.status ≠ .delivered := by
  intro hdelivered
  cases hwritten with
  | claim trigger n hp hloaded =>
    have hopen := Tx.claim_admitted hp
    rw [← hloaded, hdelivered] at hopen
    cases hopen
  | finish n result hp =>
    have hattempt : (Session.writing tx (.ready lead computed stored)).attempt
        = some (tx.id, n) := by rw [Session.attempt, hp]
    obtain ⟨d, hd, hopen⟩ := h.pending sid _ tx.id n hsession hattempt
      ((finishesLast_of_finish hcommit hp).mp hlast)
    rw [hold] at hd
    cases hd
    rw [hdelivered] at hopen
    cases hopen
  | recover hp hloaded =>
    have hprocessing := Tx.recover_admitted hp
    rw [← hloaded, hdelivered] at hprocessing
    cases hprocessing
  | resend transport hp hloaded =>
    have hdead := Tx.resend_admitted hp
    rw [← hloaded, hdelivered] at hdead
    cases hdead

theorem Unsettled.step (h : Unsettled s) (hlast : finishesLast s a = true)
    (hstep : withGhost LeadDelivery.step noteClaim s a = some t) :
    Unsettled t ∧ Fenced s.1 a t.1 := by
  obtain ⟨hst, hghost⟩ := withGhost_eq_some.mp hstep
  refine ⟨⟨h.tracked.step hstep, fun j session id n hs hattempt hclaim => ?_⟩,
    ⟨fun id d hd hdelivered => ?_, (h.tracked.latest_iff hst).mpr hlast⟩⟩
  · cases step_dbMove hst with
    | quiet hnone hquiet =>
      rw [hghost, noteClaim, hnone] at hclaim
      rcases attempt_origin hst hs hattempt with
        ⟨session₀, hs₀, hattempt₀, _⟩ | ⟨tx, _, hcommit, _, _⟩
      · obtain ⟨d, hd, hopen⟩ := h.pending j session₀ id n hs₀ hattempt₀ hclaim
        exact ⟨d, hquiet.rows id d hd, hopen⟩
      · rw [hnone] at hcommit
        cases hcommit
    | commit sid tx lead computed stored hcommit hsession hdb =>
      obtain ⟨old, new, hold, hnew, hwritten⟩ :=
        (h.tracked.consistent.tx hsession).written lead computed stored
      rw [← hdb] at hnew
      rw [hghost, noteClaim, hcommit] at hclaim
      rcases attempt_origin hst hs hattempt with
        ⟨session₀, hs₀, hattempt₀, hother⟩ | ⟨tx', trigger, hcommit', rfl, hp⟩
      · by_cases hid : id = tx.id
        · have hj : sid ≠ j := fun heq => hother tx (heq ▸ hcommit)
          subst hid
          refine ⟨new, hnew, ?_⟩
          cases hwritten with
          | claim trigger m hp _ => rfl
          | recover hp _ => rfl
          | finish m result hp =>
            -- Only the last claimant finishes, and that is the session `j`.
            simp only [hp, Purpose.isClaim, Bool.false_eq_true, false_and, if_false] at hclaim
            have hlast' := (finishesLast_of_finish hcommit hp).mp hlast
            exact absurd (Option.some.inj (hlast'.symm.trans hclaim)) hj
          | resend transport hp hloaded =>
            -- A dead delivery has no dispatch of its last claimant.
            simp only [hp, Purpose.isClaim, Bool.false_eq_true, false_and, if_false] at hclaim
            obtain ⟨d, hd, hopen⟩ := h.pending j session₀ tx.id n hs₀ hattempt₀ hclaim
            rw [hold] at hd
            cases hd
            rw [hloaded, Tx.resend_admitted hp] at hopen
            cases hopen
        · have hclaim₀ : s.2 id = some j := by simpa only [hid, and_false, if_false] using hclaim
          obtain ⟨d, hd, hopen⟩ := h.pending j session₀ id n hs₀ hattempt₀ hclaim₀
          refine ⟨d, ?_, hopen⟩
          rw [hdb, Tx.flush_get, if_neg hid, hd]
      · rw [hcommit] at hcommit'
        cases hcommit'
        refine ⟨new, hnew, ?_⟩
        cases hwritten with
        | claim _ _ _ _ => rfl
        | finish _ _ hp' => rw [hp] at hp'; cases hp'
        | recover hp' _ => rw [hp] at hp'; cases hp'
        | resend _ hp' _ => rw [hp] at hp'; cases hp'
  · cases step_dbMove hst with
    | quiet _ hquiet => exact ⟨d, hquiet.rows id d hd, hdelivered⟩
    | commit sid tx lead computed stored hcommit hsession hdb =>
      by_cases hid : id = tx.id
      · subst hid
        obtain ⟨old, new, hold, _, hwritten⟩ :=
          (h.tracked.consistent.tx hsession).written lead computed stored
        rw [hold] at hd
        cases hd
        exact absurd hdelivered (h.written hlast hcommit hsession hold hwritten)
      · refine ⟨d, ?_, hdelivered⟩
        rw [hdb, Tx.flush_get, if_neg hid, hd]

/-- **Fencing of dispatches.** In a run every step leaves delivered deliveries delivered and
writes outcomes for latest attempts only, exactly when no dispatch comes back after another
session has claimed its delivery. -/
theorem fenced_iff {w : World} (h : Init w) (as : List Action) :
    Along step Fenced w as ↔
      Along (withGhost step noteClaim) (fun s a _ => finishesLast s a = true)
        (w, fun _ => none) as := by
  rw [← along_withGhost noteClaim (g := fun _ => none)]
  constructor
  · intro hfenced
    refine (along_iff (I := Tracked) (fun s a t hs ht => hs.step ht)
      (fun s a t hs ht => hs.latest_iff (withGhost_eq_some.mp ht).1) (Tracked.init h)).mp ?_
    exact hfenced.mono (fun s a t hstep => hstep.latest)
  · intro hlast
    have hstep : ∀ s a t, Unsettled s → finishesLast s a = true →
        withGhost step noteClaim s a = some t → Unsettled t ∧ Fenced s.1 a t.1 :=
      fun s a t hs hl ht => hs.step hl ht
    exact along_rule hstep (Unsettled.init h) hlast

/-! ## Runs -/

/-- The system before any lead, at time 0. -/
def World.fresh : World where
  db := ⟨Table.empty, Table.empty, Table.empty, Table.empty⟩
  now := 0
  sessions := fun _ => none
  deliveryLocks := fun _ => none
  leadLocks := fun _ => none

theorem World.fresh_init : Init World.fresh where
  leads := rfl
  deliveries := rfl
  attempts := rfl
  aggregates := rfl
  sessions _ := rfl
  deliveryLocks _ := rfl
  leadLocks _ := rfl

/-- A session's reads, and its commit. -/
def readAndCommit (sid : SessionId) : List Action :=
  [.advance sid, .advance sid, .advance sid, .commit sid]

/-- The session `sid` claims a delivery and dispatches it. -/
def dispatch (sid : SessionId) (id : DeliveryId) : List Action :=
  .claim sid id .automatic :: readAndCommit sid

/-- The dispatch of the session `sid` comes back. -/
def comeBack (sid : SessionId) (result : Result) : List Action :=
  .finish sid result :: readAndCommit sid

/-- An answer of the receiver, and the lack of one. -/
def accepted : Result := ⟨true, some 200, none, none⟩
def unreachable : Result := ⟨false, none, some "connection refused", none⟩

/-- A lead with one e-mail delivery over the central transport. -/
def createCentral : Action := .create 0 [0] false (some ⟨1, "sales@example.org"⟩) none

/-- One failed and one successful dispatch, each within its lease. -/
theorem fenced_iff_retried :
    Along step Fenced World.fresh
      (createCentral :: dispatch 1 0 ++ comeBack 1 unreachable ++ .tick (seconds 60) ::
        dispatch 2 0 ++ comeBack 2 accepted) :=
  (fenced_iff World.fresh_init _).mpr (by decide +kernel)

/-- Session 1 dispatches for longer than its lease; the delivery is recovered and delivered by
session 2, and then the dispatch of session 1 comes back. -/
def lateDispatch : List Action :=
  createCentral :: dispatch 1 0 ++ .tick (seconds 301) :: .recover 3 0 :: readAndCommit 3 ++
    dispatch 2 0 ++ comeBack 2 accepted ++
      [.finish 1 unreachable, .advance 1, .advance 1, .advance 1]

/-- The late outcome turns the delivered delivery into a retrying one. -/
theorem fenced_lateDispatch : ¬ ∀ w as, Init w → Along step Fenced w as := by
  intro h
  have hrun := h World.fresh (lateDispatch ++ .commit 1 :: []) World.fresh_init
  have hstate : (exec step World.fresh lateDispatch).any (fun w =>
      (w.db.deliveries.get 0).any (fun d => d.status = .delivered) &&
        (step w (.commit 1)).any (fun w' =>
          (w'.db.deliveries.get 0).any (fun d => d.status = .retrying))) = true := by
    decide +kernel
  obtain ⟨w, hw, hcheck⟩ := (Option.any_eq_true _ _).mp hstate
  obtain ⟨hbefore, hafter⟩ := (Bool.and_eq_true _ _).mp hcheck
  obtain ⟨d, hd, hdelivered⟩ := (Option.any_eq_true _ _).mp hbefore
  obtain ⟨w', hw', hafter⟩ := (Option.any_eq_true _ _).mp hafter
  obtain ⟨d', hd', hretrying⟩ := (Option.any_eq_true _ _).mp hafter
  obtain ⟨d'', hd'', hkept⟩ := (hrun.at hw hw').absorbing 0 d hd (of_decide_eq_true hdelivered)
  rw [hd'] at hd''
  cases hd''
  rw [of_decide_eq_true hretrying] at hkept
  cases hkept

end MegaPanel.LeadDelivery
