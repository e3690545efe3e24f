import MegaPanel.LeadDelivery.System

set_option autoImplicit false

/-! # What sessions know of the rows they hold

A transaction holds the lock of its delivery from its beginning to its end, so the row stays
as a claim, a recovery or a resend has loaded it. A finishing transaction works on the copy
its claim has loaded; the row may have moved on, but not in the columns that identify the
delivery, and the attempt row of its claim is still there. `Consistent` collects these facts;
every step keeps them.
-/

namespace MegaPanel.LeadDelivery

open MegaPanel.Lib

/-! ## Columns no transaction writes -/

/-- Two instances of one delivery: they agree on the columns no transaction writes. -/
structure Delivery.Same (d d' : Delivery) : Prop where
  leadId : d.leadId = d'.leadId
  required : d.required = d'.required
  channel : d.channel = d'.channel
  routingSource : d.routingSource = d'.routingSource
  maxAttempts : d.maxAttempts = d'.maxAttempts
  createdAt : d.createdAt = d'.createdAt

theorem Delivery.Same.refl (d : Delivery) : d.Same d := ⟨rfl, rfl, rfl, rfl, rfl, rfl⟩

theorem Delivery.Same.symm {d d' : Delivery} (h : d.Same d') : d'.Same d :=
  ⟨h.leadId.symm, h.required.symm, h.channel.symm, h.routingSource.symm, h.maxAttempts.symm,
    h.createdAt.symm⟩

theorem Delivery.Same.trans {d d' d'' : Delivery} (h : d.Same d') (h' : d'.Same d'') :
    d.Same d'' :=
  ⟨h.leadId.trans h'.leadId, h.required.trans h'.required, h.channel.trans h'.channel,
    h.routingSource.trans h'.routingSource, h.maxAttempts.trans h'.maxAttempts,
    h.createdAt.trans h'.createdAt⟩

theorem Delivery.flush_same (loaded current stored : Delivery) :
    (Delivery.flush loaded current stored).Same stored := ⟨rfl, rfl, rfl, rfl, rfl, rfl⟩

theorem Delivery.finish_same (d : Delivery) (now : Time) (result : Result) :
    (d.finish now result).Same d := by
  simp only [Delivery.finish]
  split <;> exact ⟨rfl, rfl, rfl, rfl, rfl, rfl⟩

theorem Delivery.resend_same (d : Delivery) (now : Time) (transport : Option Transport) :
    (d.resend now transport).Same d := by
  simp only [Delivery.resend]
  split <;> exact ⟨rfl, rfl, rfl, rfl, rfl, rfl⟩

theorem Purpose.apply_same (purpose : Purpose) (now : Time) (d : Delivery) :
    (purpose.apply now d).Same d := by
  cases purpose with
  | claim _ _ => exact ⟨rfl, rfl, rfl, rfl, rfl, rfl⟩
  | finish _ result => exact d.finish_same now result
  | recover => exact ⟨rfl, rfl, rfl, rfl, rfl, rfl⟩
  | resend transport => exact d.resend_same now transport

theorem Tx.current_same (tx : Tx) : tx.current.Same tx.loaded :=
  tx.purpose.apply_same tx.openedAt tx.loaded

/-- A flush over the row that was loaded stores the session's instance. -/
theorem Delivery.flush_stored {loaded current : Delivery} (h : current.Same loaded) :
    Delivery.flush loaded current loaded = current := by
  obtain ⟨h1, h2, h3, h4, h5, h6⟩ := h
  cases current
  simp only [Delivery.flush, writeCol_stored]
  simp only at h1 h2 h3 h4 h5 h6
  subst h1 h2 h3 h4 h5 h6
  rfl

/-! ## The outcome of a dispatch -/

@[simp] theorem Delivery.finish_status (d : Delivery) (now : Time) (result : Result) :
    (d.finish now result).status = d.outcome result := by
  simp only [Delivery.finish]
  split
  · next h => rw [h]
  · next h => rw [h]
  · rfl

@[simp] theorem Delivery.finish_attemptCount (d : Delivery) (now : Time) (result : Result) :
    (d.finish now result).attemptCount = d.attemptCount := by
  simp only [Delivery.finish]
  split <;> rfl

theorem Delivery.outcome_ne_processing (d : Delivery) (result : Result) :
    d.outcome result ≠ .processing := by
  unfold Delivery.outcome
  split
  · exact DeliveryStatus.noConfusion
  · split <;> exact DeliveryStatus.noConfusion

theorem Delivery.resend_status (d : Delivery) (now : Time) (transport : Option Transport) :
    (d.resend now transport).status = .queued := rfl

theorem Delivery.resend_attemptCount (d : Delivery) (now : Time)
    (transport : Option Transport) : (d.resend now transport).attemptCount = 0 := rfl

/-! ## What a transaction was admitted on -/

theorem Tx.claim_admitted {tx : Tx} {trigger : Trigger} {n : Nat}
    (h : tx.purpose = .claim trigger n) : tx.loaded.status.isTerminal = false := by
  have hadm := tx.admitted
  rw [h] at hadm
  simp only [Purpose.admits, Delivery.isClaimable, Bool.and_eq_true, Bool.not_eq_true'] at hadm
  exact hadm.1.1

theorem Tx.recover_admitted {tx : Tx} (h : tx.purpose = .recover) :
    tx.loaded.status = .processing := by
  have hadm := tx.admitted
  rw [h] at hadm
  simp only [Purpose.admits, Delivery.isExpired, Bool.and_eq_true, decide_eq_true_eq] at hadm
  exact hadm.1

theorem Tx.resend_admitted {tx : Tx} {transport : Option Transport}
    (h : tx.purpose = .resend transport) : tx.loaded.status = .deadLetter := by
  have hadm := tx.admitted
  rw [h] at hadm
  simp only [Purpose.admits, Delivery.isResendable, Bool.and_eq_true, decide_eq_true_eq] at hadm
  exact hadm.1

/-! ## The latest attempt -/

theorem Db.lastSequence_le_iff {db : Db} {id : DeliveryId} {m : Nat} :
    db.lastSequence id ≤ m ↔ ∀ n, (db.attempts.get (id, n)).isSome → n ≤ m := by
  have hfold : ∀ l : List Nat, l.foldr max 0 ≤ m ↔ ∀ n ∈ l, n ≤ m := by
    intro l
    induction l with
    | nil => simp
    | cons n l ih => simp [ih]
  rw [Db.lastSequence, hfold]
  constructor
  · intro h n hn
    exact h n (List.mem_map.mpr ⟨(id, n), List.mem_filter.mpr
      ⟨(db.attempts.mem_keys _).mpr hn, by simp⟩, rfl⟩)
  · intro h n hn
    obtain ⟨⟨i, k⟩, hk, rfl⟩ := List.mem_map.mp hn
    obtain ⟨hmem, hid⟩ := List.mem_filter.mp hk
    have hi : i = id := by simpa using hid
    subst hi
    exact h k ((db.attempts.mem_keys _).mp hmem)

theorem Db.le_lastSequence {db : Db} {id : DeliveryId} {n : Nat}
    (h : (db.attempts.get (id, n)).isSome) : n ≤ db.lastSequence id :=
  Db.lastSequence_le_iff.mp le_rfl n h

/-- The latest attempt depends on which attempts there are only. -/
theorem Db.lastSequence_congr {db db' : Db} {id : DeliveryId}
    (h : ∀ n, (db'.attempts.get (id, n)).isSome = (db.attempts.get (id, n)).isSome) :
    db'.lastSequence id = db.lastSequence id := by
  refine eq_of_forall_ge_iff (fun m => ?_)
  simp only [Db.lastSequence_le_iff, h]

/-- A claim's attempt is the latest one. -/
theorem Db.lastSequence_insert {db db' : Db} {id : DeliveryId} {a : Attempt}
    (h : db'.attempts = db.attempts.set (id, db.lastSequence id + 1) a) :
    db'.lastSequence id = db.lastSequence id + 1 := by
  refine le_antisymm (Db.lastSequence_le_iff.mpr (fun n hn => ?_)) (Db.le_lastSequence ?_)
  · by_cases hkey : n = db.lastSequence id + 1
    · exact hkey.le
    · rw [h, Table.get_set_ne _ (by simpa using hkey)] at hn
      exact (Db.le_lastSequence hn).trans (Nat.le_succ _)
  · rw [h, Table.get_set_self]
    rfl

/-! ## What a commit writes to a delivery -/

/-- What the commit of a transaction makes of its delivery's row. -/
inductive Written (tx : Tx) (old : Delivery) : Delivery → Prop
  | claim (trigger : Trigger) (n : Nat) (hpurpose : tx.purpose = .claim trigger n)
      (hold : old = tx.loaded) : Written tx old (old.claim tx.openedAt)
  | finish (n : Nat) (result : Result) (hpurpose : tx.purpose = .finish n result) :
      Written tx old (Delivery.flush tx.loaded (tx.loaded.finish tx.openedAt result) old)
  | recover (hpurpose : tx.purpose = .recover) (hold : old = tx.loaded) :
      Written tx old (old.recover tx.openedAt)
  | resend (transport : Option Transport) (hpurpose : tx.purpose = .resend transport)
      (hold : old = tx.loaded) : Written tx old (old.resend tx.openedAt transport)

theorem Written.same {tx : Tx} {old new : Delivery} (h : Written tx old new) : new.Same old := by
  cases h with
  | claim _ _ _ _ => exact ⟨rfl, rfl, rfl, rfl, rfl, rfl⟩
  | finish _ _ _ => exact Delivery.flush_same _ _ _
  | recover _ _ => exact ⟨rfl, rfl, rfl, rfl, rfl, rfl⟩
  | resend transport _ _ => exact old.resend_same _ transport

/-- A finishing transaction writes the status its dispatch has earned, whatever the row says
now: its copy still says `processing`. -/
theorem finish_written_status {loaded old : Delivery} {now : Time} {result : Result}
    (h : loaded.status = .processing) :
    (Delivery.flush loaded (loaded.finish now result) old).status = loaded.outcome result := by
  rw [Delivery.flush, Delivery.finish_status]
  exact writeCol_dirty (h ▸ loaded.outcome_ne_processing result) _

theorem finish_written_attemptCount (loaded old : Delivery) (now : Time) (result : Result) :
    (Delivery.flush loaded (loaded.finish now result) old).attemptCount = old.attemptCount := by
  rw [Delivery.flush, Delivery.finish_attemptCount]
  exact writeCol_clean _ _

/-! ## The invariant -/

/-- A finishing transaction works on a copy that may be outdated. -/
def Purpose.isFinish : Purpose → Bool
  | .finish _ _ => true
  | _ => false

def Purpose.isClaim : Purpose → Bool
  | .claim _ _ => true
  | _ => false

theorem Purpose.isClaim_eq_true {p : Purpose} (h : p.isClaim = true) :
    ∃ trigger n, p = .claim trigger n := by
  cases p with
  | claim trigger n => exact ⟨trigger, n, rfl⟩
  | _ => cases h

/-- The instance is one of the row stored under its key. -/
def CopyOk (db : Db) (id : DeliveryId) (copy : Delivery) : Prop :=
  ∃ row, db.deliveries.get id = some row ∧ row.Same copy

/-- The attempt of a dispatch is there, and the copy is the one its claim has written. -/
structure DispatchOk (db : Db) (id : DeliveryId) (n : Nat) (copy : Delivery) : Prop where
  attempt : (db.attempts.get (id, n)).isSome
  processing : copy.status = .processing
  counted : 0 < copy.attemptCount

/-- What a transaction knows. -/
structure TxOk (w : World) (sid : SessionId) (tx : Tx) (stage : Stage) : Prop where
  owner : w.deliveryLocks tx.id = some sid
  leadOwner : tx.purpose.locksLead = true → stage ≠ .locked →
    w.leadLocks tx.loaded.leadId = some sid
  copy : CopyOk w.db tx.id tx.loaded
  row : tx.purpose.isFinish = false → w.db.deliveries.get tx.id = some tx.loaded
  sequence : ∀ trigger n, tx.purpose = .claim trigger n → n = w.db.lastSequence tx.id + 1
  dispatch : ∀ n result, tx.purpose = .finish n result → DispatchOk w.db tx.id n tx.loaded
  held : tx.purpose.locksLead = false → tx.held = none

/-- What a session knows. -/
def SessionOk (w : World) (sid : SessionId) : Session → Prop
  | .reading _ _ => True
  | .writing tx stage => TxOk w sid tx stage
  | .dispatching id n copy _ => CopyOk w.db id copy ∧ DispatchOk w.db id n copy

/-- Every session knows what it should, and every delivery has its lead. -/
structure Consistent (w : World) : Prop where
  session : ∀ sid s, w.sessions sid = some s → SessionOk w sid s
  lead : ∀ id row, w.db.deliveries.get id = some row → (w.db.leads.get row.leadId).isSome

theorem Consistent.init {w : World} (h : Init w) : Consistent w where
  session sid s hs := by
    rw [h.sessions sid] at hs
    cases hs
  lead id row hrow := by
    rw [h.deliveries] at hrow
    cases hrow

theorem Consistent.tx {w : World} (h : Consistent w) {sid : SessionId} {tx : Tx} {stage : Stage}
    (hs : w.sessions sid = some (.writing tx stage)) : TxOk w sid tx stage := h.session sid _ hs

/-! ## What other sessions leave alone -/

/-- What the session `sid` can rely on while other sessions take a step. -/
structure Frame (w w' : World) (sid : SessionId) : Prop where
  deliveryLocks : ∀ id, w.deliveryLocks id = some sid → w'.deliveryLocks id = some sid
  leadLocks : ∀ lead, w.leadLocks lead = some sid → w'.leadLocks lead = some sid
  rows : ∀ id row, w.db.deliveries.get id = some row →
    ∃ row', w'.db.deliveries.get id = some row' ∧ row'.Same row
  locked : ∀ id row, w.deliveryLocks id = some sid → w.db.deliveries.get id = some row →
    w'.db.deliveries.get id = some row ∧ w'.db.lastSequence id = w.db.lastSequence id
  attempts : ∀ key, (w.db.attempts.get key).isSome → (w'.db.attempts.get key).isSome

theorem Frame.of_db {w w' : World} {sid : SessionId} (hdb : w'.db = w.db)
    (hdelivery : ∀ id, w.deliveryLocks id = some sid → w'.deliveryLocks id = some sid)
    (hlead : ∀ lead, w.leadLocks lead = some sid → w'.leadLocks lead = some sid) :
    Frame w w' sid where
  deliveryLocks := hdelivery
  leadLocks := hlead
  rows id row hrow := ⟨row, by rw [hdb, hrow], .refl row⟩
  locked id row _ hrow := by rw [hdb]; exact ⟨hrow, rfl⟩
  attempts key hkey := by rw [hdb]; exact hkey

theorem CopyOk.frame {w w' : World} {sid : SessionId} (hf : Frame w w' sid) {id : DeliveryId}
    {copy : Delivery} (h : CopyOk w.db id copy) : CopyOk w'.db id copy := by
  obtain ⟨row, hrow, hsame⟩ := h
  obtain ⟨row', hrow', hsame'⟩ := hf.rows id row hrow
  exact ⟨row', hrow', hsame'.trans hsame⟩

theorem DispatchOk.frame {w w' : World} {sid : SessionId} (hf : Frame w w' sid)
    {id : DeliveryId} {n : Nat} {copy : Delivery} (h : DispatchOk w.db id n copy) :
    DispatchOk w'.db id n copy where
  attempt := hf.attempts _ h.attempt
  processing := h.processing
  counted := h.counted

theorem SessionOk.frame {w w' : World} {sid : SessionId} (hf : Frame w w' sid) {s : Session}
    (h : SessionOk w sid s) : SessionOk w' sid s := by
  cases s with
  | reading lead copy => trivial
  | writing tx stage =>
    have htx : TxOk w sid tx stage := h
    obtain ⟨stored, hstored, _⟩ := htx.copy
    have hlocked := hf.locked tx.id stored htx.owner hstored
    exact
      { owner := hf.deliveryLocks _ htx.owner
        leadOwner := fun hp hs => hf.leadLocks _ (htx.leadOwner hp hs)
        copy := htx.copy.frame hf
        row := fun hp => by
          rw [hlocked.1, ← hstored]
          exact htx.row hp
        sequence := fun trigger n hp => by
          rw [hlocked.2]
          exact htx.sequence trigger n hp
        dispatch := fun n result hp => (htx.dispatch n result hp).frame hf
        held := htx.held }
  | dispatching id n copy lead =>
    have hd : CopyOk w.db id copy ∧ DispatchOk w.db id n copy := h
    exact ⟨hd.1.frame hf, hd.2.frame hf⟩

/-- A step changes at most one session; the others keep what they know. -/
theorem Consistent.of_frame {w w' : World} (h : Consistent w) (sid : SessionId)
    (hsame : ∀ j, j ≠ sid → w'.sessions j = w.sessions j)
    (hframe : ∀ j, j ≠ sid → Frame w w' j)
    (hown : ∀ s, w'.sessions sid = some s → SessionOk w' sid s)
    (hlead : ∀ id row, w'.db.deliveries.get id = some row →
      (w'.db.leads.get row.leadId).isSome) : Consistent w' where
  session j s hs := by
    by_cases hj : j = sid
    · subst hj
      exact hown s hs
    · rw [hsame j hj] at hs
      exact (h.session j s hs).frame (hframe j hj)
  lead := hlead

/-! ## What a commit writes -/

theorem Tx.flush_get {tx : Tx} {lead : Lead} {computed : Aggregate} {stored : Option Aggregate}
    {db : Db} (id : DeliveryId) :
    (tx.flush lead computed stored db).deliveries.get id =
      if id = tx.id then (db.deliveries.get tx.id).map (Delivery.flush tx.loaded tx.current)
      else db.deliveries.get id := Table.get_modify _ _ _ _

theorem Tx.flush_leads {tx : Tx} {lead : Lead} {computed : Aggregate}
    {stored : Option Aggregate} {db : Db} (l : LeadId) :
    ((tx.flush lead computed stored db).leads.get l).isSome = (db.leads.get l).isSome := by
  show ((db.leads.modify _ _).get l).isSome = _
  rw [Table.get_modify]
  split
  · next h => rw [h, Option.isSome_map]
  · rfl

theorem Tx.flush_attempts {tx : Tx} {db : Db} {key : DeliveryId × Nat}
    (h : (db.attempts.get key).isSome) : ((tx.flushAttempts db.attempts).get key).isSome := by
  unfold Tx.flushAttempts
  split
  · rw [Table.get_set]
    split
    · rfl
    · exact h
  · split
    · rw [Table.get_set]
      split
      · rfl
      · exact h
    · exact h
  · exact h

/-- A commit adds attempts of its own delivery only. -/
theorem Tx.flush_attempts_ne {tx : Tx} {db : Db} {id : DeliveryId} (hid : id ≠ tx.id) (n : Nat) :
    (tx.flushAttempts db.attempts).get (id, n) = db.attempts.get (id, n) := by
  have hkey : ∀ m, (id, n) ≠ (tx.id, m) := fun m hm => hid (congrArg Prod.fst hm)
  unfold Tx.flushAttempts
  split
  · exact Table.get_set_ne _ (hkey _) _
  · split
    · exact Table.get_set_ne _ (hkey _) _
    · rfl
  · rfl

/-- The row of a transaction that commits. -/
theorem TxOk.written {w : World} {sid : SessionId} {tx : Tx} {stage : Stage}
    (h : TxOk w sid tx stage) (lead : Lead) (computed : Aggregate) (stored : Option Aggregate) :
    ∃ old new, w.db.deliveries.get tx.id = some old ∧
      (tx.flush lead computed stored w.db).deliveries.get tx.id = some new ∧
      Written tx old new := by
  obtain ⟨old, hold, _⟩ := h.copy
  have hget := @Tx.flush_get tx lead computed stored w.db tx.id
  rw [if_pos rfl, hold, Option.map_some] at hget
  refine ⟨old, _, hold, hget, ?_⟩
  have hloaded : tx.purpose.isFinish = false → old = tx.loaded := fun hp =>
    Option.some.inj (hold.symm.trans (h.row hp))
  have hclean : tx.purpose.isFinish = false →
      Delivery.flush tx.loaded tx.current old = tx.purpose.apply tx.openedAt old := by
    intro hp
    rw [hloaded hp]
    exact Delivery.flush_stored tx.current_same
  cases hp : tx.purpose with
  | claim trigger n =>
    rw [hclean (by rw [hp]; rfl), hp]
    exact .claim trigger n hp (hloaded (by rw [hp]; rfl))
  | finish n result =>
    rw [Tx.current, hp]
    exact .finish n result hp
  | recover =>
    rw [hclean (by rw [hp]; rfl), hp]
    exact .recover hp (hloaded (by rw [hp]; rfl))
  | resend transport =>
    rw [hclean (by rw [hp]; rfl), hp]
    exact .resend transport hp (hloaded (by rw [hp]; rfl))

/-! ## The rows of a new lead -/

/-- A delivery as the creation of the lead inserts it. -/
structure Delivery.New (lead : LeadId) (d : Delivery) : Prop where
  leadId : d.leadId = lead
  attemptCount : d.attemptCount = 0
  maxAttempts : d.maxAttempts = LeadDelivery.maxAttempts
  status : d.status = .queued ∨ d.status = .deadLetter

theorem newDelivery_new (now : Time) (lead : LeadId) (channel : Channel) (source : RoutingSource)
    (required : Bool) (recipient : Option String) :
    (newDelivery now lead channel source required recipient).New lead := ⟨rfl, rfl, rfl, .inl rfl⟩

theorem Delivery.New.bindTransport {lead : LeadId} {d : Delivery} (h : d.New lead)
    (transport : Transport) (rebind : Bool) : (d.bindTransport transport rebind).New lead :=
  ⟨h.leadId, h.attemptCount, h.maxAttempts, h.status⟩

theorem Delivery.New.configured {lead : LeadId} {d : Delivery} (h : d.New lead) (now : Time)
    (isConfigured : Bool) (error : String) : (d.configured now isConfigured error).New lead where
  leadId := h.leadId
  attemptCount := h.attemptCount
  maxAttempts := h.maxAttempts
  status := by
    cases isConfigured with
    | true => exact .inl rfl
    | false => exact .inr rfl

theorem createGlobalSmtpDelivery_new (now : Time) (lead : LeadId)
    (transport : Option Transport) : (createGlobalSmtpDelivery now lead transport).New lead := by
  unfold createGlobalSmtpDelivery
  refine Delivery.New.configured ?_ _ _ _
  cases transport <;> exact ⟨rfl, rfl, rfl, .inl rfl⟩

theorem createPolicyDelivery_new (now : Time) (lead : LeadId) (transport : Option Transport)
    (destination : Destination) :
    (createPolicyDelivery now lead transport destination).New lead := by
  unfold createPolicyDelivery
  split
  · exact (newDelivery_new ..).configured _ _ _
  simp only
  split
  · exact ((newDelivery_new ..).bindTransport _ _).configured _ _ _
  · exact (newDelivery_new ..).configured _ _ _

theorem newDeliveries_new {now : Time} {lead : LeadId} {spam : Bool}
    {transport : Option Transport} {policy : Option Policy} {d : Delivery}
    (h : d ∈ newDeliveries now lead spam transport policy) : d.New lead := by
  unfold newDeliveries at h
  split at h
  · cases h
  cases policy with
  | none =>
    rw [createLeadDeliveries, List.mem_singleton] at h
    exact h ▸ createGlobalSmtpDelivery_new now lead transport
  | some policy =>
    rw [createLeadDeliveries, List.mem_append] at h
    rcases h with h | h
    · split at h
      · rw [List.mem_singleton] at h
        exact h ▸ createGlobalSmtpDelivery_new now lead transport
      · cases h
    · obtain ⟨destination, _, rfl⟩ := List.mem_map.mp h
      exact createPolicyDelivery_new now lead transport destination

/-- What a creation relies on: its primary keys are new. -/
theorem Db.freshLead_spec {db : Db} {lead : LeadId} {ids : List DeliveryId}
    (h : db.freshLead lead ids = true) :
    db.leads.get lead = none ∧ db.aggregates.get lead = none ∧
      (∀ id ∈ ids, db.deliveries.get id = none) ∧ ids.Nodup := by
  simp only [Db.freshLead, Bool.and_eq_true, Option.isNone_iff_eq_none, List.all_eq_true,
    decide_eq_true_eq] at h
  exact ⟨h.1.1.1, h.1.1.2, h.1.2, h.2⟩

/-- The rows that were there before a lead is created stay. -/
theorem Db.createLead_get_of_some {db : Db} {lead : LeadId} {ids : List DeliveryId}
    {rows : List Delivery} (hfresh : db.freshLead lead ids = true) {id : DeliveryId}
    {d : Delivery} (h : db.deliveries.get id = some d) :
    (db.createLead lead (ids.zip rows)).deliveries.get id = some d := by
  refine (Table.get_insertAll_of_notMem (fun hmem => ?_) _).trans h
  obtain ⟨⟨i, x⟩, hzip, rfl⟩ := List.mem_map.mp hmem
  rw [(Db.freshLead_spec hfresh).2.2.1 i (List.of_mem_zip hzip).1] at h
  cases h

/-- A row found after a lead is created was there before or is one of the new ones. -/
theorem Db.createLead_get {db : Db} {lead : LeadId} {ids : List DeliveryId}
    {rows : List Delivery} {id : DeliveryId} {d : Delivery}
    (h : (db.createLead lead (ids.zip rows)).deliveries.get id = some d) :
    db.deliveries.get id = some d ∨ d ∈ rows := by
  rcases Table.get_insertAll_eq_some h with h | h
  · exact .inl h
  · exact .inr (List.of_mem_zip h).2

/-! ## The invariant is kept -/

/-- The session an action leaves behind. -/
theorem next_session {sessions : SessionId → Option Session} {sid : SessionId}
    {next : Option Session} {s : Session} (h : Function.update sessions sid next sid = some s) :
    next = some s := by
  rwa [Function.update_self] at h

theorem Frame.create {w : World} {lead : LeadId} {ids : List DeliveryId}
    {rows : List Delivery} (hfresh : w.db.freshLead lead ids = true) (sid : SessionId) :
    Frame w { w with db := w.db.createLead lead (ids.zip rows) } sid where
  deliveryLocks _ h := h
  leadLocks _ h := h
  rows _ row hrow := ⟨row, Db.createLead_get_of_some hfresh hrow, .refl row⟩
  locked _ _ _ hrow := ⟨Db.createLead_get_of_some hfresh hrow, rfl⟩
  attempts _ h := h

theorem releaseLocks_other {κ : Type} {sid j : SessionId} (hj : j ≠ sid)
    {locks : κ → Option SessionId} {k : κ} (h : locks k = some j) :
    releaseLocks sid locks k = some j := by
  rw [releaseLocks, h, if_neg (fun hs => hj (Option.some.inj hs))]

theorem Frame.commit {w : World} {sid : SessionId} {tx : Tx} {lead : Lead}
    {computed : Aggregate} {stored : Option Aggregate} {next : Option Session}
    (h : TxOk w sid tx (.ready lead computed stored)) {j : SessionId} (hj : j ≠ sid) :
    Frame w { w.leave sid next with db := tx.flush lead computed stored w.db } j where
  deliveryLocks _ hlock := releaseLocks_other hj hlock
  leadLocks _ hlock := releaseLocks_other hj hlock
  rows id row hrow := by
    by_cases hid : id = tx.id
    · obtain ⟨old, new, hold, hnew, hwritten⟩ := h.written lead computed stored
      rw [hid, hold] at hrow
      cases hrow
      exact ⟨new, hid ▸ hnew, hwritten.same⟩
    · refine ⟨row, ?_, .refl row⟩
      rw [Tx.flush_get, if_neg hid, hrow]
  locked id row hlock hrow := by
    have hid : id ≠ tx.id := by
      rintro rfl
      rw [h.owner] at hlock
      exact hj (Option.some.inj hlock).symm
    constructor
    · rw [Tx.flush_get, if_neg hid, hrow]
    · refine Db.lastSequence_congr (fun n => ?_)
      show ((tx.flushAttempts w.db.attempts).get (id, n)).isSome = _
      rw [tx.flush_attempts_ne hid]
  attempts _ hkey := tx.flush_attempts hkey

theorem Frame.leave {w : World} {sid j : SessionId} {next : Option Session} (hj : j ≠ sid) :
    Frame w (w.leave sid next) j :=
  .of_db rfl (fun _ h => releaseLocks_other hj h) (fun _ h => releaseLocks_other hj h)

/-- A transaction that begins knows what it should. -/
theorem Opens.txOk {w : World} (hw : Consistent w) {sid : SessionId} {tx : Tx}
    (h : Opens w sid tx) {w' : World} (hdb : w'.db = w.db)
    (howner : w'.deliveryLocks tx.id = some sid) : TxOk w' sid tx .locked := by
  have hcopy : w.db.deliveries.get tx.id = some tx.loaded → CopyOk w'.db tx.id tx.loaded :=
    fun hrow => ⟨tx.loaded, by rw [hdb, hrow], .refl _⟩
  have hlead : ∀ P : Prop, tx.purpose.locksLead = true → Stage.locked ≠ .locked → P :=
    fun _ _ hs => absurd rfl hs
  cases h with
  | claim trigger hp _ hrow hheld =>
    refine ⟨howner, hlead _, hcopy hrow, fun _ => hdb ▸ hrow, fun t n hp' => ?_,
      fun n r hp' => ?_, fun _ => hheld⟩
    · rw [hp] at hp'
      cases hp'
      rw [hdb]
    · rw [hp] at hp'
      cases hp'
  | finish sequence result lead row hp hs hrow _ =>
    have hd : CopyOk w.db tx.id tx.loaded ∧ DispatchOk w.db tx.id sequence tx.loaded :=
      hw.session sid _ hs
    refine ⟨howner, hlead _, hdb ▸ hd.1, fun hf => ?_, fun t n hp' => ?_, fun n r hp' => ?_,
      fun hf => ?_⟩
    · rw [hp] at hf
      cases hf
    · rw [hp] at hp'
      cases hp'
    · rw [hp] at hp'
      cases hp'
      exact hdb ▸ hd.2
    · rw [hp] at hf
      cases hf
  | recover hp _ hrow hheld =>
    refine ⟨howner, hlead _, hcopy hrow, fun _ => hdb ▸ hrow, fun t n hp' => ?_,
      fun n r hp' => ?_, fun _ => hheld⟩
    all_goals
      rw [hp] at hp'
      cases hp'
  | resend transport lead hp _ hrow _ =>
    refine ⟨howner, hlead _, hcopy hrow, fun _ => hdb ▸ hrow, fun t n hp' => ?_,
      fun n r hp' => ?_, fun hf => ?_⟩
    · rw [hp] at hp'
      cases hp'
    · rw [hp] at hp'
      cases hp'
    · rw [hp] at hf
      cases hf

/-- The lock of the lead once a transaction has read it. -/
theorem Tx.lockLead_spec {tx : Tx} {sid : SessionId} {locks locks' : LeadId → Option SessionId}
    {stage : Stage} (h : tx.lockLead sid locks stage = some locks') :
    (tx.purpose.locksLead = true → stage = .locked → locks' tx.loaded.leadId = some sid) ∧
      (stage ≠ .locked → locks' = locks) ∧
      ∀ lead j, locks lead = some j → locks' lead = some j := by
  unfold Tx.lockLead at h
  split at h
  · split at h
    · split at h
      · next hfree =>
        cases h
        refine ⟨fun _ _ => Function.update_self .., fun hs => absurd rfl hs, fun lead j hl => ?_⟩
        rw [Function.update_of_ne (fun heq => ?_), hl]
        rw [heq, hfree] at hl
        cases hl
      · cases h
    · next hp =>
      cases h
      exact ⟨fun hp' => absurd hp' hp, fun _ => rfl, fun _ _ hl => hl⟩
  · next hs =>
    cases h
    exact ⟨fun _ hs' => absurd hs' (hs ·), fun _ => rfl, fun _ _ hl => hl⟩

/-- A claim that commits goes on to a dispatch that knows what it should. -/
theorem TxOk.next {w w' : World} {sid : SessionId} {tx : Tx} {lead : Lead}
    {computed : Aggregate} {stored : Option Aggregate}
    (h : TxOk w sid tx (.ready lead computed stored))
    (hdb : w'.db = tx.flush lead computed stored w.db) {s : Session}
    (hs : tx.next computed = some s) : SessionOk w' sid s := by
  obtain ⟨old, new, _, hnew, hwritten⟩ := h.written lead computed stored
  unfold Tx.next at hs
  split at hs
  · next trigger n hp =>
    cases hs
    have hcurrent : tx.current = tx.loaded.claim tx.openedAt := by rw [Tx.current, hp]; rfl
    refine ⟨⟨new, by rw [hdb, hnew], ?_⟩, ⟨?_, by rw [hcurrent]; rfl, ?_⟩⟩
    · cases hwritten with
      | claim _ _ _ hold => rw [hold, hcurrent]; exact .refl _
      | finish _ _ hp' => rw [hp] at hp'; cases hp'
      | recover hp' _ => rw [hp] at hp'; cases hp'
      | resend _ hp' _ => rw [hp] at hp'; cases hp'
    · rw [hdb]
      show ((tx.flushAttempts w.db.attempts).get _).isSome
      rw [Tx.flushAttempts, hp]
      simp
    · rw [hcurrent]
      exact Nat.succ_pos _
  · cases hs

theorem Consistent.step {w w' : World} {a : Action} (h : Consistent w)
    (hstep : LeadDelivery.step w a = some w') : Consistent w' := by
  cases step_move hstep with
  | tick elapsed =>
    have hframe : ∀ sid, Frame w { w with now := w.now + elapsed } sid :=
      fun sid => .of_db rfl (fun _ hl => hl) (fun _ hl => hl)
    exact ⟨fun sid s hs => (h.session sid s hs).frame (hframe sid), h.lead⟩
  | create lead ids spam transport policy rows hrows hfresh hlen =>
    refine ⟨fun sid s hs => (h.session sid s hs).frame (.create hfresh sid), fun id d hd => ?_⟩
    show ((w.db.leads.set lead _).get d.leadId).isSome
    rw [Table.get_set]
    split
    · rfl
    · next hne =>
      rcases Db.createLead_get hd with hd | hd
      · exact h.lead id d hd
      · rw [hrows] at hd
        exact absurd (newDeliveries_new hd).leadId hne
  | read sid lead row hsession hrow =>
    refine h.of_frame sid (fun j hj => Function.update_of_ne hj ..)
      (fun j _ => .of_db rfl (fun _ hl => hl) (fun _ hl => hl)) (fun s hs => ?_) h.lead
    have hread : some (Session.reading lead row) = some s := next_session hs
    cases hread
    trivial
  | opens a sid tx ha htx hfree =>
    have hlocks : ∀ id j, w.deliveryLocks id = some j →
        Function.update w.deliveryLocks tx.id (some sid) id = some j := by
      intro id j hl
      rw [Function.update_of_ne (fun heq => ?_), hl]
      rw [heq, hfree] at hl
      cases hl
    refine h.of_frame sid (fun j hj => Function.update_of_ne hj ..)
      (fun j _ => .of_db rfl (fun id hl => hlocks id j hl) (fun _ hl => hl)) (fun s hs => ?_)
      h.lead
    have hopen : some (Session.writing tx .locked) = some s := next_session hs
    cases hopen
    exact htx.txOk h rfl (Function.update_self ..)
  | advance sid tx stage stage' locks hsession hstage hlocks =>
    have hspec := Tx.lockLead_spec hlocks
    refine h.of_frame sid (fun j hj => Function.update_of_ne hj ..)
      (fun j _ => .of_db rfl (fun _ hl => hl) (fun lead hl => hspec.2.2 lead j hl))
      (fun s hs => ?_) h.lead
    have hread : some (Session.writing tx stage') = some s := next_session hs
    cases hread
    have htx := h.tx hsession
    refine ⟨htx.owner, fun hp _ => ?_, htx.copy, htx.row, htx.sequence, htx.dispatch, htx.held⟩
    by_cases hs : stage = .locked
    · exact hspec.1 hp hs
    · exact hspec.2.2 _ sid (htx.leadOwner hp hs)
  | commit sid tx lead computed stored hsession =>
    have htx := h.tx hsession
    refine h.of_frame sid (fun j hj => Function.update_of_ne hj ..)
      (fun j hj => Frame.commit htx hj) (fun s hs => ?_) (fun id d hd => ?_)
    · exact htx.next rfl (next_session hs)
    · rw [Tx.flush_leads]
      by_cases hid : id = tx.id
      · obtain ⟨old, new, hold, hnew, hwritten⟩ := htx.written lead computed stored
        rw [hid, hnew] at hd
        cases hd
        rw [hwritten.same.leadId]
        exact h.lead tx.id old hold
      · rw [Tx.flush_get, if_neg hid] at hd
        exact h.lead id d hd
  | die sid =>
    refine h.of_frame sid (fun j hj => Function.update_of_ne hj ..)
      (fun j hj => Frame.leave hj) (fun s hs => ?_) h.lead
    cases next_session hs

/-! ## Steps seen from the database -/

/-- The transaction an action commits, and the session it runs in. -/
def World.committing (w : World) : Action → Option (SessionId × Tx)
  | .commit sid =>
    match w.sessions sid with
    | some (.writing tx (.ready _ _ _)) => some (sid, tx)
    | _ => none
  | _ => none

theorem committing_of_begins {a : Action} (h : a.begins = true) (w : World) :
    w.committing a = none := by
  cases a <;> first | rfl | cases h

theorem World.committing_commit {w : World} {sid : SessionId} {tx : Tx} {lead : Lead}
    {computed : Aggregate} {stored : Option Aggregate}
    (h : w.sessions sid = some (.writing tx (.ready lead computed stored))) :
    w.committing (.commit sid) = some (sid, tx) := by
  rw [World.committing, h]

/-- What a step that commits nothing does to the rows: at most a new lead adds some. -/
structure Quiet (w w' : World) : Prop where
  rows : ∀ id d, w.db.deliveries.get id = some d → w'.db.deliveries.get id = some d
  new : ∀ id d, w'.db.deliveries.get id = some d →
    w.db.deliveries.get id = some d ∨ (w.db.deliveries.get id = none ∧ d.New d.leadId)
  attempts : w'.db.attempts = w.db.attempts

theorem Quiet.of_db {w w' : World} (h : w'.db = w.db) : Quiet w w' where
  rows id d hd := by rw [h, hd]
  new id d hd := .inl (by rw [← h, hd])
  attempts := by rw [h]

/-- A step commits a transaction or does not touch the rows there are. -/
inductive DbMove (w : World) (a : Action) (w' : World) : Prop
  | quiet (hcommit : w.committing a = none) (hquiet : Quiet w w')
  | commit (sid : SessionId) (tx : Tx) (lead : Lead) (computed : Aggregate)
      (stored : Option Aggregate) (hcommit : w.committing a = some (sid, tx))
      (hsession : w.sessions sid = some (.writing tx (.ready lead computed stored)))
      (hdb : w'.db = tx.flush lead computed stored w.db)

theorem step_dbMove {w w' : World} {a : Action} (h : step w a = some w') : DbMove w a w' := by
  cases step_move h with
  | tick elapsed => exact .quiet rfl (.of_db rfl)
  | create lead ids spam transport policy rows hrows hfresh hlen =>
    refine .quiet rfl ⟨fun id d hd => Db.createLead_get_of_some hfresh hd, fun id d hd => ?_, rfl⟩
    cases hold : w.db.deliveries.get id with
    | some old =>
      rw [show _ = some old from Db.createLead_get_of_some hfresh hold] at hd
      exact .inl hd
    | none =>
      rcases Db.createLead_get hd with hd | hd
      · rw [hold] at hd
        cases hd
      · rw [hrows] at hd
        have hnew := newDeliveries_new hd
        exact .inr ⟨rfl, hnew.leadId ▸ hnew⟩
  | read sid lead row hsession hrow => exact .quiet rfl (.of_db rfl)
  | opens a sid tx ha htx hfree => exact .quiet (committing_of_begins ha w) (.of_db rfl)
  | advance sid tx stage stage' locks hsession hstage hlocks => exact .quiet rfl (.of_db rfl)
  | commit sid tx lead computed stored hsession =>
    exact .commit sid tx lead computed stored (World.committing_commit hsession) hsession rfl
  | die sid => exact .quiet rfl (.of_db rfl)

/-! ## Dispatches -/

/-- The attempt whose dispatch a session carries out or finishes. -/
def Session.attempt : Session → Option (DeliveryId × Nat)
  | .reading _ _ => none
  | .writing tx _ =>
    match tx.purpose with
    | .finish n _ => some (tx.id, n)
    | _ => none
  | .dispatching id n _ _ => some (id, n)

/-- A dispatch begins when a claim commits and is over when its session commits again. -/
theorem attempt_origin {w w' : World} {a : Action} (h : step w a = some w') {j : SessionId}
    {s : Session} (hs : w'.sessions j = some s) {id : DeliveryId} {n : Nat}
    (hattempt : s.attempt = some (id, n)) :
    (∃ s₀, w.sessions j = some s₀ ∧ s₀.attempt = some (id, n) ∧
        ∀ tx, w.committing a ≠ some (j, tx)) ∨
      ∃ tx trigger, w.committing a = some (j, tx) ∧ tx.id = id ∧
        tx.purpose = .claim trigger n := by
  have hother : ∀ {sid : SessionId} {next : Option Session}, j ≠ sid →
      Function.update w.sessions sid next j = some s → w.sessions j = some s := by
    intro sid next hj hs
    rwa [Function.update_of_ne hj] at hs
  cases step_move h with
  | tick elapsed | create _ _ _ _ _ _ _ _ _ => exact .inl ⟨s, hs, hattempt, fun _ => nofun⟩
  | read sid lead row hsession hrow =>
    by_cases hj : j = sid
    · subst hj
      cases next_session hs
      cases hattempt
    · exact .inl ⟨s, hother hj hs, hattempt, fun _ => nofun⟩
  | opens a sid tx ha htx hfree =>
    have hnone : ∀ tx', w.committing a ≠ some (j, tx') := fun tx' => by
      rw [committing_of_begins ha]
      exact nofun
    by_cases hj : j = sid
    · subst hj
      cases next_session hs
      cases htx with
      | finish m result lead row hp hsession _ _ =>
        refine .inl ⟨_, hsession, ?_, hnone⟩
        rw [← hattempt, Session.attempt, Session.attempt, hp]
      | claim _ hp _ _ _ => rw [Session.attempt, hp] at hattempt; cases hattempt
      | recover hp _ _ _ => rw [Session.attempt, hp] at hattempt; cases hattempt
      | resend _ _ hp _ _ _ => rw [Session.attempt, hp] at hattempt; cases hattempt
    · exact .inl ⟨s, hother hj hs, hattempt, hnone⟩
  | advance sid tx stage stage' locks hsession hstage hlocks =>
    by_cases hj : j = sid
    · subst hj
      cases next_session hs
      exact .inl ⟨_, hsession, hattempt, fun _ => nofun⟩
    · exact .inl ⟨s, hother hj hs, hattempt, fun _ => nofun⟩
  | commit sid tx lead computed stored hsession =>
    have hcommit := World.committing_commit hsession
    by_cases hj : j = sid
    · subst hj
      have hnext := next_session hs
      unfold Tx.next at hnext
      split at hnext
      · next trigger m hp =>
        cases hnext
        cases hattempt
        exact .inr ⟨tx, trigger, hcommit, rfl, hp⟩
      · cases hnext
    · refine .inl ⟨s, hother hj hs, hattempt, fun tx' htx' => ?_⟩
      rw [hcommit] at htx'
      exact hj (Prod.mk.inj (Option.some.inj htx')).1.symm
  | die sid =>
    by_cases hj : j = sid
    · subst hj
      cases next_session hs
    · exact .inl ⟨s, hother hj hs, hattempt, fun _ => nofun⟩

/-- The latest attempts after a commit: a claim adds one to its own delivery. -/
theorem TxOk.lastSequence {w : World} {sid : SessionId} {tx : Tx} {stage : Stage}
    (h : TxOk w sid tx stage) (lead : Lead) (computed : Aggregate) (stored : Option Aggregate)
    (id : DeliveryId) :
    (tx.flush lead computed stored w.db).lastSequence id =
      if tx.purpose.isClaim = true ∧ id = tx.id then w.db.lastSequence id + 1
      else w.db.lastSequence id := by
  split
  · next hclaim =>
    obtain ⟨hclaim, rfl⟩ := hclaim
    obtain ⟨trigger, n, hp⟩ := Purpose.isClaim_eq_true hclaim
    refine Db.lastSequence_insert (a := Attempt.begin trigger) ?_
    show tx.flushAttempts w.db.attempts = _
    rw [Tx.flushAttempts, hp, ← h.sequence trigger n hp]
  · next hother =>
    refine Db.lastSequence_congr (fun n => ?_)
    show ((tx.flushAttempts w.db.attempts).get (id, n)).isSome = _
    by_cases hid : id = tx.id
    · unfold Tx.flushAttempts
      split
      · next hp => exact absurd ⟨by rw [hp]; rfl, hid⟩ hother
      · split
        · next a ha =>
          rw [Table.get_set]
          split
          · next hkey => rw [hkey, ha]; rfl
          · rfl
        · rfl
      · rfl
    · rw [tx.flush_attempts_ne hid]

end MegaPanel.LeadDelivery
