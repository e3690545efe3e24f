import MegaPanel.LeadDelivery.Fencing
import MegaPanel.LeadDelivery.Fold

set_option autoImplicit false

/-! # The aggregate of a lead

Every transaction on a delivery recomputes the aggregate of its lead and writes the columns it
finds changed. The aggregate goes wrong in three ways.

* The status has no name for a lead all whose deliveries are optional: it stays `pending` when
  they are settled.
* Claims and recoveries read the lead, the deliveries and the aggregate without a lock. Such a
  transaction should find nothing changed. If another one settles or reopens a delivery between
  these reads, it finds a difference, and writes back what is outdated by then.
* Finishing transactions and resends lock the lead, but work on an instance of the lead read
  earlier. If the lead's status has changed since, to return with this commit to what the
  instance says, the session finds no difference and does not write it.

A run in which none of this happens keeps every aggregate and `crm_status` equal to what
`recompute_lead_delivery_aggregate` yields. `noteReads` keeps, for every transaction, whether
another one settled or reopened a delivery of its lead during its reads, and whether one did
since it read the deliveries.
-/

namespace MegaPanel.LeadDelivery

open MegaPanel.Lib

/-! ## The property -/

/-- What every committed state should satisfy. -/
structure AggregatesOk (db : Db) : Prop where
  fold : ∀ lead row, db.leads.get lead = some row →
    db.aggregates.get lead = some (recomputeAggregate (db.deliveriesOf lead)) ∧
      row.crmStatus = some (recomputeAggregate (db.deliveriesOf lead)).status
  settled : ∀ lead row aggregate, db.leads.get lead = some row →
    db.aggregates.get lead = some aggregate →
    (∀ d ∈ db.deliveriesOf lead, d.status.isPending = false) → aggregate.status ≠ .pending

/-! ## The condition -/

/-- One of the deliveries is required or pending, or there are none. -/
def covered (deliveries : List Delivery) : Bool :=
  deliveries.isEmpty || deliveries.any (fun d => d.required || d.status.isPending)

/-- The step does not settle, or create as settled, the last delivery of a lead all whose
deliveries are optional. -/
def keepsCovered (w : World) (a : Action) : Bool :=
  match a with
  | .create lead _ spam transport policy => covered (newDeliveries w.now lead spam transport policy)
  | _ => (w.committing a).all (fun c => covered (c.2.view w.db))

/-- A transaction that holds the lock of the lead commits with an instance of the lead that is
up to date, or differs from the lead's status after the commit. -/
def leadCopyServes (w : World) (a : Action) : Bool :=
  match a with
  | .commit sid =>
    match w.sessions sid with
    | some (.writing tx (.ready lead _ _)) =>
      !tx.purpose.locksLead || (w.db.leads.get tx.loaded.leadId).all (fun row =>
        decide (lead.crmStatus = row.crmStatus) ||
          decide (lead.crmStatus ≠ some (recomputeAggregate (tx.view w.db)).status))
    | _ => true
  | _ => true

/-- The step commits a transaction that settles or reopens a required delivery of the lead. -/
def World.resettles (w : World) (a : Action) (lead : LeadId) : Bool :=
  (w.committing a).any (fun c => decide (c.2.loaded.leadId = lead) &&
    (w.db.deliveries.get c.2.id).any (fun old =>
      decide ((Delivery.flush c.2.loaded c.2.current old).digest ≠ old.digest)))

/-- What happened to a lead around the reads of a transaction: whether a delivery was settled
or reopened between its reads (`torn`), and since it read the deliveries (`outdated`). -/
structure Reads where
  torn : Bool
  outdated : Bool
  deriving DecidableEq

def noteReads (w : World) (a : Action) (reads : SessionId → Reads) : SessionId → Reads :=
  fun sid =>
    match w.sessions sid with
    | some (.writing tx (.read _)) =>
      ⟨(reads sid).torn || w.resettles a tx.loaded.leadId, false⟩
    | some (.writing tx (.counted _ _)) =>
      ⟨(reads sid).torn || w.resettles a tx.loaded.leadId,
        (reads sid).outdated || w.resettles a tx.loaded.leadId⟩
    | some (.writing tx (.ready _ _ _)) =>
      ⟨(reads sid).torn, (reads sid).outdated || w.resettles a tx.loaded.leadId⟩
    | _ => ⟨false, false⟩

/-- No claim and no recovery commits after torn reads, unless what it read of the deliveries is
still up to date. -/
def readsServe (s : World × (SessionId → Reads)) (a : Action) : Bool :=
  (s.1.committing a).all (fun c =>
    c.2.purpose.locksLead || !(s.2 c.1).torn || !(s.2 c.1).outdated)

/-- The condition on one step. -/
def serves (s : World × (SessionId → Reads)) (a : Action) : Bool :=
  readsServe s a && leadCopyServes s.1 a && keepsCovered s.1 a

/-! ## Settled leads -/

variable {ds : List Delivery}

theorem covered_congr {ds' : List Delivery}
    (h : ds.map (fun d => (d.required, d.status)) = ds'.map (fun d => (d.required, d.status))) :
    covered ds = covered ds' := by
  have hany : ∀ l : List Delivery, l.any (fun d => d.required || d.status.isPending)
      = (l.map (fun d => (d.required, d.status))).any (fun x => x.1 || x.2.isPending) := by
    intro l
    rw [List.any_map]
    rfl
  have hempty : ∀ l : List Delivery,
      l.isEmpty = (l.map (fun d => (d.required, d.status))).isEmpty := by
    intro l
    rw [List.isEmpty_map]
  rw [covered, covered, hany, hany, hempty, hempty ds', h]

/-- Once all deliveries are settled, a lead with a required one is delivered or needs
attention. -/
theorem status_ne_pending (hcovered : covered ds = true)
    (hsettled : ∀ d ∈ ds, d.status.isPending = false) :
    (recomputeAggregate ds).status ≠ .pending := by
  intro hpending
  simp only [recomputeAggregate, aggregateStatus] at hpending
  split at hpending
  · cases hpending
  · next hne =>
    split at hpending
    · cases hpending
    · next hattention =>
      split at hpending
      · cases hpending
      · next hdelivered =>
        have hdead : ∀ d ∈ ds.filter (·.required), d.status ≠ .deadLetter := by
          simpa using hattention
        have hall : ∀ d ∈ ds.filter (·.required), d.status = .delivered := by
          intro d hd
          have hp := hsettled d (List.mem_filter.mp hd).1
          have hd' := hdead d hd
          cases hs : d.status with
          | delivered => rfl
          | deadLetter => exact absurd hs hd'
          | _ => rw [hs] at hp; cases hp
        have hrequired : ds.filter (·.required) ≠ [] := by
          rw [covered, Bool.or_eq_true, List.isEmpty_iff] at hcovered
          obtain ⟨d, hd, hd'⟩ := List.any_eq_true.mp (hcovered.resolve_left hne)
          rw [hsettled d hd, Bool.or_false] at hd'
          exact List.ne_nil_of_mem (List.mem_filter.mpr ⟨hd, hd'⟩)
        refine hdelivered ⟨by simpa using hrequired, List.countP_eq_length.mpr ?_⟩
        simpa using hall

/-! ## What transactions have read -/

variable {s : World × (SessionId → Reads)} {w : World} {sid : SessionId} {tx : Tx}

/-- A transaction that holds the lock of the lead has read what is stored. -/
def LockedOk (db : Db) (tx : Tx) : Stage → Prop
  | .locked | .read _ => True
  | .counted _ computed => computed = recomputeAggregate (tx.view db)
  | .ready _ computed stored =>
    computed = recomputeAggregate (tx.view db) ∧ stored = some (db.fold tx.loaded.leadId)

/-- A claim or a recovery has read one consistent aggregate, unless its reads are torn, and the
present one unless they are outdated. -/
def UnlockedOk (db : Db) (reads : Reads) (tx : Tx) : Stage → Prop
  | .locked => True
  | .read lead =>
    reads.torn = false → lead.crmStatus = some (db.fold tx.loaded.leadId).status
  | .counted lead computed =>
    (reads.torn = false →
      lead.crmStatus = some computed.status ∧ computed = db.fold tx.loaded.leadId) ∧
    (reads.outdated = false → computed = db.fold tx.loaded.leadId)
  | .ready lead computed stored =>
    (reads.torn = false → lead.crmStatus = some computed.status ∧ stored = some computed) ∧
    (reads.outdated = false → computed = db.fold tx.loaded.leadId) ∧ stored.isSome = true

/-- Every aggregate is the fold of its deliveries, and the transactions have read accordingly. -/
structure Folded (s : World × (SessionId → Reads)) : Prop where
  consistent : Consistent s.1
  fold : ∀ lead row, s.1.db.leads.get lead = some row →
    s.1.db.aggregates.get lead = some (s.1.db.fold lead) ∧
      row.crmStatus = some (s.1.db.fold lead).status
  covered : ∀ lead row, s.1.db.leads.get lead = some row →
    covered (s.1.db.deliveriesOf lead) = true
  locked : ∀ sid tx stage, s.1.sessions sid = some (.writing tx stage) →
    tx.purpose.locksLead = true → LockedOk s.1.db tx stage
  unlocked : ∀ sid tx stage, s.1.sessions sid = some (.writing tx stage) →
    tx.purpose.locksLead = false → UnlockedOk s.1.db (s.2 sid) tx stage

theorem Folded.ok (h : Folded s) : AggregatesOk s.1.db where
  fold := h.fold
  settled lead row aggregate hrow haggregate hsettled := by
    rw [(h.fold lead row hrow).1] at haggregate
    cases haggregate
    exact status_ne_pending (h.covered lead row hrow) hsettled

theorem Folded.init (h : Init w) : Folded (w, fun _ => ⟨false, false⟩) where
  consistent := .init h
  fold lead row hrow := by
    rw [h.leads] at hrow
    cases hrow
  covered lead row hrow := by
    rw [h.leads] at hrow
    cases hrow
  locked sid tx stage hs := by
    rw [h.sessions sid] at hs
    cases hs
  unlocked sid tx stage hs := by
    rw [h.sessions sid] at hs
    cases hs

/-- The lead of a transaction exists. -/
theorem Consistent.tx_lead (h : Consistent w) {stage : Stage}
    (hs : w.sessions sid = some (.writing tx stage)) :
    ∃ row, w.db.leads.get tx.loaded.leadId = some row := by
  obtain ⟨d, hd, hsame⟩ := (h.tx hs).copy
  have hlead := h.lead tx.id d hd
  rw [hsame.leadId] at hlead
  exact Option.isSome_iff_exists.mp hlead

/-! ## What other steps leave alone -/

variable {w' : World} {a : Action} {row : Lead}

/-- A step that settles and reopens no required delivery of a lead leaves its aggregate alone. -/
theorem step_sameDigests (hw : Consistent w) (h : step w a = some w') {lead : LeadId}
    (hrow : w.db.leads.get lead = some row) (hquiet : w.resettles a lead = false) :
    SameDigests w.db w'.db lead := by
  cases step_move h with
  | tick _ | read _ _ _ _ _ | opens _ _ _ _ _ _ | advance _ _ _ _ _ _ _ _ | die _ => exact .refl _ _
  | create new ids spam transport policy rows hrows hfresh hlen =>
    obtain ⟨hnone, _, hnew, hn⟩ := Db.freshLead_spec hfresh
    have hfst : (ids.zip rows).map (·.1) = ids := List.map_fst_zip hlen.le
    have hne : lead ≠ new := by
      rintro rfl
      rw [hrow] at hnone
      cases hnone
    refine ⟨⟨ids, ?_, fun id hid => ?_⟩, fun id hid => ?_⟩
    · have hkeys := Table.keys_insertAll (hfst.symm ▸ hn) (hfst.symm ▸ hnew)
      rw [hfst] at hkeys
      exact hkeys
    · cases hget : (w.db.createLead new (ids.zip rows)).deliveries.get id with
      | none => rfl
      | some d =>
        rcases Db.createLead_get hget with hold | hmem
        · rw [hnew id hid] at hold
          cases hold
        · rw [hrows] at hmem
          have hlead := (newDeliveries_new hmem).leadId
          rw [Option.filter_some_neg (by simpa [hlead] using fun heq => hne heq.symm)]
    · obtain ⟨d, hd⟩ := Option.isSome_iff_exists.mp ((w.db.deliveries.mem_keys id).mp hid)
      have hd' : (w.db.createLead new (ids.zip rows)).deliveries.get id = some d :=
        Db.createLead_get_of_some hfresh hd
      rw [hd, hd']
  | commit sid tx l computed stored hsession =>
    have htx := hw.tx hsession
    obtain ⟨old, newRow, hold, hnew, hwritten⟩ := htx.written l computed stored
    obtain ⟨copied, hcopied, hsame⟩ := htx.copy
    rw [hold] at hcopied
    cases hcopied
    refine .of_row (Table.keys_modify _ _ _) (fun id hid => ?_) hold hnew hwritten.same.leadId
      (fun hlead => ?_)
    · rw [Tx.flush_get, if_neg hid]
    · rw [World.resettles, World.committing_commit hsession, Option.any_some, hold,
        Option.any_some, decide_eq_true (hsame.leadId.symm.trans hlead), Bool.true_and,
        decide_eq_false_iff_not, not_not] at hquiet
      rw [Tx.flush_get, if_pos rfl, hold, Option.map_some] at hnew
      cases hnew
      exact hquiet

/-- A transaction that settles or reopens a required delivery holds the lock of the lead. -/
theorem resettles_locks (hw : Consistent w) {lead : LeadId} (h : w.resettles a lead = true) :
    ∃ sid tx, w.committing a = some (sid, tx) ∧ w.leadLocks lead = some sid := by
  cases a with
  | commit sid =>
    rw [World.resettles] at h
    obtain ⟨⟨sid', tx⟩, hcommit, hchange⟩ := (Option.any_eq_true _ _).mp h
    refine ⟨sid', tx, hcommit, ?_⟩
    rw [Bool.and_eq_true, decide_eq_true_eq] at hchange
    obtain ⟨hlead, hchange⟩ := hchange
    simp only [World.committing] at hcommit
    split at hcommit
    · next tx' l computed stored hsession =>
      cases hcommit
      have htx := hw.tx hsession
      rw [← hlead]
      refine htx.leadOwner ?_ (by simp)
      by_contra hp
      rw [Bool.not_eq_true] at hp
      obtain ⟨hrow, hdigest⟩ := htx.unlocked_digest hp
      obtain ⟨old, hold, hne⟩ := (Option.any_eq_true _ _).mp hchange
      rw [hrow] at hold
      cases hold
      rw [Delivery.flush_stored tx.current_same, hdigest] at hne
      exact of_decide_eq_true hne rfl
    · cases hcommit
  | _ => cases h

/-- A transaction of another session is either where it was, or has just begun, or has made
its next read. -/
theorem writing_origin (h : step w a = some w') {j : SessionId} {stage : Stage}
    (hs : w'.sessions j = some (.writing tx stage)) :
    (w.sessions j = some (.writing tx stage) ∧ ∀ tx', w.committing a ≠ some (j, tx')) ∨
      stage = .locked ∨
      ∃ stage₀, w.sessions j = some (.writing tx stage₀) ∧ tx.advance w.db stage₀ = some stage ∧
        w'.db = w.db ∧ w.committing a = none := by
  have hother : ∀ {sid : SessionId} {next : Option Session}, j ≠ sid →
      Function.update w.sessions sid next j = some (.writing tx stage) →
      w.sessions j = some (.writing tx stage) := by
    intro sid next hj hs
    rwa [Function.update_of_ne hj] at hs
  cases step_move h with
  | tick elapsed | create _ _ _ _ _ _ _ _ _ => exact .inl ⟨hs, fun _ => nofun⟩
  | read sid lead row hsession hrow =>
    by_cases hj : j = sid
    · subst hj
      cases next_session hs
    · exact .inl ⟨hother hj hs, fun _ => nofun⟩
  | opens a sid tx' ha htx hfree =>
    by_cases hj : j = sid
    · subst hj
      cases next_session hs
      exact .inr (.inl rfl)
    · refine .inl ⟨hother hj hs, fun tx'' => ?_⟩
      rw [committing_of_begins ha]
      exact nofun
  | advance sid tx' stage₀ stage' locks hsession hstage hlocks =>
    by_cases hj : j = sid
    · subst hj
      cases next_session hs
      exact .inr (.inr ⟨stage₀, hsession, hstage, rfl, rfl⟩)
    · exact .inl ⟨hother hj hs, fun _ => nofun⟩
  | commit sid tx' lead computed stored hsession =>
    by_cases hj : j = sid
    · subst hj
      have hnext := next_session hs
      unfold Tx.next at hnext
      split at hnext <;> cases hnext
    · refine .inl ⟨hother hj hs, fun tx'' htx => ?_⟩
      rw [World.committing_commit hsession] at htx
      exact hj (Prod.mk.inj (Option.some.inj htx)).1.symm
  | die sid =>
    by_cases hj : j = sid
    · subst hj
      cases next_session hs
    · exact .inl ⟨hother hj hs, fun _ => nofun⟩

/-! ## Transactions of other sessions -/

variable {db db' : Db}

theorem LockedOk.kept {stage : Stage} (h : LockedOk db tx stage)
    (hsame : stage ≠ .locked → SameDigests db db' tx.loaded.leadId) {row : Delivery}
    (hrow : db.deliveries.get tx.id = some row) : LockedOk db' tx stage := by
  have hview : SameDigests db db' tx.loaded.leadId →
      recomputeAggregate (tx.view db') = recomputeAggregate (tx.view db) :=
    fun hs => (hs.put hrow tx.current).fold
  cases stage with
  | locked | read _ => trivial
  | counted lead computed => exact Eq.trans h (hview (hsame nofun)).symm
  | ready lead computed stored =>
    have hs := hsame nofun
    exact ⟨h.1.trans (hview hs).symm, h.2.trans (by rw [hs.fold])⟩

theorem UnlockedOk.kept {stage : Stage} {reads : SessionId → Reads}
    (h : UnlockedOk w.db (reads sid) tx stage)
    (hsession : w.sessions sid = some (.writing tx stage))
    (hsame : w.resettles a tx.loaded.leadId = false →
      db'.fold tx.loaded.leadId = w.db.fold tx.loaded.leadId) :
    UnlockedOk db' (noteReads w a reads sid) tx stage := by
  cases stage with
  | locked => trivial
  | read lead =>
    intro htorn
    simp only [noteReads, hsession, Bool.or_eq_false_iff] at htorn
    rw [hsame htorn.2]
    exact h htorn.1
  | counted lead computed =>
    have h : (_ → _) ∧ (_ → _) := h
    constructor
    · intro htorn
      simp only [noteReads, hsession, Bool.or_eq_false_iff] at htorn
      rw [hsame htorn.2]
      exact h.1 htorn.1
    · intro houtdated
      simp only [noteReads, hsession, Bool.or_eq_false_iff] at houtdated
      rw [hsame houtdated.2]
      exact h.2 houtdated.1
  | ready lead computed stored =>
    have h : (_ → _) ∧ (_ → _) ∧ _ := h
    refine ⟨fun htorn => ?_, fun houtdated => ?_, h.2.2⟩
    · simp only [noteReads, hsession] at htorn
      exact h.1 htorn
    · simp only [noteReads, hsession, Bool.or_eq_false_iff] at houtdated
      rw [hsame houtdated.2]
      exact h.2.1 houtdated.1

/-! ## The reads of a transaction -/

variable {stage' : Stage}

theorem Folded.advance_locked (h : Folded s) {stage : Stage}
    (hsession : s.1.sessions sid = some (.writing tx stage)) (hp : tx.purpose.locksLead = true)
    (hstage : tx.advance s.1.db stage = some stage') : LockedOk s.1.db tx stage' := by
  have hbefore := h.locked sid tx stage hsession hp
  cases stage with
  | locked =>
    obtain ⟨lead, _, rfl⟩ := Option.map_eq_some_iff.mp hstage
    trivial
  | read lead =>
    cases hstage
    exact rfl
  | counted lead computed =>
    cases hstage
    obtain ⟨row, hrow⟩ := h.consistent.tx_lead hsession
    exact ⟨hbefore, (h.fold _ row hrow).1⟩
  | ready _ _ _ => cases hstage

theorem Folded.advance_unlocked (h : Folded s) {stage : Stage}
    (hsession : s.1.sessions sid = some (.writing tx stage)) (hp : tx.purpose.locksLead = false)
    (hstage : tx.advance s.1.db stage = some stage') (hquiet : s.1.committing a = none) :
    UnlockedOk s.1.db (noteReads s.1 a s.2 sid) tx stage' := by
  have hbefore := h.unlocked sid tx stage hsession hp
  have htx := h.consistent.tx hsession
  have hresettles : s.1.resettles a tx.loaded.leadId = false := by
    rw [World.resettles, hquiet]
    rfl
  obtain ⟨row, hrow⟩ := h.consistent.tx_lead hsession
  obtain ⟨haggregate, hstatus⟩ := h.fold _ row hrow
  cases stage with
  | locked =>
    obtain ⟨lead, hlead, rfl⟩ := Option.map_eq_some_iff.mp hstage
    rw [htx.held hp, lockedRead_unloaded, hrow] at hlead
    cases hlead
    exact fun _ => hstatus
  | read lead =>
    cases hstage
    obtain ⟨hstored, hdigest⟩ := htx.unlocked_digest hp
    have hsame : SameDigests s.1.db (s.1.db.put tx.id tx.current) tx.loaded.leadId :=
      .of_row (Table.keys_set_of_some hstored _) (fun j hj => Table.get_set_ne _ hj _) hstored
        (Table.get_set_self _ _ _) tx.current_same.leadId (fun _ => hdigest)
    have hview : recomputeAggregate (tx.view s.1.db) = s.1.db.fold tx.loaded.leadId :=
      hsame.fold
    refine ⟨fun htorn => ?_, fun _ => hview⟩
    simp only [noteReads, hsession, hresettles, Bool.or_false] at htorn
    exact ⟨(hbefore htorn).trans (by rw [hview]), hview⟩
  | counted lead computed =>
    cases hstage
    have hbefore : (_ → _) ∧ (_ → _) := hbefore
    refine ⟨fun htorn => ?_, fun houtdated => ?_, by rw [haggregate]; rfl⟩
    · simp only [noteReads, hsession, hresettles, Bool.or_false] at htorn
      obtain ⟨hcrm, hcomputed⟩ := hbefore.1 htorn
      exact ⟨hcrm, by rw [haggregate, hcomputed]⟩
    · simp only [noteReads, hsession, hresettles, Bool.or_false] at houtdated
      exact hbefore.2 houtdated
  | ready _ _ _ => cases hstage

/-! ## What a commit writes -/

variable {loaded computed : Aggregate} {lead : Lead} {stored : Option Aggregate}

theorem Aggregate.flush_of_current {current stored : Aggregate}
    (h : stored = loaded ∨ stored = current) : Aggregate.flush loaded current stored = current := by
  rcases h with rfl | rfl <;> simp [Aggregate.flush]

theorem Tx.flush_lead (hrow : db.leads.get tx.loaded.leadId = some row) :
    (tx.flush lead computed stored db).leads.get tx.loaded.leadId
      = some ⟨writeCol lead.crmStatus (some computed.status) row.crmStatus⟩ := by
  show (db.leads.modify _ _).get _ = _
  rw [Table.get_modify_self, hrow, Option.map_some]

theorem Tx.flush_aggregate {aggregate : Aggregate}
    (h : db.aggregates.get tx.loaded.leadId = some aggregate) :
    (tx.flush lead computed (some loaded) db).aggregates.get tx.loaded.leadId
      = some (Aggregate.flush loaded computed aggregate) := by
  show (db.aggregates.modify _ _).get _ = _
  rw [Table.get_modify_self, h, Option.map_some]

theorem Tx.flush_lead_ne {tx : Tx} {lead : Lead} {computed : Aggregate}
    {stored : Option Aggregate} {db : Db} {l : LeadId} (hl : l ≠ tx.loaded.leadId) :
    (tx.flush lead computed stored db).leads.get l = db.leads.get l ∧
      (tx.flush lead computed stored db).aggregates.get l = db.aggregates.get l := by
  refine ⟨Table.get_modify_ne _ hl _, ?_⟩
  cases stored with
  | none => exact Table.get_set_ne _ hl _
  | some loaded => exact Table.get_modify_ne _ hl _

/-- The aggregate and the status a serving transaction leaves behind. -/
theorem Folded.commit_fold (h : Folded s)
    (hsession : s.1.sessions sid = some (.writing tx (.ready lead computed stored)))
    (hreads : readsServe s (.commit sid) = true) (hlead : leadCopyServes s.1 (.commit sid) = true)
    (hrow : s.1.db.leads.get tx.loaded.leadId = some row) :
    ∃ loaded, stored = some loaded ∧
      Aggregate.flush loaded computed (s.1.db.fold tx.loaded.leadId)
        = recomputeAggregate (tx.view s.1.db) ∧
      writeCol lead.crmStatus (some computed.status) row.crmStatus
        = some (recomputeAggregate (tx.view s.1.db)).status := by
  obtain ⟨haggregate, hstatus⟩ := h.fold _ row hrow
  have htx := h.consistent.tx hsession
  cases hp : tx.purpose.locksLead with
  | true =>
    obtain ⟨hcomputed, hstored⟩ := h.locked sid tx _ hsession hp
    refine ⟨_, hstored, ?_, ?_⟩
    · rw [← hcomputed]
      exact Aggregate.flush_of_current (.inl rfl)
    · simp only [leadCopyServes, hsession, hp, hrow, Option.all_some, Bool.not_true,
        Bool.false_or, Bool.or_eq_true, decide_eq_true_eq] at hlead
      rw [hcomputed]
      rcases hlead with hsame | hdiffers
      · rw [hsame, writeCol_stored]
      · exact writeCol_dirty (Ne.symm hdiffers) _
  | false =>
    obtain ⟨hstored, hdigest⟩ := htx.unlocked_digest hp
    have hsame : SameDigests s.1.db (s.1.db.put tx.id tx.current) tx.loaded.leadId :=
      .of_row (Table.keys_set_of_some hstored _) (fun j hj => Table.get_set_ne _ hj _) hstored
        (Table.get_set_self _ _ _) tx.current_same.leadId (fun _ => hdigest)
    have hview : recomputeAggregate (tx.view s.1.db) = s.1.db.fold tx.loaded.leadId :=
      hsame.fold
    have hbefore := h.unlocked sid tx _ hsession hp
    have hbefore : (_ → _) ∧ (_ → _) ∧ _ := hbefore
    rw [readsServe, World.committing_commit hsession, Option.all_some, hp, Bool.false_or,
      Bool.or_eq_true, Bool.not_eq_true', Bool.not_eq_true'] at hreads
    rw [hview]
    rcases hreads with htorn | houtdated
    · -- The reads agree: nothing is written.
      obtain ⟨hcrm, hread⟩ := hbefore.1 htorn
      refine ⟨computed, hread, ?_, ?_⟩
      · simp [Aggregate.flush]
      · rw [hcrm, writeCol_clean, hstatus]
    · -- The deliveries are as they were read: what is written is right.
      have hcomputed := hbefore.2.1 houtdated
      obtain ⟨loaded, hloaded⟩ := Option.isSome_iff_exists.mp hbefore.2.2
      refine ⟨loaded, hloaded, ?_, ?_⟩
      · rw [hcomputed]
        exact Aggregate.flush_of_current (.inr rfl)
      · rw [hcomputed, hstatus]
        exact writeCol_same _ _

/-! ## The invariant is kept -/

theorem Folded.fold_create (h : Folded s) {lead : LeadId} {ids : List DeliveryId}
    {rows : List Delivery} {spam : Bool} {transport : Option Transport} {policy : Option Policy}
    (hrows : rows = newDeliveries s.1.now lead spam transport policy)
    (hfresh : s.1.db.freshLead lead ids = true) (hlen : ids.length = rows.length)
    (hcovered : LeadDelivery.covered rows = true) (l : LeadId) (row : Lead)
    (hrow : (s.1.db.createLead lead (ids.zip rows)).leads.get l = some row) :
    let db := s.1.db.createLead lead (ids.zip rows)
    (db.aggregates.get l = some (db.fold l) ∧ row.crmStatus = some (db.fold l).status) ∧
      LeadDelivery.covered (db.deliveriesOf l) = true := by
  intro db
  have hnone := (Db.freshLead_spec hfresh).1
  have hold : ∀ id d, s.1.db.deliveries.get id = some d → d.leadId ≠ lead := by
    rintro id d hd rfl
    have hlead := h.consistent.lead id d hd
    rw [hnone] at hlead
    cases hlead
  have hof := Db.createLead_deliveriesOf hold hfresh hlen
    (fun d hd => (newDeliveries_new (hrows ▸ hd)).leadId) l
  have hsnd : (ids.zip rows).map (·.2) = rows := List.map_snd_zip hlen.ge
  rw [Db.fold, show db.deliveriesOf l = _ from hof]
  by_cases hl : l = lead
  · subst hl
    have hagg : db.aggregates.get l = some (recomputeAggregate ((ids.zip rows).map (·.2))) :=
      Table.get_set_self _ _ _
    have hlead : db.leads.get l
        = some ⟨some (recomputeAggregate ((ids.zip rows).map (·.2))).status⟩ :=
      Table.get_set_self _ _ _
    rw [hsnd] at hagg hlead
    rw [show _ = _ from hlead] at hrow
    cases hrow
    rw [if_pos rfl]
    exact ⟨⟨hagg, rfl⟩, hcovered⟩
  · have hagg : db.aggregates.get l = s.1.db.aggregates.get l := Table.get_set_ne _ hl _
    have hrow' : s.1.db.leads.get l = some row := (Table.get_set_ne _ hl _).symm.trans hrow
    rw [if_neg hl, hagg]
    exact ⟨h.fold l row hrow', h.covered l row hrow'⟩

theorem Folded.fold_commit (h : Folded s)
    (hsession : s.1.sessions sid = some (.writing tx (.ready lead computed stored)))
    (hserves : serves s (.commit sid) = true) (l : LeadId) (row : Lead)
    (hrow : (tx.flush lead computed stored s.1.db).leads.get l = some row) :
    let db := tx.flush lead computed stored s.1.db
    (db.aggregates.get l = some (db.fold l) ∧ row.crmStatus = some (db.fold l).status) ∧
      LeadDelivery.covered (db.deliveriesOf l) = true := by
  intro db
  have htx := h.consistent.tx hsession
  simp only [serves, Bool.and_eq_true] at hserves
  obtain ⟨⟨hreads, hcopy⟩, hcovers⟩ := hserves
  by_cases hl : l = tx.loaded.leadId
  · subst hl
    obtain ⟨old, hold⟩ := h.consistent.tx_lead hsession
    obtain ⟨loaded, rfl, haggregate, hstatus⟩ := h.commit_fold hsession hreads hcopy hold
    have hrow' := (Tx.flush_lead hold).symm.trans hrow
    cases hrow'
    have hcoveredView : LeadDelivery.covered (tx.view s.1.db) = true := by
      rw [keepsCovered, World.committing_commit hsession] at hcovers
      · exact hcovers
      · nofun
    refine ⟨⟨?_, ?_⟩, ?_⟩
    · rw [show db.aggregates.get _ = _ from Tx.flush_aggregate (h.fold _ old hold).1,
        show db.fold _ = _ from htx.flush_fold lead computed _, haggregate]
    · rw [show db.fold _ = _ from htx.flush_fold lead computed _]
      exact hstatus
    · rw [← hcoveredView]
      refine covered_congr (htx.flush_map lead computed _ _ (fun old new hold hwritten => ?_))
      obtain ⟨hstatus, hrequired, _⟩ := htx.written_digest hold hwritten
      rw [hstatus, hrequired]
  · obtain ⟨hlead, haggregate⟩ := @Tx.flush_lead_ne tx lead computed stored s.1.db l hl
    have hof := htx.flush_other lead computed stored hl
    rw [hlead] at hrow
    rw [Db.fold, show db.deliveriesOf l = _ from hof, show db.aggregates.get l = _ from haggregate]
    exact ⟨h.fold l row hrow, h.covered l row hrow⟩

theorem Folded.step {t : World × (SessionId → Reads)} (h : Folded s) (hserves : serves s a = true)
    (hstep : withGhost LeadDelivery.step noteReads s a = some t) : Folded t := by
  obtain ⟨w', reads'⟩ := t
  obtain ⟨hst, hghost⟩ := withGhost_eq_some.mp hstep
  dsimp only at hst hghost
  have hfold : ∀ l row, w'.db.leads.get l = some row →
      (w'.db.aggregates.get l = some (w'.db.fold l) ∧
        row.crmStatus = some (w'.db.fold l).status) ∧
      LeadDelivery.covered (w'.db.deliveriesOf l) = true := by
    have hkept : ∀ {w : World}, w.db = s.1.db → ∀ l row, w.db.leads.get l = some row →
        (w.db.aggregates.get l = some (w.db.fold l) ∧
          row.crmStatus = some (w.db.fold l).status) ∧
        LeadDelivery.covered (w.db.deliveriesOf l) = true := by
      intro w hw l row hrow
      rw [hw] at hrow ⊢
      exact ⟨h.fold l row hrow, h.covered l row hrow⟩
    cases step_move hst with
    | tick _ | read _ _ _ _ _ | opens _ _ _ _ _ _ | advance _ _ _ _ _ _ _ _ | die _ =>
      exact hkept rfl
    | create lead ids spam transport policy rows hrows hfresh hlen =>
      simp only [serves, Bool.and_eq_true, keepsCovered] at hserves
      exact h.fold_create hrows hfresh hlen (hrows ▸ hserves.2)
    | commit sid tx lead computed stored hsession => exact h.fold_commit hsession hserves
  have hsame : ∀ {sid : SessionId} {tx : Tx} {stage : Stage},
      s.1.sessions sid = some (.writing tx stage) →
      s.1.resettles a tx.loaded.leadId = false → SameDigests s.1.db w'.db tx.loaded.leadId := by
    intro sid tx stage hs hquiet
    obtain ⟨row, hrow⟩ := h.consistent.tx_lead hs
    exact step_sameDigests h.consistent hst hrow hquiet
  refine ⟨h.consistent.step hst, fun l row hrow => (hfold l row hrow).1,
    fun l row hrow => (hfold l row hrow).2, fun sid tx stage hs hp => ?_,
    fun sid tx stage hs hp => ?_⟩
  · rcases writing_origin hst hs with ⟨hs₀, hother⟩ | rfl | ⟨stage₀, hs₀, hstage, hdb, _⟩
    · have htx := h.consistent.tx hs₀
      obtain ⟨row, hrow, _⟩ := htx.copy
      refine (h.locked sid tx stage hs₀ hp).kept (fun hlocked => hsame hs₀ ?_) hrow
      by_contra hresettles
      rw [Bool.not_eq_false] at hresettles
      obtain ⟨owner, tx', hcommit, howner⟩ := resettles_locks h.consistent hresettles
      have hself : owner = sid :=
        Option.some.inj (howner.symm.trans (htx.leadOwner hp hlocked))
      exact hother tx' (hself ▸ hcommit)
    · trivial
    · rw [hdb]
      exact h.advance_locked hs₀ hp hstage
  · rw [hghost]
    rcases writing_origin hst hs with ⟨hs₀, _⟩ | rfl | ⟨stage₀, hs₀, hstage, hdb, hnone⟩
    · exact (h.unlocked sid tx stage hs₀ hp).kept hs₀ (fun hquiet => (hsame hs₀ hquiet).fold)
    · trivial
    · rw [hdb]
      exact h.advance_unlocked hs₀ hp hstage hnone

/-- **Aggregates are folds.** In a run whose claims and recoveries commit on reads that agree or
are up to date, whose other transactions have a serving instance of the lead, and in which
no lead is left with settled optional deliveries only, every state has its aggregates and CRM
statuses equal to what `recompute_lead_delivery_aggregate` yields, and no settled lead pending. -/
theorem aggregates_ok {w : World} (h : Init w) (as : List Action)
    (hserves : Along (withGhost step noteReads) (fun s a _ => serves s a = true)
      (w, fun _ => ⟨false, false⟩) as) :
    Along step (fun _ _ w' => AggregatesOk w'.db) w as := by
  rw [← along_withGhost noteReads (g := fun _ => ⟨false, false⟩)]
  have hstep : ∀ s a t, Folded s → serves s a = true →
      withGhost step noteReads s a = some t → Folded t ∧ AggregatesOk t.1.db :=
    fun s a t hs ha ht => ⟨hs.step ha ht, (hs.step ha ht).ok⟩
  exact along_rule hstep (Folded.init h) hserves

/-! ## Runs -/

/-- A lead with two required deliveries. -/
def createTwo : Action :=
  .create 0 [0, 1] false (some ⟨1, "sales@example.org"⟩)
    (some ⟨.appendGlobal, [⟨.webhook, true, true, none⟩]⟩)

/-- Both deliveries are claimed at the same time; then one dispatch fails and one succeeds. -/
theorem aggregates_ok_twoDeliveries :
    Along step (fun _ _ w' => AggregatesOk w'.db) World.fresh
      (createTwo :: .claim 1 0 .automatic :: .claim 2 1 .automatic :: .advance 1 ::
        readAndCommit 2 ++ [.advance 1, .advance 1, .commit 1] ++ comeBack 1 unreachable ++
          comeBack 2 accepted) :=
  aggregates_ok World.fresh_init _ (by decide +kernel)

/-- A claim reads the deliveries before another one is delivered, and the aggregate after. -/
def tornClaim : List Action :=
  createTwo :: dispatch 2 1 ++ [.claim 1 0 .automatic, .advance 1, .advance 1] ++
    comeBack 2 accepted ++ [.advance 1]

/-- The claim takes the delivery that was just counted out of the aggregate again. -/
theorem aggregates_ok_tornClaim :
    ¬ ∀ w as, Init w → Along step (fun _ _ w' => AggregatesOk w'.db) w as := by
  intro h
  have hrun := h World.fresh (tornClaim ++ .commit 1 :: []) World.fresh_init
  have hstate : (exec step World.fresh tornClaim).any (fun w =>
      (step w (.commit 1)).any (fun w' => (w'.db.leads.get 0).isSome &&
        (w'.db.aggregates.get 0).any (fun aggregate =>
          decide (aggregate.deliveredCount ≠
            (recomputeAggregate (w'.db.deliveriesOf 0)).deliveredCount)))) = true := by
    decide +kernel
  obtain ⟨w, hw, hcheck⟩ := (Option.any_eq_true _ _).mp hstate
  obtain ⟨w', hw', hcheck⟩ := (Option.any_eq_true _ _).mp hcheck
  obtain ⟨hlead, hcheck⟩ := (Bool.and_eq_true _ _).mp hcheck
  obtain ⟨row, hrow⟩ := Option.isSome_iff_exists.mp hlead
  obtain ⟨aggregate, haggregate, hne⟩ := (Option.any_eq_true _ _).mp hcheck
  rw [((hrun.at hw hw').fold 0 row hrow).1] at haggregate
  cases haggregate
  exact of_decide_eq_true hne rfl

end MegaPanel.LeadDelivery
