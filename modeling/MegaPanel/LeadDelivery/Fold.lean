import MegaPanel.LeadDelivery.Sessions

set_option autoImplicit false

/-! # The aggregate as a fold

`recompute_lead_delivery_aggregate` looks at three columns of a delivery only, and does not
tell queued, retrying and processing apart: it is a function of the list of `digest`s. So it
changes when a commit settles a required delivery or reopens one, and at no other time.
-/

namespace MegaPanel.LeadDelivery

open MegaPanel.Lib

/-! ## Digests -/

/-- A status as the aggregate sees it: one name for the pending statuses. -/
def DeliveryStatus.phase : DeliveryStatus → DeliveryStatus
  | .delivered => .delivered
  | .deadLetter => .deadLetter
  | _ => .queued

theorem DeliveryStatus.phase_of_not_terminal {s : DeliveryStatus} (h : s.isTerminal = false) :
    s.phase = .queued := by
  cases s <;> first | rfl | cases h

theorem DeliveryStatus.phase_delivered (s : DeliveryStatus) :
    s.phase = .delivered ↔ s = .delivered := by
  cases s <;> simp [DeliveryStatus.phase]

theorem DeliveryStatus.phase_deadLetter (s : DeliveryStatus) :
    s.phase = .deadLetter ↔ s = .deadLetter := by
  cases s <;> simp [DeliveryStatus.phase]

theorem DeliveryStatus.phase_isPending (s : DeliveryStatus) :
    s.phase.isPending = s.isPending := by
  cases s <;> rfl

/-- What the aggregate sees of a delivery. -/
def Delivery.digest (d : Delivery) : Bool × DeliveryStatus × Time :=
  (d.required, if d.required then d.status.phase else .queued, d.createdAt)

theorem Delivery.digest_eq {d d' : Delivery} (h : d.Same d')
    (hphase : d.status.phase = d'.status.phase) : d.digest = d'.digest := by
  rw [Delivery.digest, Delivery.digest, h.required, h.createdAt, hphase]

/-- The aggregate, computed from the digests. -/
def aggregateDigests (digests : List (Bool × DeliveryStatus × Time)) : Aggregate :=
  let required := digests.filter (·.1)
  let pending := required.filter (·.2.1.isPending)
  let delivered := required.countP (·.2.1 = .delivered)
  let attention := required.countP (·.2.1 = .deadLetter)
  { status :=
      if digests = [] then .notConfigured
      else if attention ≠ 0 then .attention
      else if required.length ≠ 0 ∧ delivered = required.length then .delivered
      else .pending
    expectedCount := required.length
    deliveredCount := delivered
    pendingCount := pending.length
    attentionCount := attention
    oldestPendingAt := (pending.map (·.2.2)).min? }

theorem recomputeAggregate_eq (ds : List Delivery) :
    recomputeAggregate ds = aggregateDigests (ds.map Delivery.digest) := by
  have hreq : (ds.map Delivery.digest).filter (·.1)
      = (ds.filter (·.required)).map Delivery.digest := by
    rw [List.filter_map]
    rfl
  have hdigest : ∀ d ∈ ds.filter (·.required), d.digest.2.1 = d.status.phase := by
    intro d hd
    have hrequired : d.required = true := by simpa using (List.mem_filter.mp hd).2
    rw [Delivery.digest, if_pos hrequired]
  have hpending : ((ds.filter (·.required)).map Delivery.digest).filter (·.2.1.isPending)
      = ((ds.filter (·.required)).filter (·.status.isPending)).map Delivery.digest := by
    rw [List.filter_map]
    refine congrArg _ (List.filter_congr (fun d hd => ?_))
    rw [Function.comp_apply, hdigest d hd, DeliveryStatus.phase_isPending]
  have hdelivered : ((ds.filter (·.required)).map Delivery.digest).countP
      (·.2.1 = .delivered) = (ds.filter (·.required)).countP (·.status = .delivered) := by
    rw [List.countP_map]
    refine List.countP_congr (fun d hd => ?_)
    simp only [Function.comp_apply, hdigest d hd, decide_eq_true_eq,
      DeliveryStatus.phase_delivered]
  have hattention : ((ds.filter (·.required)).map Delivery.digest).countP
      (·.2.1 = .deadLetter) = (ds.filter (·.required)).countP (·.status = .deadLetter) := by
    rw [List.countP_map]
    refine List.countP_congr (fun d hd => ?_)
    simp only [Function.comp_apply, hdigest d hd, decide_eq_true_eq,
      DeliveryStatus.phase_deadLetter]
  simp only [recomputeAggregate, aggregateDigests, aggregateStatus, hreq, hpending, hdelivered,
    hattention, List.length_map, List.map_map, List.map_eq_nil_iff]
  rfl

theorem recomputeAggregate_congr {ds ds' : List Delivery}
    (h : ds.map Delivery.digest = ds'.map Delivery.digest) :
    recomputeAggregate ds = recomputeAggregate ds' := by
  rw [recomputeAggregate_eq, recomputeAggregate_eq, h]

/-! ## The deliveries of a lead, key by key -/

theorem Db.deliveriesOf_eq (db : Db) (lead : LeadId) :
    db.deliveriesOf lead =
      db.deliveries.keys.filterMap (fun id => (db.deliveries.get id).filter (·.leadId = lead)) := by
  rw [Db.deliveriesOf, ← List.filterMap_eq_filter, Table.filterMap_rows]
  refine List.filterMap_congr (fun id _ => ?_)
  cases db.deliveries.get id with
  | none | some d => rfl

/-- What is read off the deliveries of a lead depends on what is read off each of them; rows of
other leads may be added. -/
theorem Db.deliveriesOf_congr {γ : Type*} (f : Delivery → γ) {db db' : Db} {lead : LeadId}
    {added : List DeliveryId} (hkeys : db'.deliveries.keys = db.deliveries.keys ++ added)
    (hadded : ∀ id ∈ added, (db'.deliveries.get id).filter (·.leadId = lead) = none)
    (h : ∀ id ∈ db.deliveries.keys, ((db'.deliveries.get id).filter (·.leadId = lead)).map f
      = ((db.deliveries.get id).filter (·.leadId = lead)).map f) :
    (db'.deliveriesOf lead).map f = (db.deliveriesOf lead).map f := by
  have hnone : added.filterMap
      (fun id => ((db'.deliveries.get id).filter (·.leadId = lead)).map f) = [] := by
    refine List.filterMap_eq_nil_iff.mpr (fun id hid => ?_)
    rw [hadded id hid]
    rfl
  rw [db'.deliveriesOf_eq, db.deliveriesOf_eq, List.map_filterMap, List.map_filterMap, hkeys,
    List.filterMap_append, hnone, List.append_nil]
  exact List.filterMap_congr h

/-- The aggregate of a lead, as its rows have it. -/
def Db.fold (db : Db) (lead : LeadId) : Aggregate := recomputeAggregate (db.deliveriesOf lead)

/-! ## Changes of the rows -/

variable {db db' : Db} {lead : LeadId} {id : DeliveryId} {old new : Delivery}

/-- The rows with one delivery replaced. -/
def Db.put (db : Db) (id : DeliveryId) (d : Delivery) : Db :=
  { db with deliveries := db.deliveries.set id d }

theorem Tx.view_eq (tx : Tx) (db : Db) :
    tx.view db = (db.put tx.id tx.current).deliveriesOf tx.loaded.leadId := rfl

/-- For the aggregate of a lead, the two sets of rows are the same. -/
structure SameDigests (db db' : Db) (lead : LeadId) : Prop where
  keys : ∃ added, db'.deliveries.keys = db.deliveries.keys ++ added ∧
    ∀ id ∈ added, (db'.deliveries.get id).filter (·.leadId = lead) = none
  digest : ∀ id ∈ db.deliveries.keys,
    ((db'.deliveries.get id).filter (·.leadId = lead)).map Delivery.digest
      = ((db.deliveries.get id).filter (·.leadId = lead)).map Delivery.digest

theorem SameDigests.fold (h : SameDigests db db' lead) : db'.fold lead = db.fold lead := by
  obtain ⟨added, hkeys, hadded⟩ := h.keys
  exact recomputeAggregate_congr (Db.deliveriesOf_congr _ hkeys hadded h.digest)

/-- They stay the same when one delivery is replaced in both. -/
theorem SameDigests.put (h : SameDigests db db' lead) {row : Delivery}
    (hrow : db.deliveries.get id = some row) (d : Delivery) :
    SameDigests (db.put id d) (db'.put id d) lead := by
  obtain ⟨added, hkeys, hadded⟩ := h.keys
  have hmem : id ∈ db.deliveries.keys := (db.deliveries.mem_keys id).mpr (by rw [hrow]; rfl)
  have hmem' : id ∈ db'.deliveries.keys := hkeys ▸ List.mem_append_left _ hmem
  have hput : (db.put id d).deliveries.keys = db.deliveries.keys := if_pos hmem
  have hput' : (db'.put id d).deliveries.keys = db'.deliveries.keys := if_pos hmem'
  have hget : ∀ (x : Db) (j : DeliveryId), j ≠ id →
      (x.put id d).deliveries.get j = x.deliveries.get j :=
    fun x j hj => Table.get_set_ne _ hj _
  have hown : ∀ x : Db, (x.put id d).deliveries.get id = some d :=
    fun x => Table.get_set_self _ _ _
  refine ⟨⟨added, by rw [hput, hput', hkeys], fun j hj => ?_⟩, fun j hj => ?_⟩
  · have hne : j ≠ id := by
      rintro rfl
      have hn := db'.deliveries.nodup
      rw [hkeys, List.nodup_append] at hn
      exact hn.2.2 j hmem j hj rfl
    rw [hget db' j hne]
    exact hadded j hj
  · by_cases hne : j = id
    · rw [hne, hown, hown]
    · rw [hget db' j hne, hget db j hne]
      exact h.digest j (hput ▸ hj)

theorem SameDigests.refl (db : Db) (lead : LeadId) : SameDigests db db lead :=
  ⟨⟨[], (List.append_nil _).symm, nofun⟩, fun _ _ => rfl⟩

/-- Changing one delivery of the same lead without changing its digest. -/
theorem SameDigests.of_row (hkeys : db'.deliveries.keys = db.deliveries.keys)
    (hother : ∀ j, j ≠ id → db'.deliveries.get j = db.deliveries.get j)
    (hold : db.deliveries.get id = some old) (hnew : db'.deliveries.get id = some new)
    (hlead : new.leadId = old.leadId) (hdigest : old.leadId = lead → new.digest = old.digest) :
    SameDigests db db' lead := by
  refine ⟨⟨[], by rw [hkeys, List.append_nil], nofun⟩, fun j _ => ?_⟩
  by_cases hj : j = id
  · rw [hj, hold, hnew]
    by_cases hl : old.leadId = lead
    · rw [Option.filter_some_pos (by simpa using hlead.trans hl),
        Option.filter_some_pos (by simpa using hl), Option.map_some, Option.map_some, hdigest hl]
    · rw [Option.filter_some_neg (by simpa using fun h => hl (hlead ▸ h)),
        Option.filter_some_neg (by simpa using hl)]
  · rw [hother j hj]

/-! ## A new lead -/

/-- The creation of a lead gives it its deliveries, and no other lead any. -/
theorem Db.createLead_deliveriesOf {ids : List DeliveryId} {rows : List Delivery}
    (hold : ∀ id d, db.deliveries.get id = some d → d.leadId ≠ lead)
    (hfresh : db.freshLead lead ids = true) (hlen : ids.length = rows.length)
    (hrows : ∀ d ∈ rows, d.leadId = lead) (l : LeadId) :
    (db.createLead lead (ids.zip rows)).deliveriesOf l =
      if l = lead then rows else db.deliveriesOf l := by
  have hfst : (ids.zip rows).map (·.1) = ids := List.map_fst_zip hlen.le
  have hsnd : (ids.zip rows).map (·.2) = rows := List.map_snd_zip hlen.ge
  obtain ⟨_, _, hnew, hn⟩ := Db.freshLead_spec hfresh
  have hall : (db.createLead lead (ids.zip rows)).deliveries.rows
      = db.deliveries.rows ++ ids.zip rows :=
    Table.rows_insertAll (hfst.symm ▸ hn) (hfst.symm ▸ hnew)
  rw [Db.deliveriesOf, hall, List.map_append, List.filter_append, hsnd]
  by_cases hl : l = lead
  · subst hl
    have hnone : (db.deliveries.rows.map (·.2)).filter (·.leadId = l) = [] := by
      refine List.filter_eq_nil_iff.mpr (fun d hd => ?_)
      obtain ⟨⟨id, x⟩, hx, rfl⟩ := List.mem_map.mp hd
      simpa using hold id x (Table.mem_rows.mp hx)
    have hkept : rows.filter (·.leadId = l) = rows :=
      List.filter_eq_self.mpr (fun d hd => by simpa using hrows d hd)
    rw [if_pos rfl, hnone, hkept, List.nil_append]
  · have hnone : rows.filter (·.leadId = l) = [] := by
      refine List.filter_eq_nil_iff.mpr (fun d hd => ?_)
      rw [hrows d hd]
      simpa using fun h => hl h.symm
    rw [if_neg hl, hnone, List.append_nil]
    rfl

/-! ## A commit -/

variable {w : World} {sid : SessionId} {tx : Tx}

/-- A commit stores the status, and what the aggregate sees, of the session's instance. -/
theorem TxOk.written_digest {stage : Stage} (h : TxOk w sid tx stage)
    (hold : w.db.deliveries.get tx.id = some old) (hwritten : Written tx old new) :
    new.status = tx.current.status ∧ new.required = tx.current.required ∧
      new.digest = tx.current.digest := by
  obtain ⟨row, hrow, hrowSame⟩ := h.copy
  rw [hold] at hrow
  cases hrow
  have hsame : new.Same tx.current :=
    (hwritten.same.trans hrowSame).trans tx.current_same.symm
  have hstatus : new.status = tx.current.status := by
    cases hwritten with
    | claim trigger n hp hloaded => rw [Tx.current, hp, hloaded]; rfl
    | finish n result hp =>
      rw [finish_written_status (h.dispatch n result hp).processing, Tx.current, hp]
      exact (Delivery.finish_status _ _ _).symm
    | recover hp hloaded => rw [Tx.current, hp, hloaded]; rfl
    | resend transport hp hloaded => rw [Tx.current, hp, hloaded]; rfl
  exact ⟨hstatus, hsame.required, Delivery.digest_eq hsame (by rw [hstatus])⟩

/-- Claims and recoveries do not change what the aggregate sees. -/
theorem TxOk.unlocked_digest {stage : Stage} (h : TxOk w sid tx stage)
    (hp : tx.purpose.locksLead = false) :
    w.db.deliveries.get tx.id = some tx.loaded ∧ tx.current.digest = tx.loaded.digest := by
  have hphase : tx.purpose.isFinish = false ∧
      tx.current.status.phase = .queued ∧ tx.loaded.status.phase = .queued := by
    cases hpurpose : tx.purpose with
    | claim trigger n =>
      refine ⟨rfl, ?_, DeliveryStatus.phase_of_not_terminal (Tx.claim_admitted hpurpose)⟩
      rw [Tx.current, hpurpose]
      rfl
    | recover =>
      refine ⟨rfl, ?_, by rw [Tx.recover_admitted hpurpose]; rfl⟩
      rw [Tx.current, hpurpose]
      rfl
    | finish _ _ | resend _ => rw [hpurpose] at hp; cases hp
  obtain ⟨hfinish, hcurrent, hloaded⟩ := hphase
  exact ⟨h.row hfinish, Delivery.digest_eq tx.current_same (hcurrent.trans hloaded.symm)⟩

/-- What a transaction reads of the deliveries before it commits is what is stored after. -/
theorem TxOk.flush_map {γ : Type*} {stage : Stage} (h : TxOk w sid tx stage) (lead : Lead)
    (computed : Aggregate) (stored : Option Aggregate) (f : Delivery → γ)
    (hf : ∀ old new, w.db.deliveries.get tx.id = some old → Written tx old new →
      f new = f tx.current) :
    ((tx.flush lead computed stored w.db).deliveriesOf tx.loaded.leadId).map f
      = (tx.view w.db).map f := by
  obtain ⟨old, new, hold, hnew, hwritten⟩ := h.written lead computed stored
  obtain ⟨row, hrow, hrowSame⟩ := h.copy
  rw [hold] at hrow
  cases hrow
  have hmem : tx.id ∈ w.db.deliveries.keys := (w.db.deliveries.mem_keys _).mpr (by rw [hold]; rfl)
  have hkeys : (tx.flush lead computed stored w.db).deliveries.keys
      = (w.db.put tx.id tx.current).deliveries.keys ++ [] := by
    rw [List.append_nil]
    exact (Table.keys_modify _ _ _).trans (if_pos hmem).symm
  rw [Tx.view_eq]
  refine Db.deliveriesOf_congr f hkeys nofun (fun id _ => ?_)
  by_cases hid : id = tx.id
  · have hput : (w.db.put tx.id tx.current).deliveries.get tx.id = some tx.current :=
      Table.get_set_self _ _ _
    have hleadNew : new.leadId = tx.loaded.leadId := hwritten.same.leadId.trans hrowSame.leadId
    rw [hid, hnew, hput, Option.filter_some_pos (by simpa using hleadNew),
      Option.filter_some_pos (by simpa using tx.current_same.leadId), Option.map_some,
      Option.map_some, hf old new hold hwritten]
  · have hput : (w.db.put tx.id tx.current).deliveries.get id = w.db.deliveries.get id :=
      Table.get_set_ne _ hid _
    rw [Tx.flush_get, if_neg hid, hput]

theorem TxOk.flush_fold {stage : Stage} (h : TxOk w sid tx stage) (lead : Lead)
    (computed : Aggregate) (stored : Option Aggregate) :
    (tx.flush lead computed stored w.db).fold tx.loaded.leadId
      = recomputeAggregate (tx.view w.db) :=
  recomputeAggregate_congr (h.flush_map lead computed stored _
    (fun _ _ hold hwritten => (h.written_digest hold hwritten).2.2))

/-- A commit leaves the deliveries of other leads alone. -/
theorem TxOk.flush_other {stage : Stage} (h : TxOk w sid tx stage) (lead : Lead)
    (computed : Aggregate) (stored : Option Aggregate) {l : LeadId} (hl : l ≠ tx.loaded.leadId) :
    (tx.flush lead computed stored w.db).deliveriesOf l = w.db.deliveriesOf l := by
  obtain ⟨old, new, hold, hnew, hwritten⟩ := h.written lead computed stored
  obtain ⟨row, hrow, hrowSame⟩ := h.copy
  rw [hold] at hrow
  cases hrow
  have hkeys : (tx.flush lead computed stored w.db).deliveries.keys
      = w.db.deliveries.keys ++ [] := by
    rw [List.append_nil]
    exact Table.keys_modify _ _ _
  have hmap := @Db.deliveriesOf_congr _ id _ _ l _ hkeys nofun (fun key _ => ?_)
  · rwa [List.map_id, List.map_id] at hmap
  · by_cases hid : key = tx.id
    · have hne : old.leadId ≠ l := fun heq => hl (heq.symm.trans hrowSame.leadId)
      have hne' : new.leadId ≠ l := fun heq => hne (hwritten.same.leadId.symm.trans heq)
      rw [hid, hnew, hold, Option.filter_some_neg (by simpa using hne'),
        Option.filter_some_neg (by simpa using hne)]
    · rw [Tx.flush_get, if_neg hid]

end MegaPanel.LeadDelivery
