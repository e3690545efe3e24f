import MegaPanel.Audit.Log

set_option autoImplicit false

/-! # The chain of the audit log

`audit_chain` says what the log is for. Concurrent calls of `append_audit` leave a chain that
verifies, since a transaction keeps the lock from the read of the last record to its commit. And a
chain that verifies is fixed by the hash of its last record: the canonical text of a
record determines the record (`same_recordBody`), so going back from equal hashes every record
agrees with its counterpart.
-/

namespace MegaPanel.Audit

open MegaPanel.Lib MegaPanel.Lib.Sha256

/-! ## Linked records -/

variable {previous : String} {entries : List AuditLog}

/-- The hash that the next record will carry as its `prev_hash`. -/
def lastHash (previous : String) (entries : List AuditLog) : String :=
  (entries.getLast?.map (·.recordHash)).getD previous

theorem lastHash_cons (previous : String) (entry : AuditLog) (entries : List AuditLog) :
    lastHash previous (entry :: entries) = lastHash entry.recordHash entries := by
  cases entries with
  | nil => rfl
  | cons next entries =>
    rw [lastHash, lastHash, List.getLast?_cons_cons,
      List.getLast?_eq_some_getLast (List.cons_ne_nil next entries)]
    rfl

/-- The record stands behind the hash `previous` and carries its own hash. -/
def Fits (previous : String) (entry : AuditLog) : Prop :=
  entry.prevHash = previous ∧ entry.recordHash = auditRecordHash entry.action
    (orEmpty entry.payload) entry.tenantId entry.actorId previous

theorem verifyFrom_cons_eq_nil {entry : AuditLog} :
    verifyFrom previous (entry :: entries) = [] ↔
      Fits previous entry ∧ verifyFrom entry.recordHash entries = [] := by
  rw [verifyFrom]
  split_ifs with h
  · constructor
    · intro hnil
      cases hnil
    · rintro ⟨⟨hprev, hhash⟩, _⟩
      rcases h with h | h
      · exact absurd hprev h
      · exact absurd hhash h
  · rw [not_or, not_not, not_not] at h
    exact ⟨fun hrest => ⟨h, hrest⟩, fun hrest => hrest.2⟩

theorem verifyFrom_append (previous : String) (entries more : List AuditLog) :
    verifyFrom previous (entries ++ more) = [] ↔
      verifyFrom previous entries = [] ∧ verifyFrom (lastHash previous entries) more = [] := by
  induction entries generalizing previous with
  | nil =>
    rw [List.nil_append]
    exact ⟨fun h => ⟨rfl, h⟩, fun h => h.2⟩
  | cons entry entries ih =>
    rw [List.cons_append, verifyFrom_cons_eq_nil, verifyFrom_cons_eq_nil, ih, lastHash_cons,
      and_assoc]

theorem verifyFrom_concat (previous : String) (entries : List AuditLog) (entry : AuditLog) :
    verifyFrom previous (entries ++ [entry]) = [] ↔
      verifyFrom previous entries = [] ∧ Fits (lastHash previous entries) entry := by
  rw [verifyFrom_append, verifyFrom_cons_eq_nil]
  exact ⟨fun h => ⟨h.1, h.2.1⟩, fun h => ⟨h.1, h.2, rfl⟩⟩

/-! ## The text of a record determines it -/

theorem idText_inj {a b : Option Uuid} (h : Json.sortKeys (idText a) = Json.sortKeys (idText b)) :
    a = b := by
  cases a with
  | none =>
    cases b with
    | none => rfl
    | some v => exact absurd h (by simp [idText, Json.sortKeys])
  | some u =>
    cases b with
    | none => exact absurd h (by simp [idText, Json.sortKeys])
    | some v =>
      have hstr : u.str = v.str := by simpa [idText, Json.sortKeys] using h
      have hread := ofText_str u
      rw [hstr, ofText_str v] at hread
      exact hread.symm

theorem valid_idText (id : Option Uuid) : Json.valid (idText id) = true := by
  cases id <;> rfl

theorem valid_recordBody (action : String) (payload : Payload) (tenantId actorId : Option Uuid)
    (prevHash : String) :
    Json.valid (recordBody action payload tenantId actorId prevHash) = true := by
  rw [recordBody, Json.valid, Json.validEntries_iff]
  refine ⟨by simp, ?_⟩
  simp only [List.forall_mem_cons, List.not_mem_nil, false_imp_iff, implies_true, and_true]
  exact ⟨rfl, payload.valid, valid_idText _, valid_idText _, rfl⟩

/-- Bodies with equal texts are equal in every part. -/
theorem same_recordBody {action action' : String} {payload payload' : Payload}
    {tenantId tenantId' actorId actorId' : Option Uuid} {prevHash prevHash' : String} :
    Json.Same (recordBody action payload tenantId actorId prevHash)
        (recordBody action' payload' tenantId' actorId' prevHash') ↔
      action = action' ∧ Json.Same payload.json payload'.json ∧ tenantId = tenantId' ∧
        actorId = actorId' ∧ prevHash = prevHash' := by
  constructor
  · intro h
    simp only [Json.Same, recordBody, Json.sortKeys, Json.dict.injEq] at h
    have hmem : ∀ e, e ∈ Json.sortKeysEntries [("action", .str action), ("payload", payload.json),
        ("tenant_id", idText tenantId), ("actor_id", idText actorId),
        ("prev_hash", .str prevHash)] →
        e ∈ Json.sortKeysEntries [("action", .str action'), ("payload", payload'.json),
          ("tenant_id", idText tenantId'), ("actor_id", idText actorId'),
          ("prev_hash", .str prevHash')] := by
      intro e he
      rw [← List.mem_insertionSort (fun e e' : String × Json => e.1 ≤ e'.1)] at he ⊢
      rwa [h] at he
    simp only [Json.sortKeysEntries, Json.sortKeys, List.mem_cons, List.not_mem_nil,
      or_false] at hmem
    have haction := hmem ("action", .str action) (by simp)
    have hpayload := hmem ("payload", Json.sortKeys payload.json) (by simp)
    have htenant := hmem ("tenant_id", Json.sortKeys (idText tenantId)) (by simp)
    have hactor := hmem ("actor_id", Json.sortKeys (idText actorId)) (by simp)
    have hprev := hmem ("prev_hash", .str prevHash) (by simp)
    refine ⟨by simpa using haction, by simpa [Json.Same] using hpayload, idText_inj (by simpa using htenant),
      idText_inj (by simpa using hactor), by simpa using hprev⟩
  · rintro ⟨rfl, hpayload, rfl, rfl, rfl⟩
    simp only [Json.Same, recordBody, Json.sortKeys, Json.sortKeysEntries]
    rw [show Json.sortKeys payload.json = Json.sortKeys payload'.json from hpayload]

/-! ## Two chains with the same end -/

variable {all : List AuditLog}

/-- The text that `record_hash` is the hash of. -/
def AuditLog.body (entry : AuditLog) : String :=
  (recordBody entry.action (orEmpty entry.payload) entry.tenantId entry.actorId
    entry.prevHash).dumps

/-- The records agree in all that the chain covers, an absent payload being the empty one. -/
structure Agree (entry entry' : AuditLog) : Prop where
  action : entry.action = entry'.action
  payload : Json.Same (orEmpty entry.payload).json (orEmpty entry'.payload).json
  tenantId : entry.tenantId = entry'.tenantId
  actorId : entry.actorId = entry'.actorId
  recordHash : entry.recordHash = entry'.recordHash
  prevHash : entry.prevHash = entry'.prevHash

/-- What stands in a `prev_hash`: the hash of a text, or the start of the chain. -/
def linkHash : Option String → String
  | some text => sha256Hex text
  | none => zeroHash

/-- The inputs that occur: the texts of the records, and the start of the chain. -/
def inputs (entries : List AuditLog) : List (Option String) :=
  none :: entries.map (fun entry => some entry.body)

/-- SHA-256 is injective on the inputs that occur. -/
def InjectiveOn (entries : List AuditLog) : Prop :=
  ∀ x ∈ inputs entries, ∀ y ∈ inputs entries, linkHash x = linkHash y → x = y

theorem Fits.hash {entry : AuditLog} (h : Fits previous entry) :
    entry.recordHash = linkHash (some entry.body) := by
  rw [h.2, ← h.1]
  rfl

/-- What a chain ends in: the text of its last record, or nothing. -/
theorem lastHash_eq (h : verifyAuditChain entries = []) :
    lastHash zeroHash entries = linkHash (entries.getLast?.map AuditLog.body) := by
  induction entries using List.reverseRecOn with
  | nil => rfl
  | append_singleton entries entry ih =>
    have hfits := ((verifyFrom_concat zeroHash entries entry).mp h).2
    rw [lastHash, List.getLast?_concat, Option.map_some, Option.map_some, Option.getD_some]
    exact hfits.hash

theorem getLast_mem_inputs (hsub : ∀ e ∈ entries, e ∈ all) :
    entries.getLast?.map AuditLog.body ∈ inputs all := by
  cases hlast : entries.getLast? with
  | none => exact List.mem_cons_self ..
  | some entry =>
    exact List.mem_cons_of_mem _
      (List.mem_map.mpr ⟨entry, hsub entry (List.mem_of_getLast? hlast), rfl⟩)

/-- **Equal ends, equal chains.** From the last record backwards: equal hashes come from equal
texts, equal texts from equal records, and those name the same hash before them. -/
theorem agree_of_lastHash (hall : InjectiveOn all) :
    ∀ {entries entries' : List AuditLog}, (∀ e ∈ entries, e ∈ all) → (∀ e ∈ entries', e ∈ all) →
      verifyAuditChain entries = [] → verifyAuditChain entries' = [] →
      lastHash zeroHash entries = lastHash zeroHash entries' →
      List.Forall₂ Agree entries entries' := by
  intro entries
  induction entries using List.reverseRecOn with
  | nil =>
    intro entries' hsub hsub' h h' hlast
    rw [lastHash_eq h, lastHash_eq h'] at hlast
    have hnone := hall _ (getLast_mem_inputs hsub) _ (getLast_mem_inputs hsub') hlast
    cases entries' using List.reverseRecOn with
    | nil => exact List.Forall₂.nil
    | append_singleton rest entry =>
      rw [List.getLast?_concat] at hnone
      cases hnone
  | append_singleton rest entry ih =>
    intro entries' hsub hsub' h h' hlast
    have hbody := hlast
    rw [lastHash_eq h, lastHash_eq h'] at hbody
    have hinputs := hall _ (getLast_mem_inputs hsub) _ (getLast_mem_inputs hsub') hbody
    cases entries' using List.reverseRecOn with
    | nil =>
      rw [List.getLast?_concat] at hinputs
      cases hinputs
    | append_singleton rest' entry' =>
      rw [List.getLast?_concat, List.getLast?_concat, Option.map_some, Option.map_some] at hinputs
      obtain ⟨hrest, hfits⟩ := (verifyFrom_concat zeroHash rest entry).mp h
      obtain ⟨hrest', hfits'⟩ := (verifyFrom_concat zeroHash rest' entry').mp h'
      obtain ⟨haction, hpayload, htenant, hactor, hprev⟩ := same_recordBody.mp
        ((Json.dumps_inj (valid_recordBody ..) (valid_recordBody ..)).mp
          (Option.some.inj hinputs))
      have hagree : Agree entry entry' :=
        ⟨haction, hpayload, htenant, hactor,
          by rw [hfits.hash, hfits'.hash, Option.some.inj hinputs], hprev⟩
      have hbefore : lastHash zeroHash rest = lastHash zeroHash rest' := by
        rw [← hfits.1, hprev, hfits'.1]
      exact List.rel_append (ih (fun e he => hsub e (List.mem_append_left _ he))
        (fun e he => hsub' e (List.mem_append_left _ he)) hrest hrest' hbefore)
        (List.Forall₂.cons hagree List.Forall₂.nil)

/-! ## Rows in the order of their ids -/

theorem orderById_eq {rows : List AuditLog} (h : rows.Pairwise (fun e e' => e.id < e'.id)) :
    orderById rows = rows :=
  (h.imp (fun hlt => Nat.le_of_lt hlt)).insertionSort_eq

/-- The row with the greatest id is the last one. -/
theorem lastRow_eq {rows : List AuditLog} (h : rows.Pairwise (fun e e' => e.id < e'.id)) :
    lastRow rows = rows.getLast? := by
  cases rows using List.reverseRecOn with
  | nil => rfl
  | append_singleton rest last =>
    rw [List.getLast?_concat, lastRow]
    have hmem := fun e => List.mem_insertionSort (fun e e' : AuditLog => e'.id ≤ e.id)
      (l := rest ++ [last]) (x := e)
    have hsorted := List.pairwise_insertionSort (fun e e' : AuditLog => e'.id ≤ e.id)
      (rest ++ [last])
    have hlast := (hmem last).mpr (by simp)
    cases hsort : (rest ++ [last]).insertionSort (fun e e' => e'.id ≤ e.id) with
    | nil => rw [hsort] at hlast; cases hlast
    | cons first others =>
      rw [hsort] at hsorted hlast
      have hle : last.id ≤ first.id := by
        rcases List.mem_cons.mp hlast with rfl | hothers
        · exact Nat.le_refl _
        · exact (List.pairwise_cons.mp hsorted).1 last hothers
      have hfirst : first ∈ rest ++ [last] := (hmem first).mp (by rw [hsort]; simp)
      rcases List.mem_append.mp hfirst with hrest | hfirst
      · have hlt := (List.pairwise_append.mp h).2.2 first hrest last (by simp)
        omega
      · rw [List.mem_singleton.mp hfirst]
        rfl

/-! ## Concurrent calls -/

/-- The stored payload reads back equal. -/
def ReadsBack (jsonb : Payload → Payload) (payload : Payload) : Prop :=
  Json.Same (jsonb payload).json payload.json

/-- The payload of the call reads back equal, if the step begins one. -/
def readsBack (jsonb : Payload → Payload) : Action → Prop
  | .lock _ arguments => ReadsBack jsonb (orEmpty arguments.payload)
  | _ => True

def Call.arguments : Call → Arguments
  | .locked arguments => arguments
  | .read arguments _ => arguments

/-- What holds between the steps. Only the owner of the lock has a call or records of its own,
and what each transaction sees is a chain. -/
structure Sound (jsonb : Payload → Payload) (w : World) : Prop where
  idle : ∀ tx, w.lock ≠ some tx → w.inserted tx = [] ∧ w.call tx = none
  sorted : ∀ tx, (w.visible tx).Pairwise (fun e e' => e.id < e'.id)
  fresh : ∀ tx, ∀ e ∈ w.visible tx, e.id < w.nextId
  chain : ∀ tx, verifyAuditChain (w.visible tx) = []
  read : ∀ tx arguments previous, w.call tx = some (.read arguments previous) →
    previous = lastHash zeroHash (w.visible tx)
  payload : ∀ tx call, w.call tx = some call → ReadsBack jsonb (orEmpty call.arguments.payload)

theorem sound_initial (jsonb : Payload → Payload) : Sound jsonb initial where
  idle _ _ := ⟨rfl, rfl⟩
  sorted _ := List.Pairwise.nil
  fresh _ _ he := by cases he
  chain _ := rfl
  read _ _ _ h := by cases h
  payload _ _ h := by cases h

variable {jsonb : Payload → Payload} {w : World}

@[simp] theorem visible_setCall (w : World) (tx tx' : TxId) (call : Option Call) :
    (w.setCall tx call).visible tx' = w.visible tx' := rfl

theorem call_setCall_self (w : World) (tx : TxId) (call : Option Call) :
    (w.setCall tx call).call tx = call := Function.update_self ..

variable {tx tx' : TxId}

theorem call_setCall_of_ne (w : World) (h : tx' ≠ tx) (call : Option Call) :
    (w.setCall tx call).call tx' = w.call tx' := Function.update_of_ne h ..

/-- The owner of the lock moves to the next point of its call. -/
theorem Sound.setCall (h : Sound jsonb w) {call : Option Call} (howner : w.lock = some tx)
    (hread : ∀ arguments previous, call = some (.read arguments previous) →
      previous = lastHash zeroHash (w.visible tx))
    (hpayload : ∀ c, call = some c → ReadsBack jsonb (orEmpty c.arguments.payload)) :
    Sound jsonb (w.setCall tx call) where
  idle tx' hne := by
    have hother : tx' ≠ tx := fun heq => hne (heq ▸ howner)
    rw [call_setCall_of_ne w hother]
    exact h.idle tx' hne
  sorted tx' := h.sorted tx'
  fresh tx' := h.fresh tx'
  chain tx' := h.chain tx'
  read tx' arguments previous hcall := by
    by_cases heq : tx' = tx
    · subst heq
      rw [call_setCall_self] at hcall
      exact hread arguments previous hcall
    · rw [call_setCall_of_ne w heq] at hcall
      exact h.read tx' arguments previous hcall
  payload tx' c hcall := by
    by_cases heq : tx' = tx
    · subst heq
      rw [call_setCall_self] at hcall
      exact hpayload c hcall
    · rw [call_setCall_of_ne w heq] at hcall
      exact h.payload tx' c hcall

/-- A free lock, or the transaction's own, is taken. -/
theorem Sound.takeLock (h : Sound jsonb w) (hfree : w.lock = none ∨ w.lock = some tx) :
    Sound jsonb { w with lock := some tx } where
  idle tx' hne := by
    refine h.idle tx' (fun hlock => ?_)
    rcases hfree with hnone | hown
    · rw [hnone] at hlock
      cases hlock
    · rw [hown] at hlock
      exact hne hlock
  sorted := h.sorted
  fresh := h.fresh
  chain := h.chain
  read := h.read
  payload := h.payload

/-- A transaction with a call has the lock. -/
theorem Sound.owner (h : Sound jsonb w) {call : Call} (hcall : w.call tx = some call) :
    w.lock = some tx := by
  by_contra hne
  rw [(h.idle tx hne).2] at hcall
  cases hcall

variable {arguments : Arguments}

theorem newRow_fits {id : Nat} (h : ReadsBack jsonb (orEmpty arguments.payload)) :
    Fits previous (newRow jsonb id arguments previous) := by
  refine ⟨rfl, ?_⟩
  have hbody := (Json.dumps_inj (valid_recordBody ..) (valid_recordBody ..)).mpr
    (same_recordBody.mpr (⟨rfl, h.symm, rfl, rfl, rfl⟩ : arguments.action = arguments.action ∧
      Json.Same (orEmpty arguments.payload).json (jsonb (orEmpty arguments.payload)).json ∧
      arguments.tenantId = arguments.tenantId ∧ arguments.actorId = arguments.actorId ∧
      previous = previous))
  exact congrArg sha256Hex hbody

/-- The state after the insertion of a row. -/
def World.insertRow (w : World) (tx : TxId) (entry : AuditLog) : World :=
  { w with
    nextId := w.nextId + 1
    inserted := Function.update w.inserted tx (w.inserted tx ++ [entry]) }

theorem visible_insertRow_self (w : World) (tx : TxId) (entry : AuditLog) :
    (w.insertRow tx entry).visible tx = w.visible tx ++ [entry] := by
  simp [World.visible, World.insertRow]

theorem visible_insertRow_of_ne (w : World) (h : tx' ≠ tx) (entry : AuditLog) :
    (w.insertRow tx entry).visible tx' = w.visible tx' := by
  simp [World.visible, World.insertRow, Function.update_of_ne h]

/-- **The next record continues the chain.** -/
theorem Sound.insertRow (h : Sound jsonb w) (hcall : w.call tx = some (.read arguments previous)) :
    Sound jsonb ((w.insertRow tx (newRow jsonb w.nextId arguments previous)).setCall tx none) where
  idle tx' hne := by
    have hother : tx' ≠ tx := by
      rintro rfl
      exact hne (h.owner hcall)
    rw [call_setCall_of_ne _ hother]
    exact ⟨(Function.update_of_ne hother ..).trans (h.idle tx' hne).1, (h.idle tx' hne).2⟩
  sorted tx' := by
    rw [visible_setCall]
    by_cases heq : tx' = tx
    · subst heq
      rw [visible_insertRow_self, List.pairwise_append]
      refine ⟨h.sorted _, List.pairwise_singleton .., ?_⟩
      intro e he e' he'
      rw [List.mem_singleton.mp he']
      exact h.fresh _ e he
    · rw [visible_insertRow_of_ne w heq]
      exact h.sorted tx'
  fresh tx' e he := by
    rw [visible_setCall] at he
    show e.id < w.nextId + 1
    by_cases heq : tx' = tx
    · subst heq
      rw [visible_insertRow_self] at he
      rcases List.mem_append.mp he with he | he
      · exact Nat.lt_succ_of_lt (h.fresh _ e he)
      · rw [List.mem_singleton.mp he]
        exact Nat.lt_succ_self _
    · rw [visible_insertRow_of_ne w heq] at he
      exact Nat.lt_succ_of_lt (h.fresh tx' e he)
  chain tx' := by
    rw [visible_setCall]
    by_cases heq : tx' = tx
    · subst heq
      rw [visible_insertRow_self, verifyAuditChain, verifyFrom_concat]
      exact ⟨h.chain _, h.read _ _ _ hcall ▸ newRow_fits (h.payload _ _ hcall)⟩
    · rw [visible_insertRow_of_ne w heq]
      exact h.chain tx'
  read tx' arguments' previous' hcall' := by
    by_cases heq : tx' = tx
    · subst heq
      rw [call_setCall_self] at hcall'
      cases hcall'
    · rw [call_setCall_of_ne _ heq] at hcall'
      rw [visible_setCall, visible_insertRow_of_ne w heq]
      exact h.read tx' _ _ hcall'
  payload tx' c hcall' := by
    by_cases heq : tx' = tx
    · subst heq
      rw [call_setCall_self] at hcall'
      cases hcall'
    · rw [call_setCall_of_ne _ heq] at hcall'
      exact h.payload tx' c hcall'

/-- For a transaction without the lock there is nothing to end. -/
theorem Sound.close_other (h : Sound jsonb w) (hne : w.lock ≠ some tx) : w.close tx = w := by
  have hinserted : Function.update w.inserted tx [] = w.inserted := by
    rw [← (h.idle tx hne).1, Function.update_eq_self]
  have hcall : Function.update w.call tx none = w.call := by
    rw [← (h.idle tx hne).2, Function.update_eq_self]
  rw [World.close, if_neg hne, hinserted, hcall]

/-- **The owner of the lock ends**, and its records are committed or lost. What is committed then is
what one transaction saw before, and what every transaction sees now. -/
theorem Sound.close (h : Sound jsonb w) (howner : w.lock = some tx) {rows : List AuditLog}
    (hrows : rows <+: w.visible tx) : Sound jsonb ({ w with auditLog := rows }.close tx) := by
  have hlock : ({ w with auditLog := rows }.close tx).lock = none := if_pos howner
  have hnone : ∀ tx', Function.update w.inserted tx [] tx' = [] ∧
      Function.update w.call tx none tx' = none := by
    intro tx'
    by_cases heq : tx' = tx
    · subst heq
      exact ⟨Function.update_self .., Function.update_self ..⟩
    · have hne : w.lock ≠ some tx' := by
        rw [howner]
        exact fun hsame => heq (Option.some.inj hsame).symm
      rw [Function.update_of_ne heq, Function.update_of_ne heq]
      exact h.idle tx' hne
  have hvisible : ∀ tx', ({ w with auditLog := rows }.close tx).visible tx' = rows := by
    intro tx'
    show rows ++ Function.update w.inserted tx [] tx' = rows
    rw [(hnone tx').1, List.append_nil]
  obtain ⟨more, hmore⟩ := hrows
  exact {
    idle := fun tx' _ => hnone tx'
    sorted := fun tx' => by
      rw [hvisible]
      exact (h.sorted tx).sublist (hmore ▸ List.sublist_append_left rows more)
    fresh := fun tx' e he => by
      rw [hvisible] at he
      exact h.fresh tx e (hmore ▸ List.mem_append_left more he)
    chain := fun tx' => by
      have hchain := h.chain tx
      rw [← hmore, verifyAuditChain, verifyFrom_append] at hchain
      rw [hvisible]
      exact hchain.1
    read := fun tx' arguments previous hcall => by
      exact absurd ((hnone tx').2.symm.trans hcall) (by simp)
    payload := fun tx' c hcall => absurd ((hnone tx').2.symm.trans hcall) (by simp) }

theorem Sound.step (h : Sound jsonb w) {a : Action} (ha : readsBack jsonb a) {w' : World}
    (hstep : Audit.step jsonb w a = some w') : Sound jsonb w' := by
  cases a with
  | lock tx arguments =>
    simp only [Audit.step, Option.ite_none_right_eq_some, Option.some.injEq] at hstep
    obtain ⟨⟨hfree, _⟩, rfl⟩ := hstep
    refine (h.takeLock hfree).setCall rfl ?_ ?_
    · intro arguments' previous hcall
      cases hcall
    · intro c hcall
      cases hcall
      exact ha
  | read tx =>
    rw [Audit.step] at hstep
    split at hstep
    · rename_i arguments hcall
      cases hstep
      refine h.setCall (h.owner hcall) ?_ ?_
      · intro arguments' previous' heq
        cases heq
        rw [lastRow_eq (h.sorted tx)]
        rfl
      · intro c heq
        cases heq
        exact h.payload tx (.locked arguments) hcall
    · cases hstep
  | insert tx =>
    rw [Audit.step] at hstep
    split at hstep
    · rename_i arguments previous hcall
      cases hstep
      exact h.insertRow hcall
    · cases hstep
  | commit tx =>
    simp only [Audit.step, Option.ite_none_right_eq_some, Option.some.injEq] at hstep
    obtain ⟨_, rfl⟩ := hstep
    by_cases howner : w.lock = some tx
    · exact h.close howner (List.prefix_refl _)
    rw [(h.idle tx howner).1, List.append_nil]
    rw [h.close_other howner]
    exact h
  | rollback tx =>
    cases hstep
    by_cases howner : w.lock = some tx
    · exact h.close howner (List.prefix_append _ _)
    · rw [h.close_other howner]
      exact h

/-- **The stored chain verifies after every run.** -/
theorem Sound.verifies (h : Sound jsonb w) : verifyAuditChain (orderById w.auditLog) = [] := by
  have hsorted := (h.sorted 0).sublist (List.sublist_append_left w.auditLog (w.inserted 0))
  have hchain := h.chain 0
  rw [World.visible, verifyAuditChain, verifyFrom_append] at hchain
  rw [orderById_eq hsorted]
  exact hchain.1

/-- **The audit chain is tamper-evident.** Concurrent calls of `append_audit` leave a chain that
verifies. Two lists of records that verify and end in the same hash have the same length and
agree record by record. -/
theorem audit_chain (jsonb : Payload → Payload) :
    (∀ {w : World} {as : List Action}, (∀ a ∈ as, readsBack jsonb a) →
      exec (step jsonb) initial as = some w → verifyAuditChain (orderById w.auditLog) = []) ∧
    (∀ {entries entries' : List AuditLog} {recordHash : String},
      InjectiveOn (entries ++ entries') →
      verifyAuditChain entries = [] → verifyAuditChain entries' = [] →
      entries.getLast?.map (·.recordHash) = some recordHash →
      entries'.getLast?.map (·.recordHash) = some recordHash →
      entries.length = entries'.length ∧ List.Forall₂ Agree entries entries') := by
  constructor
  · intro w as hreads hrun
    have hsound := exec_invariant (I := Sound jsonb) (G := fun _ a _ => readsBack jsonb a)
      (fun s a t hs hg hstep => hs.step hg hstep) (sound_initial jsonb)
      (along_of_forall hreads initial) hrun
    exact hsound.verifies
  · intro entries entries' recordHash hinjective h h' hlast hlast'
    have hends : lastHash zeroHash entries = lastHash zeroHash entries' := by
      rw [lastHash, lastHash, hlast, hlast']
    have hagree := agree_of_lastHash hinjective (fun e he => List.mem_append_left _ he)
      (fun e he => List.mem_append_right _ he) h h' hends
    exact ⟨hagree.length_eq, hagree⟩

/-! Two transactions: the first one writes two records, the second one loses a record. The first
record as it was written and as the column holds it, with its keys in another order, are chains
with one end. -/

def sitePayload : Payload := ⟨[("site", .str "one"), ("pages", .int 3)], by decide⟩

def storedPayload : Payload := ⟨[("pages", .int 3), ("site", .str "one")], by decide⟩

def siteJsonb (payload : Payload) : Payload :=
  if payload.entries.length = 2 then storedPayload else payload

def siteCreated : Arguments := ⟨"site.create", some sitePayload, none, none⟩

def loggedOut : Arguments := ⟨"logout", none, none, none⟩

def auditRun : List Action :=
  [.lock 1 siteCreated, .read 1, .insert 1, .lock 1 loggedOut, .read 1, .insert 1, .commit 1,
    .lock 2 siteCreated, .read 2, .insert 2, .rollback 2]

def auditWorld : World := (exec (step siteJsonb) initial auditRun).get (by decide +kernel)

def writtenRow : AuditLog := newRow id 1 siteCreated zeroHash

def storedRow : AuditLog := newRow siteJsonb 1 siteCreated zeroHash

theorem readsBack_siteCreated : ReadsBack siteJsonb (orEmpty siteCreated.payload) :=
  (Json.dumps_inj storedPayload.valid sitePayload.valid).mp (by decide +kernel)

theorem injectiveOn_rows : InjectiveOn ([storedRow] ++ [writtenRow]) := by
  have hbody : storedRow.body = writtenRow.body := (Json.dumps_inj (valid_recordBody ..)
    (valid_recordBody ..)).mpr (same_recordBody.mpr ⟨rfl, readsBack_siteCreated, rfl, rfl, rfl⟩)
  have hstart : sha256Hex writtenRow.body ≠ zeroHash := by decide +kernel
  have hinputs : inputs ([storedRow] ++ [writtenRow])
      = [none, some writtenRow.body, some writtenRow.body] := by
    rw [← hbody]
    exact congrArg (fun text => [none, some storedRow.body, some text]) hbody.symm
  rw [InjectiveOn, hinputs]
  intro x hx y hy h
  simp only [List.mem_cons, List.not_mem_nil, or_false, or_self] at hx hy
  rcases hx with rfl | rfl
  · rcases hy with rfl | rfl
    · rfl
    · exact absurd h.symm hstart
  · rcases hy with rfl | rfl
    · exact absurd h hstart
    · rfl

/-- What the two transactions leave verifies, and the two readings of its first record agree. -/
theorem audit_chain_twoTransactions :
    verifyAuditChain (orderById auditWorld.auditLog) = [] ∧
    List.Forall₂ Agree [storedRow] [writtenRow] := by
  have hverifies : ∀ {entry : AuditLog}, Fits zeroHash entry → verifyAuditChain [entry] = [] :=
    fun h => verifyFrom_cons_eq_nil.mpr ⟨h, rfl⟩
  have hreads : ∀ a ∈ auditRun, readsBack siteJsonb a := by
    intro a ha
    simp only [auditRun, List.mem_cons, List.not_mem_nil, or_false] at ha
    rcases ha with rfl | rfl | rfl | rfl | rfl | rfl | rfl | rfl | rfl | rfl | rfl <;> first
      | exact trivial
      | exact readsBack_siteCreated
      | rfl
  exact ⟨(audit_chain siteJsonb).1 hreads (Option.some_get _).symm,
    ((audit_chain siteJsonb).2 injectiveOn_rows (hverifies (newRow_fits readsBack_siteCreated))
      (hverifies (newRow_fits rfl)) rfl rfl).2⟩

end MegaPanel.Audit
