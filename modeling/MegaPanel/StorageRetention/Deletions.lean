import MegaPanel.StorageRetention.Runs

set_option autoImplicit false

/-! # What the runs delete

A ledger of what the transactions of the runs select, of the sources they find empty, and of the
rows that vanish from the tables, kept from outside by comparing the data before and after each
step. `Accounted` relates it to the rows of the runs: nothing is ever deleted for a run that does
not succeed, and a run that succeeds has deleted what its selectors found, until they found
nothing more. The advisory lock is what it rests on; deaths of sweeps do not matter.
-/

namespace MegaPanel.StorageRetention

open MegaPanel.Lib

/-! ## The ledger -/

variable {id : RowId} {now : Time} {d : Deletion}

/-- A row found by a selector of a run, and with which cutoffs. -/
structure Selection where
  runId : RunId
  id : RowId
  row : Row
  source : Source
  policy : Policy
  now : Time

structure Ledger where
  selected : List Selection
  /-- The sources of runs in which a statement found no row. -/
  drained : List (RunId × Source)
  /-- The rows that vanished, with the run that was executed then. -/
  deleted : List (Option RunId × RowId)
  /-- The rows that vanished by something else in the panel. -/
  lost : List RowId

def Ledger.empty : Ledger := ⟨[], [], [], []⟩

/-- The rows that a step deletes. -/
def vanished (w t : World) : List RowId :=
  w.data.keys.filter (fun id => (t.data.get id).isNone)

/-- The run that the sweep of a step is executing. -/
def author (w : World) : Action → Option RunId
  | .execute sid _ => ((w.sweeps.get sid).bind (·.executing)).map (·.runId)
  | _ => none

/-- What a step selects. -/
def selection (w : World) : Action → List Selection
  | .execute sid (.select ids) =>
    match w.sweeps.get sid with
    | some ⟨now, _, some ⟨runId, _, .deleting ⟨policy, source :: _, _, _⟩⟩⟩ =>
      ids.filterMap (fun id =>
        (w.data.get id).map (fun row => ⟨runId, id, row, source, policy, now⟩))
    | _ => []
  | _ => []

/-- The source in which a statement finds no row. -/
def drains (w : World) : Action → List (RunId × Source)
  | .execute sid (.select _) =>
    match w.sweeps.get sid with
    | some ⟨now, _, some ⟨runId, tenantId, .deleting ⟨policy, source :: rest, batch, removed⟩⟩⟩ =>
      if w.matching source now tenantId ⟨policy, source :: rest, batch, removed⟩ = [] then
        [(runId, source)]
      else []
    | _ => []
  | _ => []

def Action.isChange : Action → Bool
  | .change .. => true
  | _ => false

def Ledger.add (g : Ledger) (w t : World) (a : Action) : Ledger where
  selected := g.selected ++ selection w a
  drained := g.drained ++ drains w a
  deleted := g.deleted ++ if a.isChange then [] else (vanished w t).map (fun id => (author w a, id))
  lost := g.lost ++ if a.isChange then vanished w t else []

/-- The history variable. -/
def note (hash : Policy → String) (w : World) (a : Action) (g : Ledger) : Ledger :=
  match step hash w a with
  | some t => g.add w t a
  | none => g

theorem mem_vanished {w t : World} :
    id ∈ vanished w t ↔ (w.data.get id).isSome ∧ t.data.get id = none := by
  rw [vanished, List.mem_filter, w.data.mem_keys, Option.isNone_iff_eq_none]

theorem mem_matching {w : World} {source : Source} {tenantId : TenantId} :
    id ∈ w.matching source now tenantId d ↔
      ∃ row, w.data.get id = some row ∧ source.selects d.policy now tenantId row = true
        ∧ id ∉ d.ids := by
  simp only [World.matching, List.mem_map, List.mem_filter, Prod.exists, Table.mem_rows,
    Bool.and_eq_true, Bool.not_eq_true', decide_eq_false_iff_not]
  constructor
  · rintro ⟨_, row, ⟨hget, hrow⟩, rfl⟩
    exact ⟨row, hget, hrow⟩
  · rintro ⟨row, hget, hrow⟩
    exact ⟨id, row, ⟨hget, hrow⟩, rfl⟩

/-! ## The invariant -/

/-- What the ledger says of a run whose data is being deleted. -/
structure InProgress (w : World) (g : Ledger) (e : Execution) (d : Deletion) : Prop where
  taken : ∀ x ∈ g.selected, x.runId = e.runId → x.id ∈ d.batch ∨ x.id ∈ d.ids
  selected : ∀ id, id ∈ d.batch ∨ id ∈ d.ids → ∃ x ∈ g.selected, x.runId = e.runId ∧ x.id = id
  present : ∀ id, id ∈ d.batch ∨ id ∈ d.ids → (w.data.get id).isSome ∨ id ∈ g.lost
  drained : ∀ source, source ∈ d.sources ∨ (e.runId, source) ∈ g.drained

/-- What the ledger says of the runs. -/
structure Accounted (w : World) (g : Ledger) : Prop where
  selected : ∀ x ∈ g.selected, ∃ run, w.runs.get x.runId = some run
    ∧ run.status.hasLeft = true ∧ run.startedAt = some x.now
    ∧ x.source.selects x.policy x.now run.tenantId x.row = true
  deleted : ∀ x ∈ g.deleted, ∃ id run, x.1 = some id ∧ w.runs.get id = some run
    ∧ run.status = .succeeded ∧ ∃ y ∈ g.selected, y.runId = id ∧ y.id = x.2
  succeeded : ∀ id run, w.runs.get id = some run → run.status = .succeeded →
    (∀ x ∈ g.selected, x.runId = id → (some id, x.id) ∈ g.deleted ∨ x.id ∈ g.lost)
    ∧ ∀ source, (id, source) ∈ g.drained
  claimed : ∀ sid now e, Executes w.sweeps sid now e → e.phase = .claimed →
    ∀ x ∈ g.selected, x.runId ≠ e.runId
  deleting : ∀ sid now e d, Executes w.sweeps sid now e → e.phase = .deleting d →
    InProgress w g e d

theorem Accounted.empty (policy : Policy) : Accounted (World.empty policy) .empty where
  selected := nofun
  deleted := nofun
  succeeded := by intro id run h; cases h
  claimed := by rintro sid now e ⟨_, h⟩; cases h
  deleting := by rintro sid now e d ⟨_, h⟩; cases h

/-! ## What a step adds to the ledger -/

variable {x : Selection}

/-- A selection is made by the sweep whose step it is, among the rows that match. -/
theorem mem_selection {w t : World} {a : Action} (h : Move w a t) (hx : x ∈ selection w a) :
    ∃ sid now e d ids, a = .execute sid (.select ids) ∧ Executes w.sweeps sid now e
      ∧ e.phase = .deleting d ∧ x.runId = e.runId ∧ x.id ∈ ids ∧ x.now = now
      ∧ x.source.selects x.policy x.now e.tenantId x.row = true := by
  unfold selection at hx
  split at hx
  · next sid ids =>
    split at hx
    · next now todo runId tenantId policy source rest batch removed hget =>
      obtain ⟨id, hid, hx⟩ := List.mem_filterMap.mp hx
      obtain ⟨row, hrow, rfl⟩ := Option.map_eq_some_iff.mp hx
      refine ⟨sid, now, _, _, ids, rfl, ⟨todo, hget⟩, rfl, rfl, hid, rfl, ?_⟩
      cases h with
      | phase _ _ _ e op phase hget' hmove =>
        cases hget.symm.trans hget'
        cases hmove with
        | drain => cases hid
        | select _ d _ _ hphase _ hsources _ hfound =>
          cases hphase
          cases hsources
          obtain ⟨row', hrow', hselects, _⟩ := mem_matching.mp (hfound id hid)
          cases hrow.symm.trans hrow'
          exact hselects
      | request _ _ _ _ ha | pass _ _ _ ha => cases ha
    · cases hx
  · cases hx

/-- The data changes in the commit of a run and by what is not part of this component. -/
theorem data_cases {w t : World} {a : Action} (h : Move w a t) (id : RowId) :
    t.data.get id = w.data.get id ∨ (a.isChange = true
        ∧ ∀ sid sweep, w.sweeps.get sid = some sweep → sweep.removes id = false) ∨
      ∃ sid now completedAt e d, a = .execute sid (.finish completedAt)
        ∧ Executes w.sweeps sid now e ∧ e.phase = .deleting d ∧ id ∈ d.ids
        ∧ t.runs.get e.runId
          = (w.runs.get e.runId).map (fun run => run.completed d.counts completedAt) := by
  cases h with
  | configure | request | pass | scheduleCommit | start | skip | policyChanged | claim | phase
  | fail | complete | die => exact .inl rfl
  | change j row data hfree hself hother =>
    by_cases hj : id = j
    · exact .inr (.inl ⟨rfl, hj ▸ hfree⟩)
    · exact .inl (hother id hj)
  | finish sid now completedAt todo e d hget hphase =>
    by_cases hid : id ∈ d.ids
    · exact .inr (.inr ⟨sid, now, completedAt, e, d, rfl, ⟨todo, hget⟩, hphase, hid,
        Table.get_modify_self ..⟩)
    · refine .inl ?_
      show (w.data.deleteWhere _).get id = _
      rw [Table.get_deleteWhere, decide_eq_false hid]
      rfl

/-! ## The step of the invariant -/

section

variable {w t : World} {a : Action} {g : Ledger}

theorem mem_selected :
    x ∈ (g.add w t a).selected ↔ x ∈ g.selected ∨ x ∈ selection w a := List.mem_append

theorem Accounted.selected_step (hs : Sound w) (hg : Accounted w g) (h : Move w a t) :
    ∀ x ∈ (g.add w t a).selected, ∃ run, t.runs.get x.runId = some run
      ∧ run.status.hasLeft = true ∧ run.startedAt = some x.now
      ∧ x.source.selects x.policy x.now run.tenantId x.row = true := by
  intro x hx
  have hold : ∃ run, w.runs.get x.runId = some run ∧ run.status.hasLeft = true
      ∧ run.startedAt = some x.now
      ∧ x.source.selects x.policy x.now run.tenantId x.row = true := by
    rcases mem_selected.mp hx with hx | hx
    · exact hg.selected x hx
    obtain ⟨sid, now, e, d, ids, rfl, he, hphase, hid, _, hnow, hselects⟩ := mem_selection h hx
    obtain ⟨run, hrun, hstatus, htenant, hstarted⟩ := hs.executing sid now e he
    exact ⟨run, hid ▸ hrun, by rw [hstatus]; rfl, hnow ▸ hstarted, htenant ▸ hselects⟩
  obtain ⟨run, hrun, hleft, hstarted, hselects⟩ := hold
  obtain ⟨run', hrun', hkept⟩ := run_kept h hrun
  exact ⟨run', hrun', hkept.hasLeft hleft, (hkept.startedAt hleft).trans hstarted,
    hkept.tenantId ▸ hselects⟩

/-- The row of a run that has succeeded does not change. -/
theorem succeeded_kept (hs : Sound w) (h : Move w a t) {id : RunId} {run : Run}
    (hrun : w.runs.get id = some run) (hstatus : run.status = .succeeded) :
    t.runs.get id = some run := by
  refine run_unchanged h hrun (by rw [hstatus]; rfl) (fun sid now e he hid => ?_)
  obtain ⟨run', hrun', hprocessing, _⟩ := hs.executing sid now e he
  rw [hid, hrun] at hrun'
  cases hrun'
  rw [hstatus] at hprocessing
  cases hprocessing

theorem Accounted.deleted_step (hs : Sound w) (hg : Accounted w g) (h : Move w a t) :
    ∀ x ∈ (g.add w t a).deleted, ∃ id run, x.1 = some id ∧ t.runs.get id = some run
      ∧ run.status = .succeeded ∧ ∃ y ∈ (g.add w t a).selected, y.runId = id ∧ y.id = x.2 := by
  intro x hx
  rcases List.mem_append.mp hx with hx | hx
  · obtain ⟨id, run, hid, hrun, hstatus, y, hy, hyx⟩ := hg.deleted x hx
    exact ⟨id, run, hid, succeeded_kept hs h hrun hstatus, hstatus, y, mem_selected.mpr (.inl hy),
      hyx⟩
  split at hx
  · cases hx
  · next hchange =>
    obtain ⟨id, hid, rfl⟩ := List.mem_map.mp hx
    obtain ⟨hsome, hnone⟩ := mem_vanished.mp hid
    rcases data_cases h id with hsame | ⟨hother, _⟩
      | ⟨sid, now, completedAt, e, d, rfl, he, hphase, hmem, hrun⟩
    · rw [hsame] at hnone
      rw [hnone] at hsome
      cases hsome
    · exact absurd hother hchange
    · obtain ⟨run, hold, _⟩ := hs.executing sid now e he
      obtain ⟨y, hy, hye, hyid⟩ := (hg.deleting sid now e d he hphase).selected id (.inr hmem)
      obtain ⟨todo, hget⟩ := he
      rw [hold] at hrun
      exact ⟨e.runId, _, by rw [author, hget]; rfl, hrun, rfl, y, mem_selected.mpr (.inl hy),
        hye, hyid⟩

theorem Accounted.succeeded_step (hs : Sound w) (hg : Accounted w g) (h : Move w a t) :
    ∀ id run, t.runs.get id = some run → run.status = .succeeded →
      (∀ x ∈ (g.add w t a).selected, x.runId = id →
        (some id, x.id) ∈ (g.add w t a).deleted ∨ x.id ∈ (g.add w t a).lost)
      ∧ ∀ source, (id, source) ∈ (g.add w t a).drained := by
  intro id run hrun hstatus
  rcases run_cases hs h hrun with hold | hmove
  · obtain ⟨htaken, hdrained⟩ := hg.succeeded id run hold hstatus
    refine ⟨fun x hx hid => ?_, fun source => List.mem_append_left _ (hdrained source)⟩
    rcases mem_selected.mp hx with hx | hx
    · exact (htaken x hx hid).imp (List.mem_append_left _) (List.mem_append_left _)
    obtain ⟨sid, now, e, d, ids, rfl, he, _, hxid, _⟩ := mem_selection h hx
    obtain ⟨run', hrun', hprocessing, _⟩ := hs.executing sid now e he
    rw [← hxid, hid, hold] at hrun'
    cases hrun'
    rw [hstatus] at hprocessing
    cases hprocessing
  · cases hmove with
    | waiting _ _ _ hother =>
      rw [hstatus] at hother
      cases hother
    | failed _ _ _ hother | claimed _ _ _ _ _ _ _ hother =>
      rw [hstatus] at hother
      cases hother
    | finished sid now completedAt e d _ he hphase hbatch hsources _ hdata =>
      have hprogress := hg.deleting sid now e d he hphase
      obtain ⟨todo, hget⟩ := he
      have hauthor : author w (.execute sid (.finish completedAt)) = some e.runId := by
        rw [author, hget]
        rfl
      refine ⟨fun x hx hid => ?_, fun source => ?_⟩
      · have hx' : x ∈ g.selected := (mem_selected.mp hx).resolve_right nofun
        have hmem : x.id ∈ d.ids := (hprogress.taken x hx' hid).resolve_left (by
          rw [hbatch]
          exact List.not_mem_nil)
        rcases hprogress.present x.id (.inr hmem) with hsome | hlost
        · refine .inl (List.mem_append_right _ (List.mem_map.mpr ⟨x.id, ?_, ?_⟩))
          · refine mem_vanished.mpr ⟨hsome, ?_⟩
            rw [hdata, Table.get_deleteWhere, decide_eq_true hmem]
            rfl
          · rw [hauthor]
        · exact .inr (List.mem_append_left _ hlost)
      · refine List.mem_append_left _ ((hprogress.drained source).resolve_left ?_)
        rw [hsources]
        exact List.not_mem_nil

theorem Accounted.claimed_step (hs : Sound w) (hg : Accounted w g) (h : Move w a t) :
    ∀ sid now e, Executes t.sweeps sid now e → e.phase = .claimed →
      ∀ x ∈ (g.add w t a).selected, x.runId ≠ e.runId := by
  intro sid now e he hclaimed x hx hid
  cases executes_cases h he with
  | same _ hold ha =>
    rcases mem_selected.mp hx with hx | hx
    · exact hg.claimed sid now e hold hclaimed x hx hid
    obtain ⟨j, now', e', d, ids, rfl, he', _, hxid, _⟩ := mem_selection h hx
    have hj : j = sid := hs.only hold he' (hxid.symm.trans hid)
    exact ha (.select ids) (by rw [hj])
  | phase op phase hold hmove =>
    rw [hclaimed] at hmove
    cases hmove
  | claim run hrun hqueued =>
    have hx' : x ∈ g.selected := (mem_selected.mp hx).resolve_right nofun
    obtain ⟨run', hrun', hleft, _⟩ := hg.selected x hx'
    rw [hid, hrun] at hrun'
    cases hrun'
    rw [hqueued] at hleft
    cases hleft

/-- A row that is present, or has been lost to others, remains so but for the commit of a run. -/
theorem present_step (h : Move w a t)
    (hfinish : ∀ sid now c e d, a = .execute sid (.finish c) → Executes w.sweeps sid now e →
      e.phase = .deleting d → False) (hp : (w.data.get id).isSome ∨ id ∈ g.lost) :
    (t.data.get id).isSome ∨ id ∈ (g.add w t a).lost := by
  rcases hp with hsome | hlost
  · rcases data_cases h id with hsame | ⟨hother, _⟩ | ⟨sid, now, c, e, d, ha, he, hphase, _⟩
    · exact .inl (hsame ▸ hsome)
    · cases hget : t.data.get id with
      | some row => exact .inl rfl
      | none =>
        refine .inr (List.mem_append_right _ ?_)
        rw [if_pos hother]
        exact mem_vanished.mpr ⟨hsome, hget⟩
    · exact (hfinish sid now c e d ha he hphase).elim
  · exact .inr (List.mem_append_left _ hlost)

variable {sid : SweepId} {e : Execution}

/-- The step of a sweep that is deleting: the phase after it and the ledger fit again. -/
theorem inProgress_phase (hg : Accounted w g) {op : Operation} (h : Move w (.execute sid op) t)
    (he : Executes w.sweeps sid now e) (hmove : PhaseMove w now e op (.deleting d)) :
    InProgress t (g.add w t (.execute sid op)) e d := by
  have hfinish : (∀ c, op ≠ .finish c) → ∀ id, (w.data.get id).isSome ∨ id ∈ g.lost →
      (t.data.get id).isSome ∨ id ∈ (g.add w t (.execute sid op)).lost := by
    intro hop id hp
    refine present_step h (fun j now' c e' d' ha _ _ => ?_) hp
    exact hop c (Action.execute.inj ha).2
  have hgrown : ∀ x, x ∈ g.selected → x ∈ (g.add w t (.execute sid op)).selected :=
    fun x hx => mem_selected.mpr (.inl hx)
  obtain ⟨todo, hget⟩ := he
  have he : Executes w.sweeps sid now e := ⟨todo, hget⟩
  cases hmove with
  | lock hphase hfree =>
    refine ⟨fun x hx hid => ?_, fun id hid => ?_, fun id hid => ?_, fun source => .inl ?_⟩
    · have hx' : x ∈ g.selected := (mem_selected.mp hx).resolve_right nofun
      exact absurd hid (hg.claimed sid now e he hphase x hx')
    · rcases hid with hid | hid <;> cases hid
    · rcases hid with hid | hid <;> cases hid
    · exact source.mem_all
  | drain old source rest hphase hbatch hsources hnone =>
    have hold := hg.deleting sid now e old he hphase
    refine ⟨fun x hx hid => ?_, fun id hid => ?_, fun id hid => ?_, fun other => ?_⟩
    · rcases mem_selected.mp hx with hx | hx
      · exact hold.taken x hx hid
      · obtain ⟨_, _, _, _, ids, ha, _, _, _, hmem, _⟩ := mem_selection h hx
        cases ha
        cases hmem
    · obtain ⟨x, hx, hrest⟩ := hold.selected id hid
      exact ⟨x, hgrown x hx, hrest⟩
    · exact hfinish (fun _ => nofun) id (hold.present id hid)
    · have hdrains : (e.runId, source) ∈ drains w (.execute sid (.select [])) := by
        cases e
        cases old
        subst hphase hsources
        simp only [drains, hget]
        rw [if_pos hnone]
        exact List.mem_singleton_self _
      rcases hold.drained other with hmem | hmem
      · rw [hsources] at hmem
        rcases List.mem_cons.mp hmem with rfl | hmem
        · exact .inr (List.mem_append_right _ hdrains)
        · exact .inl hmem
      · exact .inr (List.mem_append_left _ hmem)
  | select ids old source rest hphase hbatch hsources hids hfound =>
    have hold := hg.deleting sid now e old he hphase
    refine ⟨fun x hx hid => ?_, fun id hid => ?_, fun id hid => ?_, fun other => ?_⟩
    · rcases mem_selected.mp hx with hx | hx
      · rcases hold.taken x hx hid with hmem | hmem
        · rw [hbatch] at hmem
          cases hmem
        · exact .inr hmem
      · obtain ⟨_, _, _, _, ids', ha, _, _, _, hmem, _⟩ := mem_selection h hx
        cases ha
        exact .inl hmem
    · rcases hid with hid | hid
      · obtain ⟨row, hrow, _⟩ := mem_matching.mp (hfound id hid)
        refine ⟨⟨e.runId, id, row, source, old.policy, now⟩, mem_selected.mpr (.inr ?_), rfl, rfl⟩
        cases e
        cases old
        subst hphase hsources
        simp only [selection, hget]
        exact List.mem_filterMap.mpr ⟨id, hid, by rw [hrow]; rfl⟩
      · obtain ⟨x, hx, hrest⟩ := hold.selected id (.inr hid)
        exact ⟨x, hgrown x hx, hrest⟩
    · refine hfinish (fun _ => nofun) id ?_
      rcases hid with hid | hid
      · obtain ⟨row, hrow, _⟩ := mem_matching.mp (hfound id hid)
        exact .inl (by rw [hrow]; rfl)
      · exact hold.present id (.inr hid)
    · exact (hold.drained other).imp_right (List.mem_append_left _)
  | delete old source rest hphase hsources =>
    have hold := hg.deleting sid now e old he hphase
    have hids : ∀ id, id ∈ ({ old with
        batch := [], removed := old.removed ++ old.batch.map (fun i => (source, i)) } :
          Deletion).ids ↔ id ∈ old.batch ∨ id ∈ old.ids := by
      intro id
      simp only [Deletion.ids, List.map_append, List.map_map, List.mem_append]
      rw [or_comm]
      simp
    refine ⟨fun x hx hid => ?_, fun id hid => ?_, fun id hid => ?_, fun other => ?_⟩
    · have hx' : x ∈ g.selected := (mem_selected.mp hx).resolve_right nofun
      exact .inr ((hids x.id).mpr (hold.taken x hx' hid))
    · obtain ⟨x, hx, hrest⟩ := hold.selected id ((hids id).mp (hid.resolve_left nofun))
      exact ⟨x, hgrown x hx, hrest⟩
    · exact hfinish (fun _ => nofun) id (hold.present id ((hids id).mp (hid.resolve_left nofun)))
    · exact (hold.drained other).imp_right (List.mem_append_left _)

/-- A step that is not that of the sweep leaves what the ledger says of its run. -/
theorem inProgress_other (hs : Sound w) (h : Move w a t) (he : Executes w.sweeps sid now e)
    (hphase : e.phase = .deleting d) (ha : ∀ op, a ≠ .execute sid op) (hold : InProgress w g e d) :
    InProgress t (g.add w t a) e d where
  taken := by
    intro x hx hid
    rcases mem_selected.mp hx with hx | hx
    · exact hold.taken x hx hid
    obtain ⟨j, _, e', _, ids, rfl, he', _, hxid, _⟩ := mem_selection h hx
    have hj : j = sid := hs.only he he' (hxid.symm.trans hid)
    exact absurd (by rw [hj]) (ha (.select ids))
  selected := by
    intro id hid
    obtain ⟨x, hx, hrest⟩ := hold.selected id hid
    exact ⟨x, mem_selected.mpr (.inl hx), hrest⟩
  present := by
    intro id hid
    refine present_step h (fun j now' c e' d' heq he' hphase' => ?_) (hold.present id hid)
    -- the advisory lock: no other sweep is deleting, so none can commit
    have hj : j = sid := hs.lock j sid now' now e' e d' d he' he hphase' hphase
    exact ha (.finish c) (hj ▸ heq)
  drained := fun source => (hold.drained source).imp_right (List.mem_append_left _)

theorem Accounted.step (hs : Sound w) (hg : Accounted w g) (h : Move w a t) :
    Accounted t (g.add w t a) where
  selected := hg.selected_step hs h
  deleted := hg.deleted_step hs h
  succeeded := hg.succeeded_step hs h
  claimed := hg.claimed_step hs h
  deleting := by
    intro sid now e d he hphase
    cases executes_cases h he with
    | same _ hold ha =>
      exact inProgress_other hs h hold hphase ha (hg.deleting sid now e d hold hphase)
    | phase op phase hold hmove =>
      rw [hphase] at hmove
      have hnew := inProgress_phase hg h hold hmove
      exact ⟨hnew.taken, hnew.selected, hnew.present, hnew.drained⟩
    | claim _ _ _ _ hclaimed =>
      rw [hphase] at hclaimed
      cases hclaimed

end

end MegaPanel.StorageRetention
