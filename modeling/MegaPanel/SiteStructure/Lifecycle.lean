import MegaPanel.SiteStructure.Model

set_option autoImplicit false

/-! # The lifecycle of a structure revision

What the lock of the edit and the trigger guarantee, in every run (`Sound`): the hash is that of
the pages, and once the revision has left `draft` its pages stay as they are. A submission waits
for an edit on its way, and an edit that comes later finds the revision under review.

The rest depends on the requests that read without a lock. A submission freezes the hash it has
read, though the edit it waits for may write another one; an approval or a second submission that
was read before a rejection overwrites it; and a materialization does not see that another one has
been committed since it has read the revision. `structure_revision_lifecycle` has the condition: at
the commit the row still is, in the columns that count, what the request has read.
-/

namespace MegaPanel.SiteStructure

open MegaPanel.Lib

variable {id : RevisionId}

/-! ## The history and the condition -/

/-- What has been committed: the pages with which the revision has left `draft`, whether it has
been rejected, and the plans of each materialization. -/
structure History where
  left : Option (List Page)
  rejected : Bool
  sets : List (List (PlanId × PagePlan))

def History.empty : History := ⟨none, false, []⟩

/-- The plans that a step inserts. -/
def created (w t : World) : List (PlanId × PagePlan) :=
  t.plans.rows.filter (fun r => (w.plans.get r.1).isNone)

def Work.isMaterialize : Work → Bool
  | .materialize _ _ => true
  | _ => false

/-- The step commits a materialization. -/
def isMaterialization (w : World) : Action → Bool
  | .commit rid _ _ => (w.pending.get rid).any (·.work.isMaterialize)
  | _ => false

def History.add (g : History) (w t : World) (a : Action) : History where
  left := if t.row.state = .draft then none else g.left.or (some t.row.pages)
  rejected := g.rejected || decide (t.row.state = .rejected)
  sets := if isMaterialization w a = true then g.sets ++ [created w t] else g.sets

def note (id : RevisionId) (w : World) (a : Action) (g : History) : History :=
  match step id w a with
  | some t => g.add w t a
  | none => g

/-- A request commits on a row that it would still decide on as it has. -/
def undisturbed (w : World) : Action → Bool
  | .commit rid _ _ => (w.pending.get rid).all (fun p =>
    match p.work with
    | .submit _ => decide (w.row.state ≠ .rejected)
        && decide (w.row.structureHash = p.loaded.structureHash)
    | .approve _ => decide (w.row.state ≠ .rejected)
    | .materialize _ _ => decide (w.row.materializedPagePlanIds = [])
    | _ => true)
  | _ => true

/-- The plans are those of the pages, one for each. -/
def PlansOf (id : RevisionId) (revision : Revision) : List Page → List PagePlan → Prop :=
  List.Forall₂ (fun page plan => ∃ existing, plan = pagePlanFromStructure id revision page existing)

/-! ## Requests on their way -/

/-- What is known of a request between its read and its commit. -/
inductive InFlight (id : RevisionId) (w : World) (rid : RequestId) : Pending → Prop
  | update (collection : CollectionId) (evidence : List EvidenceId) (pages : List Page)
      (hpages : pages ≠ []) (hdraft : w.row.state = .draft) (hlock : w.lock = some rid) :
      InFlight id w rid ⟨w.row, .update { w.row with
        semanticCollectionId := collection, evidenceIds := evidence, pages := pages,
        structureHash := structureHash pages }⟩
  | submit (loaded : Revision) (ctx : SubmitContext) (version : Nat) (now : Time)
      (hdraft : loaded.state = .draft)
      (hsource : Json.get? loaded.sourceSnapshot "structure_hash" = none) :
      InFlight id w rid ⟨loaded, .submit { loaded with
        sourceSnapshot := Json.merge (submissionEntries loaded ctx version) loaded.sourceSnapshot
        sourceSnapshotHash := some (hashJson (.dict
          (Json.merge (submissionEntries loaded ctx version) loaded.sourceSnapshot)))
        state := .review, submittedAt := some now }⟩
  | approve (loaded : Revision) (user : UserId) (reason : Option String) (now : Time)
      (hreview : loaded.state = .review) (hleft : w.row.state ≠ .draft) :
      InFlight id w rid ⟨loaded, .approve { loaded with
        state := .approved, reviewedAt := some now, reviewedBy := some user
        decisionReason := reason }⟩
  | reject (loaded : Revision) (user : UserId) (reason : Option String) (now : Time)
      (hreview : loaded.state = .review) (hleft : w.row.state ≠ .draft) :
      InFlight id w rid ⟨loaded, .reject { loaded with
        state := .rejected, reviewedAt := some now, reviewedBy := some user
        decisionReason := reason }⟩
  | materialize (loaded : Revision) (done todo : List Page) (plans : List PagePlan)
      (happroved : w.row.state = .approved) (hpages : w.row.pages = done ++ todo)
      (hversion : loaded.version = w.row.version)
      (hnone : loaded.materializedPagePlanIds = []) (hplans : PlansOf id loaded done plans) :
      InFlight id w rid ⟨loaded, .materialize todo plans⟩

/-- The pages of a revision and what belongs to them. -/
structure SamePages (row row' : Revision) : Prop where
  pages : row'.pages = row.pages
  structureHash : row'.structureHash = row.structureHash
  version : row'.version = row.version

/-- What a commit does to the row. -/
inductive RowMove (id : RevisionId) (w : World) (ids : List PlanId) : Pending → Revision → Prop
  | update (loaded current row : Revision) (hdraft : w.row.state = .draft)
      (hstate : row.state = .draft) (hpages : row.pages ≠ [])
      (hhash : row.structureHash = structureHash row.pages)
      (hsource : row.sourceSnapshot = w.row.sourceSnapshot)
      (hplans : row.materializedPagePlanIds = w.row.materializedPagePlanIds) :
      RowMove id w ids ⟨loaded, .update current⟩ row
  | submit (loaded current row : Revision) (hstate : row.state = .review)
      (hsame : SamePages w.row row)
      (hsource : Json.get? row.sourceSnapshot "structure_hash"
        = some (.str loaded.structureHash))
      (hplans : row.materializedPagePlanIds = w.row.materializedPagePlanIds) :
      RowMove id w ids ⟨loaded, .submit current⟩ row
  | approve (loaded current row : Revision) (hleft : w.row.state ≠ .draft)
      (hstate : row.state = .approved) (hsame : SamePages w.row row)
      (hsource : row.sourceSnapshot = w.row.sourceSnapshot)
      (hplans : row.materializedPagePlanIds = w.row.materializedPagePlanIds) :
      RowMove id w ids ⟨loaded, .approve current⟩ row
  | reject (loaded current row : Revision) (hleft : w.row.state ≠ .draft)
      (hstate : row.state = .rejected) (hsame : SamePages w.row row)
      (hsource : row.sourceSnapshot = w.row.sourceSnapshot)
      (hplans : row.materializedPagePlanIds = w.row.materializedPagePlanIds) :
      RowMove id w ids ⟨loaded, .reject current⟩ row
  | materialize (loaded row : Revision) (plans : List PagePlan) (hstate : row.state = w.row.state)
      (happroved : w.row.state = .approved) (hsame : SamePages w.row row)
      (hsource : row.sourceSnapshot = w.row.sourceSnapshot) (hids : ids ≠ [])
      (hlength : ids.length = plans.length) (hplans : PlansOf id w.row w.row.pages plans)
      (hwritten : row.materializedPagePlanIds = ids) :
      RowMove id w ids ⟨loaded, .materialize [] plans⟩ row

/-! ## What a commit does to the row -/

variable {plans : List PagePlan}

theorem get?_submission {loaded : Revision} {ctx : SubmitContext} {version : Nat}
    (h : Json.get? loaded.sourceSnapshot "structure_hash" = none) :
    Json.get? (Json.merge (submissionEntries loaded ctx version) loaded.sourceSnapshot)
      "structure_hash" = some (.str loaded.structureHash) := by
  rw [Json.get?_merge_of_none h]
  simp [submissionEntries, Json.get?]

theorem PlansOf.congr {revision revision' : Revision} {pages : List Page}
    (h : PlansOf id revision pages plans) (hversion : revision.version = revision'.version) :
    PlansOf id revision' pages plans := by
  refine List.Forall₂.imp (fun page plan hplan => ?_) h
  obtain ⟨existing, rfl⟩ := hplan
  refine ⟨existing, ?_⟩
  simp only [pagePlanFromStructure, hversion]

theorem rowMove_of_inFlight {w : World} {rid : RequestId} {p : Pending} {ids : List PlanId}
    {now : Time} (hpages : w.row.pages ≠ []) (hp : InFlight id w rid p)
    (hinsert : w.canInsert p ids = true) :
    RowMove id w ids p (Revision.flush p.loaded (p.written ids now) w.row) := by
  cases hp with
  | update collection evidence pages hne hdraft hlock =>
    refine .update _ _ _ hdraft ?_ ?_ ?_ ?_ ?_ <;>
      simp only [Revision.flush, Pending.written, writeCol_clean, writeCol_stored]
    · exact hdraft
    · exact hne
  | submit loaded ctx version now' hdraft hsource =>
    have hchanged : Json.merge (submissionEntries loaded ctx version) loaded.sourceSnapshot
        ≠ loaded.sourceSnapshot := fun heq => by
      have hget := @get?_submission loaded ctx version hsource
      rw [heq, hsource] at hget
      cases hget
    refine .submit _ _ _ ?_ ⟨?_, ?_, rfl⟩ ?_ ?_ <;>
      simp only [Revision.flush, Pending.written, writeCol_clean]
    · exact writeCol_dirty (by rw [hdraft]; decide) _
    · rw [writeCol_dirty hchanged]
      exact get?_submission hsource
  | approve loaded user reason now' hreview hleft =>
    refine .approve _ _ _ hleft ?_ ⟨?_, ?_, rfl⟩ ?_ ?_ <;>
      simp only [Revision.flush, Pending.written, writeCol_clean]
    exact writeCol_dirty (by rw [hreview]; decide) _
  | reject loaded user reason now' hreview hleft =>
    refine .reject _ _ _ hleft ?_ ⟨?_, ?_, rfl⟩ ?_ ?_ <;>
      simp only [Revision.flush, Pending.written, writeCol_clean]
    exact writeCol_dirty (by rw [hreview]; decide) _
  | materialize loaded done todo plans happroved hread hversion hnone hplans =>
    simp only [World.canInsert, Bool.and_eq_true, decide_eq_true_eq] at hinsert
    obtain ⟨⟨⟨⟨⟨rfl, hlength⟩, _⟩, _⟩, _⟩, _⟩ := hinsert
    rw [List.append_nil] at hread
    have hids : ids ≠ [] := by
      rintro rfl
      have hcount := hplans.length_eq
      rw [← hlength, ← hread, List.length_nil, List.length_eq_zero_iff] at hcount
      exact hpages hcount
    refine .materialize _ _ _ ?_ happroved ⟨?_, ?_, rfl⟩ ?_ hids hlength ?_ ?_
    · simp only [Revision.flush, Pending.written, writeCol_clean]
    · simp only [Revision.flush, Pending.written, writeCol_clean]
    · simp only [Revision.flush, Pending.written, writeCol_clean]
    · simp only [Revision.flush, Pending.written, writeCol_clean]
    · rw [hread]
      exact hplans.congr hversion
    · show writeCol loaded.materializedPagePlanIds ids _ = ids
      rw [hnone]
      exact writeCol_dirty hids _

/-- The trigger keeps what an approved row says. -/
theorem frozen_eq_false {old new : Revision} (h : frozen old new = false)
    (happroved : old.state = .approved) :
    new.state = .approved ∧ SamePages old new ∧ new.sourceSnapshot = old.sourceSnapshot := by
  simp only [frozen, happroved, decide_true, Bool.true_and, Bool.or_eq_false_iff,
    decide_eq_false_iff_not, not_not] at h
  obtain ⟨⟨⟨⟨⟨⟨⟨⟨⟨⟨⟨hversion, hstate⟩, _⟩, _⟩, hpages⟩, hhash⟩, hsource⟩, _⟩, _⟩, _⟩, _⟩, _⟩ := h
  exact ⟨hstate, ⟨hpages, hhash, hversion⟩, hsource⟩

/-! ## What holds in every run -/

variable {w w' t : World} {g : History} {rid : RequestId} {p : Pending} {ids : List PlanId}
  {row : Revision} {a : Action} {now : Time}

structure Sound (id : RevisionId) (w : World) (g : History) : Prop where
  hash : w.row.structureHash = structureHash w.row.pages
  pages : w.row.pages ≠ []
  left : g.left = if w.row.state = .draft then none else some w.row.pages
  source : w.row.state = .draft → Json.get? w.row.sourceSnapshot "structure_hash" = none
  materialized : w.row.state ≠ .approved → w.row.materializedPagePlanIds = [] ∧ g.sets = []
  flight : ∀ rid p, w.pending.get rid = some p → InFlight id w rid p

theorem Sound.created (h : Created w) : Sound id w .empty where
  hash := h.structureHash
  pages := h.pages
  left := by rw [if_pos h.state]; rfl
  source := by
    intro _
    rcases h.sourceSnapshot with hnil | ⟨v, hai⟩
    · rw [hnil]
      rfl
    · rw [hai]
      simp [Json.get?]
  materialized := fun _ => ⟨h.materialized, rfl⟩
  flight := by
    intro rid p hp
    rw [h.pending] at hp
    cases hp

/-- A request that has started. -/
theorem inFlight_of_start {request : Request} {work : Work} (hs : Sound id w g)
    (hvalid : request.isValid = true) (h : request.start w.row = .ok work) (hrow : w'.row = w.row)
    (hlock : request.isUpdate = true → w'.lock = some rid) : InFlight id w' rid ⟨w.row, work⟩ := by
  cases request with
  | update body ctx =>
    simp only [Request.start, updateRevision] at h
    split at h
    · cases h
    · next hdraft =>
      split at h
      · cases h
      cases hbody : validateBody body ctx with
      | error e =>
        rw [hbody] at h
        cases h
      | ok =>
        rw [hbody] at h
        cases h
        simp only [Request.isValid, Bool.and_eq_true, decide_eq_true_eq] at hvalid
        rw [← hrow] at hdraft ⊢
        exact .update _ _ _ hvalid.1 (not_not.mp hdraft) (hlock rfl)
  | submit ctx now =>
    simp only [Request.start, submitRevision] at h
    split at h
    · cases h
    · next hdraft =>
      split at h
      · cases h
      cases hversion : ctx.collectionVersion with
      | none =>
        rw [hversion] at h
        cases h
      | some version =>
        rw [hversion] at h
        cases h
        rw [not_not] at hdraft
        exact .submit _ ctx version now hdraft (hs.source hdraft)
  | approve user reason now =>
    simp only [Request.start, approveRevision] at h
    split at h
    · cases h
    · next hreview =>
      cases h
      rw [not_not] at hreview
      exact .approve _ user (stripReason reason) now hreview (by rw [hrow, hreview]; decide)
  | reject user reason now =>
    simp only [Request.start, rejectRevision] at h
    split at h
    · cases h
    split at h
    · cases h
    · next hreview =>
      cases h
      rw [not_not] at hreview
      exact .reject _ user _ now hreview (by rw [hrow, hreview]; decide)
  | materialize =>
    simp only [Request.start, checkMaterializable] at h
    split at h
    · cases h
    · next happroved =>
      split at h
      · cases h
      · next hnone =>
        cases h
        rw [not_not] at happroved hnone
        exact .materialize _ [] _ [] (by rw [hrow, happroved]) (by rw [hrow]; rfl)
          (by rw [hrow]) hnone .nil

/-- A request on its way stays so while the row is the same, and the lock if the request holds
it. -/
theorem InFlight.same (h : InFlight id w rid p) (hrow : w'.row = w.row)
    (hlock : w.lock = some rid → w'.lock = some rid) : InFlight id w' rid p := by
  cases h with
  | update collection evidence pages hne hdraft hheld =>
    rw [← hrow] at hdraft ⊢
    exact .update collection evidence pages hne hdraft (hlock hheld)
  | submit loaded ctx version now hdraft hsource => exact .submit loaded ctx version now hdraft hsource
  | approve loaded user reason now hreview hleft =>
    exact .approve loaded user reason now hreview (hrow ▸ hleft)
  | reject loaded user reason now hreview hleft =>
    exact .reject loaded user reason now hreview (hrow ▸ hleft)
  | materialize loaded done todo plans happroved hpages hversion hnone hplans =>
    exact .materialize loaded done todo plans (hrow ▸ happroved) (hrow ▸ hpages)
      (hrow ▸ hversion) hnone hplans

/-- A commit that leaves a request on its way: the row does not go back to `draft`, and an
approved one keeps its pages. -/
theorem InFlight.commit {other : RequestId} (h : InFlight id w other p) (hne : other ≠ rid)
    (hlock : w.lock = none ∨ w.lock = some rid)
    (hleft : w.row.state ≠ .draft → w'.row.state ≠ .draft)
    (happroved : w.row.state = .approved → w'.row.state = .approved ∧ SamePages w.row w'.row) :
    InFlight id w' other p := by
  cases h with
  | update collection evidence pages _ _ hheld =>
    rcases hlock with hnone | hsome
    · rw [hnone] at hheld
      cases hheld
    · rw [hsome] at hheld
      exact absurd (Option.some.inj hheld).symm hne
  | submit loaded ctx version now hdraft hsource => exact .submit loaded ctx version now hdraft hsource
  | approve loaded user reason now hreview hold =>
    exact .approve loaded user reason now hreview (hleft hold)
  | reject loaded user reason now hreview hold =>
    exact .reject loaded user reason now hreview (hleft hold)
  | materialize loaded done todo plans hold hpages hversion hnone hplans =>
    obtain ⟨hstate, hsame⟩ := happroved hold
    exact .materialize loaded done todo plans hstate (hsame.pages.trans hpages)
      (hversion.trans hsame.version.symm) hnone hplans

theorem RowMove.left {w : World} {ids : List PlanId} {p : Pending} {row : Revision}
    (h : RowMove id w ids p row) (hold : w.row.state ≠ .draft) : row.state ≠ .draft := by
  cases h with
  | update _ _ _ hdraft => exact absurd hdraft hold
  | submit _ _ _ hstate | approve _ _ _ _ hstate | reject _ _ _ _ hstate =>
    rw [hstate]
    decide
  | materialize _ _ _ hstate => exact hstate ▸ hold

/-- Pages change in a draft only. -/
theorem RowMove.pages (h : RowMove id w ids p row) : SamePages w.row row ∨
      w.row.state = .draft ∧ row.state = .draft ∧ row.pages ≠ []
        ∧ row.structureHash = structureHash row.pages := by
  cases h with
  | update _ _ _ hdraft hstate hpages hhash => exact .inr ⟨hdraft, hstate, hpages, hhash⟩
  | submit _ _ _ _ hsame | approve _ _ _ _ _ hsame | reject _ _ _ _ _ hsame
  | materialize _ _ _ _ _ hsame => exact .inl hsame

/-- A step that does not commit leaves the row. -/
theorem Sound.same (hs : Sound id w g) (hrow : t.row = w.row) (ha : isMaterialization w a = false)
    (hflight : ∀ rid p, t.pending.get rid = some p → InFlight id t rid p) :
    Sound id t (g.add w t a) where
  hash := by rw [hrow]; exact hs.hash
  pages := by rw [hrow]; exact hs.pages
  left := by
    rw [History.add, hrow, hs.left]
    split <;> rfl
  source := by rw [hrow]; exact hs.source
  materialized := by
    rw [History.add, hrow, ha]
    exact hs.materialized
  flight := hflight

/-- What a commit has checked. -/
structure Committed (w : World) (rid : RequestId) (ids : List PlanId) (now : Time) (p : Pending) :
    Prop where
  pending : w.pending.get rid = some p
  lock : w.lock = none ∨ w.lock = some rid
  insert : w.canInsert p ids = true
  frozen : frozen w.row (Revision.flush p.loaded (p.written ids now) w.row) = false

theorem step_commit (h : step id w (.commit rid ids now) = some t) : ∃ p, Committed w rid ids now p
      ∧ t = World.close { w with
          row := Revision.flush p.loaded (p.written ids now) w.row
          plans := w.plans.insertAll (p.inserted ids) } rid := by
  obtain ⟨p, hp, h⟩ := Option.bind_eq_some_iff.mp h
  dsimp only at h
  split at h
  · next hchecked =>
    cases h
    exact ⟨p, ⟨hp, hchecked.1, hchecked.2.1, hchecked.2.2⟩, rfl⟩
  · cases h

theorem Sound.commit (hs : Sound id w g) (hc : Committed w rid ids now p)
    (ht : t = World.close { w with
      row := Revision.flush p.loaded (p.written ids now) w.row
      plans := w.plans.insertAll (p.inserted ids) } rid) :
    Sound id t (g.add w t (.commit rid ids now)) := by
  have hmove := @rowMove_of_inFlight _ _ _ _ _ now hs.pages (hs.flight rid p hc.pending) hc.insert
  have hrow : t.row = Revision.flush p.loaded (p.written ids now) w.row := by rw [ht]; rfl
  rw [← hrow] at hmove
  have hfrozen := fun h => frozen_eq_false (hrow ▸ hc.frozen) h
  constructor
  · rcases hmove.pages with hsame | ⟨_, _, _, hhash⟩
    · rw [hsame.structureHash, hsame.pages, hs.hash]
    · exact hhash
  · rcases hmove.pages with hsame | ⟨_, _, hne, _⟩
    · rw [hsame.pages]
      exact hs.pages
    · exact hne
  · rw [History.add]
    split
    · rfl
    · next hleft =>
      rw [hs.left]
      split
      · rfl
      · next hold =>
        rcases hmove.pages with hsame | ⟨hdraft, _⟩
        · rw [hsame.pages]
          rfl
        · exact absurd hdraft hold
  · intro hdraft
    cases hmove with
    | update _ _ _ hold _ _ _ hsource => exact hsource ▸ hs.source hold
    | submit _ _ _ hstate | approve _ _ _ _ hstate | reject _ _ _ _ hstate =>
      rw [hstate] at hdraft
      cases hdraft
    | materialize _ _ _ hstate happroved =>
      rw [hstate, happroved] at hdraft
      cases hdraft
  · intro hother
    have hold : w.row.state ≠ .approved := fun heq => hother (hfrozen heq).1
    obtain ⟨hnone, hsets⟩ := hs.materialized hold
    have hwork : isMaterialization w (.commit rid ids now) = p.work.isMaterialize := by
      rw [isMaterialization, hc.pending, Option.any_some]
    rw [History.add, hwork]
    cases hmove with
    | update _ _ _ _ _ _ _ _ hplans | submit _ _ _ _ _ _ hplans | approve _ _ _ _ _ _ _ hplans
    | reject _ _ _ _ _ _ _ hplans => exact ⟨hplans.trans hnone, hsets⟩
    | materialize _ _ _ _ happroved => exact absurd happroved hold
  · intro other q hq
    rw [ht] at hq
    obtain ⟨hne, hq⟩ := Table.get_erase_eq_some.mp hq
    exact (hs.flight other q hq).commit hne hc.lock hmove.left
      (fun happroved => ⟨(hfrozen happroved).1, (hfrozen happroved).2.1⟩)

/-- A materialization reads the plans of its next page. -/
theorem InFlight.readPlan {p' : Pending} (h : InFlight id w rid p)
    (hread : w.readPlan id p = some p') : InFlight id w rid p' := by
  cases h with
  | update | submit | approve | reject => cases hread
  | materialize loaded done todo plans happroved hpages hversion hnone hplans =>
    cases todo with
    | nil => cases hread
    | cons page todo =>
      simp only [World.readPlan] at hread
      split at hread
      · cases hread
      cases hread
      refine .materialize loaded (done ++ [page]) todo _ happroved ?_ hversion hnone
        (List.rel_append hplans (.cons ⟨_, rfl⟩ .nil))
      rw [hpages, List.append_assoc]
      rfl

theorem Sound.step (hs : Sound id w g) (h : SiteStructure.step id w a = some t) :
    Sound id t (g.add w t a) := by
  cases a with
  | start rid request =>
    simp only [SiteStructure.step] at h
    split at h
    · next hok =>
      split at h
      · next work hwork =>
        cases h
        refine hs.same rfl rfl (fun other q hq => ?_)
        rcases Table.get_set_eq_some.mp hq with ⟨rfl, rfl⟩ | ⟨_, hold⟩
        · exact inFlight_of_start hs hok.2.1 hwork rfl (fun hup => if_pos hup)
        refine (hs.flight other q hold).same rfl (fun hheld => ?_)
        refine (if_neg (fun hup => ?_)).trans hheld
        rw [hok.2.2 hup] at hheld
        cases hheld
      · cases h
    · cases h
  | readPlan rid =>
    obtain ⟨p, hp, h⟩ := Option.bind_eq_some_iff.mp h
    obtain ⟨p', hread, rfl⟩ := Option.map_eq_some_iff.mp h
    exact hs.same rfl rfl (Table.forall_set
      (fun other q hold => (hs.flight other q hold).same rfl (fun hheld => hheld))
      (((hs.flight _ p hp).readPlan hread).same rfl (fun hheld => hheld)))
  | commit rid ids now =>
    obtain ⟨p, hc, ht⟩ := step_commit h
    exact hs.commit hc ht
  | abort rid =>
    obtain ⟨p, hp, rfl⟩ := Option.map_eq_some_iff.mp h
    refine hs.same rfl rfl (fun other q hq => ?_)
    obtain ⟨hne, hold⟩ := Table.get_erase_eq_some.mp hq
    refine (hs.flight other q hold).same rfl (fun hheld => ?_)
    refine (if_neg (fun hown => ?_)).trans hheld
    rw [hheld] at hown
    exact hne (Option.some.inj hown)
  | plan pid plan =>
    have hother : t.row = w.row ∧ t.pending = w.pending ∧ t.lock = w.lock := by
      cases plan with
      | none =>
        cases h
        exact ⟨rfl, rfl, rfl⟩
      | some plan =>
        simp only [SiteStructure.step] at h
        split at h
        · cases h
          exact ⟨rfl, rfl, rfl⟩
        · cases h
    obtain ⟨hrow, hpending, hlock⟩ := hother
    refine hs.same hrow rfl (fun other q hq => ?_)
    rw [hpending] at hq
    exact (hs.flight other q hq).same hrow (fun hheld => hlock.trans hheld)

/-! ## What the condition adds -/

/-- What holds in the runs that meet the condition. -/
structure Tied (id : RevisionId) (w : World) (g : History) : Prop where
  snapshot : w.row.state ≠ .draft →
    Json.get? w.row.sourceSnapshot "structure_hash" = some (.str w.row.structureHash)
  rejected : g.rejected = true → w.row.state = .rejected
  sets : (g.sets = [] ∧ w.row.materializedPagePlanIds = []) ∨
    ∃ plans, g.sets = [plans] ∧ w.row.materializedPagePlanIds = plans.map (·.1)
      ∧ PlansOf id w.row w.row.pages (plans.map (·.2))

theorem Tied.created (h : Created w) : Tied id w .empty where
  snapshot := fun hleft => absurd h.state hleft
  rejected := nofun
  sets := .inl ⟨rfl, h.materialized⟩

/-- The plans that a materialization inserts. -/
theorem created_eq {todo : List Page} (hwork : p.work = .materialize todo plans)
    (hinsert : w.canInsert p ids = true) (ht : t.plans = w.plans.insertAll (p.inserted ids)) :
    created w t = ids.zip plans := by
  simp only [World.canInsert, hwork, Bool.and_eq_true, decide_eq_true_eq, List.all_eq_true,
    Option.isNone_iff_eq_none] at hinsert
  obtain ⟨⟨⟨⟨⟨_, hlength⟩, hnodup⟩, hnew⟩, _⟩, _⟩ := hinsert
  have hfst : (ids.zip plans).map (·.1) = ids := List.map_fst_zip (le_of_eq hlength)
  have hrows : t.plans.rows = w.plans.rows ++ ids.zip plans := by
    rw [ht, Pending.inserted, hwork]
    exact Table.rows_insertAll (hfst.symm ▸ hnodup) (fun k hk => hnew k (hfst ▸ hk))
  have hold : w.plans.rows.filter (fun r => (w.plans.get r.1).isNone) = [] := by
    refine List.filter_eq_nil_iff.mpr (fun r hr => ?_)
    rw [Table.mem_rows.mp hr]
    exact nofun
  have hall : (ids.zip plans).filter (fun r => (w.plans.get r.1).isNone) = ids.zip plans := by
    refine List.filter_eq_self.mpr (fun r hr => ?_)
    rw [hnew r.1 (hfst ▸ List.mem_map_of_mem hr)]
    rfl
  rw [created, hrows, List.filter_append, hold, hall, List.nil_append]

theorem Tied.same (ht : Tied id w g) (hrow : t.row = w.row) (ha : isMaterialization w a = false) :
    Tied id t (g.add w t a) where
  snapshot := by rw [hrow]; exact ht.snapshot
  rejected := by
    intro h
    rw [hrow]
    rcases Bool.or_eq_true_iff.mp h with hold | hnew
    · exact ht.rejected hold
    · exact hrow ▸ of_decide_eq_true hnew
  sets := by
    rw [hrow, History.add, ha]
    exact ht.sets

/-- The plans of the materialization, when the row keeps its pages and its plans. -/
theorem Tied.sets_same (hg : Tied id w g) (hsame : SamePages w.row row)
    (hplans : row.materializedPagePlanIds = w.row.materializedPagePlanIds) :
    (g.sets = [] ∧ row.materializedPagePlanIds = []) ∨
      ∃ plans, g.sets = [plans] ∧ row.materializedPagePlanIds = plans.map (·.1)
        ∧ PlansOf id row row.pages (plans.map (·.2)) := by
  rcases hg.sets with ⟨hnil, hnone⟩ | ⟨plans, hsets, hids, hof⟩
  · exact .inl ⟨hnil, hplans.trans hnone⟩
  refine .inr ⟨plans, hsets, hplans.trans hids, ?_⟩
  rw [hsame.pages]
  exact hof.congr hsame.version.symm

theorem Tied.commit (hs : Sound id w g) (hg : Tied id w g) (hc : Committed w rid ids now p)
    (ht : t = World.close { w with
      row := Revision.flush p.loaded (p.written ids now) w.row
      plans := w.plans.insertAll (p.inserted ids) } rid)
    (hcond : undisturbed w (.commit rid ids now) = true) :
    Tied id t (g.add w t (.commit rid ids now)) := by
  have hmove := @rowMove_of_inFlight _ _ _ _ _ now hs.pages (hs.flight rid p hc.pending) hc.insert
  have hrow : t.row = Revision.flush p.loaded (p.written ids now) w.row := by rw [ht]; rfl
  have hfrozen := fun h => frozen_eq_false hc.frozen h
  have hplans : t.plans = w.plans.insertAll (p.inserted ids) := by rw [ht]; rfl
  rw [← hrow] at hmove hfrozen
  have hwork : isMaterialization w (.commit rid ids now) = p.work.isMaterialize := by
    rw [isMaterialization, hc.pending, Option.any_some]
  rw [undisturbed, hc.pending, Option.all_some] at hcond
  have hrejected : (g.add w t (.commit rid ids now)).rejected = true →
      (w.row.state = .rejected → t.row.state = .rejected) → t.row.state = .rejected := by
    intro h hstays
    rcases Bool.or_eq_true_iff.mp h with hold | hnew
    · exact hstays (hg.rejected hold)
    · exact of_decide_eq_true hnew
  cases hmove with
  | update _ _ _ hdraft hstate _ _ _ hmaterialized =>
    obtain ⟨hnone, hsets⟩ := hs.materialized (by rw [hdraft]; exact nofun)
    refine ⟨fun hleft => absurd hstate hleft, fun h => hrejected h (fun hold => ?_), .inl ?_⟩
    · rw [hdraft] at hold
      cases hold
    · rw [History.add, hwork]
      exact ⟨hsets, hmaterialized.trans hnone⟩
  | submit loaded _ _ hstate hsame hsource hmaterialized =>
    simp only [Bool.and_eq_true, decide_eq_true_eq] at hcond
    refine ⟨fun _ => ?_, fun h => hrejected h (fun hold => absurd hold hcond.1), ?_⟩
    · rw [hsource, hsame.structureHash, hcond.2]
    · rw [History.add, hwork]
      exact hg.sets_same hsame hmaterialized
  | approve loaded _ _ hleft hstate hsame hsource hmaterialized =>
    simp only [decide_eq_true_eq] at hcond
    refine ⟨fun _ => ?_, fun h => hrejected h (fun hold => absurd hold hcond), ?_⟩
    · rw [hsource, hsame.structureHash]
      exact hg.snapshot hleft
    · rw [History.add, hwork]
      exact hg.sets_same hsame hmaterialized
  | reject loaded _ _ hleft hstate hsame hsource hmaterialized =>
    refine ⟨fun _ => ?_, fun h => hrejected h (fun _ => hstate), ?_⟩
    · rw [hsource, hsame.structureHash]
      exact hg.snapshot hleft
    · rw [History.add, hwork]
      exact hg.sets_same hsame hmaterialized
  | materialize loaded _ plans hstate happroved hsame hsource hids hlength hof hwritten =>
    simp only [decide_eq_true_eq] at hcond
    refine ⟨fun hleft => ?_, fun h => hrejected h (fun hold => ?_), .inr ?_⟩
    · rw [hsource, hsame.structureHash]
      exact hg.snapshot (hstate ▸ hleft)
    · rw [happroved] at hold
      cases hold
    · have hcreated : SiteStructure.created w t = ids.zip plans := created_eq rfl hc.insert hplans
      have hnil : g.sets = [] := by
        rcases hg.sets with ⟨hnil, _⟩ | ⟨old, _, hold, hoof⟩
        · exact hnil
        rw [hcond] at hold
        rw [List.map_eq_nil_iff.mp hold.symm] at hoof
        have hcount := hoof.length_eq
        exact absurd (List.length_eq_zero_iff.mp hcount) hs.pages
      refine ⟨ids.zip plans, ?_, ?_, ?_⟩
      · rw [History.add, hwork, hnil, hcreated]
        rfl
      · rw [hwritten, List.map_fst_zip (le_of_eq hlength)]
      · rw [List.map_snd_zip (le_of_eq hlength.symm), hsame.pages]
        exact hof.congr hsame.version.symm

theorem Tied.step (hs : Sound id w g) (hg : Tied id w g) (hcond : undisturbed w a = true)
    (h : SiteStructure.step id w a = some t) : Tied id t (g.add w t a) := by
  cases a with
  | commit rid ids now =>
    obtain ⟨p, hc, ht⟩ := step_commit h
    exact hg.commit hs hc ht hcond
  | start rid request =>
    simp only [SiteStructure.step] at h
    split at h
    · split at h
      · cases h
        exact hg.same rfl rfl
      · cases h
    · cases h
  | readPlan rid =>
    obtain ⟨p, _, h⟩ := Option.bind_eq_some_iff.mp h
    obtain ⟨p', _, rfl⟩ := Option.map_eq_some_iff.mp h
    exact hg.same rfl rfl
  | abort rid =>
    obtain ⟨p, _, rfl⟩ := Option.map_eq_some_iff.mp h
    exact hg.same rfl rfl
  | plan pid plan =>
    cases plan with
    | none =>
      cases h
      exact hg.same rfl rfl
    | some plan =>
      simp only [SiteStructure.step] at h
      split at h
      · cases h
        exact hg.same rfl rfl
      · cases h

/-! ## Runs -/

/-- **The lifecycle of a structure revision.** In every run the hash of the revision is that of its
pages, and once it has left `draft` the pages are those with which it left. If every request commits
on a row that it would still decide on as it has, then also the hash is that of the snapshot, a
revision whose rejection was committed stays rejected and has no plans, and at most one set of plans
is made from it, one plan for each page. -/
theorem structure_revision_lifecycle {w₀ w : World} {g : History} {as : List Action}
    (hinit : Created w₀)
    (hrun : exec (withGhost (step id) (note id)) (w₀, .empty) as = some (w, g)) :
    (w.row.state ≠ .draft → g.left = some w.row.pages)
      ∧ w.row.structureHash = structureHash w.row.pages
      ∧ (Along (step id) (fun s a _ => undisturbed s a = true) w₀ as →
        (w.row.state ≠ .draft →
          Json.get? w.row.sourceSnapshot "structure_hash" = some (.str w.row.structureHash))
        ∧ (g.rejected = true → w.row.state = .rejected ∧ g.sets = [])
        ∧ (g.sets = [] ∨ ∃ plans, g.sets = [plans]
          ∧ w.row.materializedPagePlanIds = plans.map (·.1)
          ∧ PlansOf id w.row w.row.pages (plans.map (·.2)))) := by
  have hnote : ∀ {s t : World × History} {a : Action},
      withGhost (step id) (note id) s a = some t →
      step id s.1 a = some t.1 ∧ t.2 = s.2.add s.1 t.1 a := by
    intro s t a hstep
    obtain ⟨hw, hg⟩ := withGhost_eq_some.mp hstep
    rw [note, hw] at hg
    exact ⟨hw, hg⟩
  have hsound : Sound id w g := by
    refine exec_invariant (G := fun _ _ _ => True)
      (I := fun s : World × History => Sound id s.1 s.2) ?_ (Sound.created hinit)
      (along_of_forall (fun _ _ => trivial) _) hrun
    intro s a t hs _ hstep
    obtain ⟨hw, hg⟩ := hnote hstep
    exact hg ▸ hs.step hw
  refine ⟨fun hleft => hsound.left.trans (if_neg hleft), hsound.hash, fun hcond => ?_⟩
  have htied : Tied id w g := by
    refine (exec_invariant (I := fun s : World × History => Sound id s.1 s.2 ∧ Tied id s.1 s.2) ?_
      ⟨Sound.created hinit, Tied.created hinit⟩ ((along_withGhost (note id)).mpr hcond) hrun).2
    intro s a t hs hcond hstep
    obtain ⟨hw, hg⟩ := hnote hstep
    exact ⟨hg ▸ hs.1.step hw, hg ▸ hs.2.step hs.1 hcond hw⟩
  refine ⟨htied.snapshot, fun hrejected => ⟨htied.rejected hrejected, ?_⟩, ?_⟩
  · refine (hsound.materialized ?_).2
    rw [htied.rejected hrejected]
    exact nofun
  · rcases htied.sets with ⟨hnil, _⟩ | hone
    · exact .inl hnil
    · exact .inr hone

/-! ## Two runs -/

theorem frozen_materialize {loaded stored : Revision} {todo : List Page} {plans : List PagePlan}
    (ids : List PlanId) (now : Time) : frozen stored
      (Revision.flush loaded (Pending.written ⟨loaded, .materialize todo plans⟩ ids now) stored)
        = false := by
  simp [frozen, Revision.flush, Pending.written]

attribute [local irreducible] structureHash hashJson

def homePage : Page := ⟨"home", none, "/", "T", "", "", [], "Sell", none, "kit", [], none⟩

def draftRow : Revision :=
  ⟨1, .draft, 3, [], [homePage], structureHash [homePage], [], none, none, none, none, none, none,
    []⟩

def draftWorld : World := ⟨draftRow, none, Table.empty, Table.empty⟩

theorem draftWorld_created : Created draftWorld where
  pages := by decide
  structureHash := by rw [draftWorld, draftRow]
  state := rfl
  sourceSnapshot := .inl rfl
  materialized := rfl
  lock := rfl
  pending := fun _ => rfl

def submitted : List Action :=
  [.start 1 (.submit ⟨"facts", "hash", .dict [], .dict [], [], some 2⟩ 10), .commit 1 [] 0]

/-- An approval and a rejection that were both read under review. -/
def crossed : List Action :=
  submitted ++ [.start 2 (.approve 7 none 20), .start 3 (.reject 7 (some "no") 21),
    .commit 3 [] 0, .commit 2 [] 0]

/-- The approval overwrites the rejection. -/
theorem structure_revision_lifecycle_crossed : Created draftWorld ∧
    ∃ w g, exec (withGhost (step 1) (note 1)) (draftWorld, .empty) crossed = some (w, g)
      ∧ g.rejected = true ∧ w.row.state = .approved := by
  have hrun : (exec (withGhost (step 1) (note 1)) (draftWorld, .empty) crossed).any
      (fun s => decide (s.1.row.state = .approved) && s.2.rejected) = true := by decide +kernel
  refine ⟨draftWorld_created, ?_⟩
  cases hend : exec (withGhost (step 1) (note 1)) (draftWorld, .empty) crossed with
  | none =>
    rw [hend] at hrun
    cases hrun
  | some s =>
    rw [hend, Option.any_some, Bool.and_eq_true, decide_eq_true_eq] at hrun
    exact ⟨s.1, s.2, rfl, hrun.2, hrun.1⟩

/-- The revision is approved and its plans have been read. -/
def approved : List Action :=
  [.start 2 (.approve 7 none 20), .commit 2 [] 0, .start 3 .materialize, .readPlan 3]

theorem step_commit_materialize (hp : w.pending.get rid = some p)
    (hwork : p.work.isMaterialize = true) (hlock : w.lock = none)
    (hinsert : w.canInsert p ids = true) : (step id w (.commit rid ids now)).isSome = true := by
  obtain ⟨loaded, work⟩ := p
  cases work with
  | materialize todo plans =>
    have hfrozen := @frozen_materialize loaded w.row todo plans ids now
    simp only [step, hp, Option.bind_some]
    rw [if_pos ⟨.inl hlock, hinsert, hfrozen⟩]
    rfl
  | update | submit | approve | reject => cases hwork

def startSubmit : Action := .start 1 (.submit ⟨"facts", "hash", .dict [], .dict [], [], some 2⟩ 10)

def submittingWorld : World := (step 1 draftWorld startSubmit).get (by decide +kernel)

def reviewWorld : World := (step 1 submittingWorld (.commit 1 [] 0)).get (by decide +kernel)

def readyWorld : World := (exec (step 1) reviewWorld approved).get (by decide +kernel)

theorem submittingWorld_pending : ∃ current,
    submittingWorld.pending.get 1 = some ⟨draftRow, .submit current⟩
      ∧ submittingWorld.row = draftRow :=
  ⟨_, rfl, rfl⟩

theorem undisturbed_submit : undisturbed submittingWorld (.commit 1 [] 0) = true := by
  obtain ⟨current, hpending, hrow⟩ := submittingWorld_pending
  rw [undisturbed, hpending, Option.all_some, hrow]
  simp only [decide_true, Bool.and_true]
  decide

/-- A revision that is submitted, approved and materialized, one request after the other. -/
theorem structure_revision_lifecycle_materialized :
    ∃ w g, exec (withGhost (step 1) (note 1)) (draftWorld, .empty)
        (submitted ++ (approved ++ [.commit 3 [9] 30])) = some (w, g)
      ∧ (g.sets = [] ∨ ∃ plans, g.sets = [plans]
        ∧ w.row.materializedPagePlanIds = plans.map (·.1)
        ∧ PlansOf 1 w.row w.row.pages (plans.map (·.2))) := by
  have hstart : step 1 draftWorld startSubmit = some submittingWorld := (Option.some_get _).symm
  have hcommit : step 1 submittingWorld (.commit 1 [] 0) = some reviewWorld :=
    (Option.some_get _).symm
  have hready : exec (step 1) reviewWorld approved = some readyWorld := (Option.some_get _).symm
  have hsubmitted : exec (step 1) draftWorld submitted = some reviewWorld := by
    rw [submitted, exec_cons]
    show (step 1 draftWorld startSubmit).bind _ = _
    rw [hstart, Option.bind_some, exec_cons, hcommit]
    rfl
  have hlast : (step 1 readyWorld (.commit 3 [9] 30)).isSome = true := by
    have hpending : (readyWorld.pending.get 3).any
        (fun p => p.work.isMaterialize && readyWorld.canInsert p [9]) = true := by decide +kernel
    rw [Option.any_eq_true] at hpending
    obtain ⟨p, hp, hok⟩ := hpending
    rw [Bool.and_eq_true] at hok
    exact step_commit_materialize hp hok.1 (by decide +kernel) hok.2
  obtain ⟨w, hw⟩ := Option.isSome_iff_exists.mp hlast
  have hrun : exec (step 1) draftWorld (submitted ++ (approved ++ [.commit 3 [9] 30])) = some w := by
    rw [exec_append, hsubmitted, Option.bind_some, exec_append, hready, Option.bind_some, exec_cons,
      hw]
    rfl
  have hundisturbed : Along (step 1) (fun s a _ => undisturbed s a = true) draftWorld
      (submitted ++ (approved ++ [.commit 3 [9] 30])) := by
    refine (along_append hsubmitted).mpr ⟨?_, (along_append hready).mpr ⟨by decide +kernel, ?_⟩⟩
    · rw [submitted, along_cons]
      intro t ht
      cases hstart.symm.trans ht
      exact ⟨rfl, along_cons.mpr (fun t _ => ⟨undisturbed_submit, along_nil _ _ _⟩)⟩
    · exact along_cons.mpr (fun t _ => ⟨by decide +kernel, along_nil _ _ _⟩)
  obtain ⟨g, hg⟩ := exec_withGhost hrun (note 1) .empty
  exact ⟨w, g, hg, ((structure_revision_lifecycle draftWorld_created hg).2.2 hundisturbed).2.2⟩

end MegaPanel.SiteStructure
