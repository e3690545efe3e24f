import MegaPanel.PagePlans.Model

set_option autoImplicit false

/-! # The lineage of a page

The plans of one slug follow each other: a successor has the version after that of the latest plan,
and every edit and every submission counts the version of its plan further. Three routes create
plans. Two of them look at the latest plan of the slug; the commercial pages look for any plan that
has not been rejected, and start at version 1. So they may put an open plan behind rejected ones,
where its next version can be taken, and where the other two routes do not see it. As long as they
do not (`firstOfSlug`), a slug has one open plan, its versions are distinct, and no edit and no
submission collides (`lineage_kept`).
-/

namespace MegaPanel.PagePlans

open MegaPanel.Lib
open MegaPanel.SiteStructure (Page PlanId PlanState Revision RevisionId checkMaterializable)

namespace Lineage

/-! ## The rows of one project -/

/-- `page_plans` and `site_structure_revisions` of a project. -/
structure Db where
  plans : Table PlanId PagePlan
  revisions : Table RevisionId Revision

/-- `ORDER BY version DESC LIMIT 1` among the plans of a slug. -/
def latestPlan (plans : Table PlanId PagePlan) (slug : String) : Option (PlanId × PagePlan) :=
  (plans.rows.filter (fun r => decide (r.2.slug = slug))).argmax (fun r => r.2.version)

/-- `uq_page_plan_project_slug_version`, against the rows of other ids. -/
def isFree (plans : Table PlanId PagePlan) (id : PlanId) (plan : PagePlan) : Bool :=
  plans.rows.all (fun r =>
    decide (r.1 = id) || decide ((r.2.slug, r.2.version) ≠ (plan.slug, plan.version)))

def integrityError : HttpError := ⟨500, "Internal Server Error"⟩

def insertPlan (plans : Table PlanId PagePlan) (id : PlanId) (plan : PagePlan) :
    Except HttpError (Table PlanId PagePlan) :=
  if plans.get id = none ∧ isFree plans id plan = true then .ok (plans.set id plan)
  else .error integrityError

def insertPlans (plans : Table PlanId PagePlan) :
    List (PlanId × PagePlan) → Except HttpError (Table PlanId PagePlan)
  | [] => .ok plans
  | r :: rest =>
    match insertPlan plans r.1 r.2 with
    | .error e => .error e
    | .ok plans => insertPlans plans rest

/-- New plans with the ids that are drawn for them. -/
def withIds (ids : Nat → PlanId) (plans : List PagePlan) : List (PlanId × PagePlan) :=
  plans.zipIdx.map (fun p => (ids p.2, p.1))

/-- What a request has made of the plan that it has read, at its commit. -/
def writePlan (plans : Table PlanId PagePlan) (id : PlanId) (plan : PagePlan) :
    Except HttpError (Table PlanId PagePlan) :=
  if isFree plans id plan = true then .ok (plans.set id plan) else .error integrityError

/-- `_approved_structure_for_new_page_plans` -/
def approvedStructure (db : Db) : Option (RevisionId × Revision) :=
  (db.revisions.rows.filter (fun r => decide (r.2.state = .approved))).argmax (fun r => r.2.version)

/-- The slugs of the plans that are not rejected. -/
def existingSlugs (plans : Table PlanId PagePlan) : List String :=
  (plans.rows.filter (fun r => decide (r.2.state ≠ .rejected))).map (·.2.slug)

/-- The loop of `materialize_structure_revision`; the plans are inserted after it. -/
def structurePlans (projectId : ProjectId) (plans : Table PlanId PagePlan) (id : RevisionId)
    (revision : Revision) : List Page → Except HttpError (List PagePlan)
  | [] => .ok []
  | page :: rest =>
    let existing := latestPlan plans page.slug
    if existing.any (·.2.isOpen) then
      .error ⟨409, "Finish draft PagePlan " ++ page.slug ++ " first"⟩
    else
      (structurePlans projectId plans id revision rest).map
        (pagePlanFromStructure id revision page projectId existing none :: ·)

/-! ## Requests -/

inductive Request
  | create (id : PlanId) (body : PagePlanCreate)
  | commercial (ids : Nat → PlanId) (facts : Option Facts)
  | materialize (ids : Nat → PlanId) (id : RevisionId) (now : Time)
  | update (id : PlanId) (body : PagePlanUpdate)
  | submit (id : PlanId) (ctx : SubmitContext) (now : Time)
  | approve (id : PlanId) (user : UserId) (reason : Option String) (now : Time)
  | reject (id : PlanId) (user : UserId) (reason : Option String) (now : Time)
  /-- A request on the structures writes one of them. -/
  | revise (id : RevisionId) (revision : Revision)

/-- A request on one plan: it is read, changed by `change`, and written. -/
def onPlan (db : Db) (id : PlanId) (change : PagePlan → Except HttpError PagePlan) :
    Except HttpError Db :=
  match db.plans.get id with
  | none => .error ⟨404, "Page plan not found"⟩
  | some plan =>
    match change plan with
    | .error e => .error e
    | .ok plan' => (writePlan db.plans id plan').map (fun plans => { db with plans := plans })

/-- The answer to a request, with what is committed. -/
def serve (lib : Library) (projectId : ProjectId) (db : Db) : Request → Except HttpError Db
  | .create id body =>
    match createPagePlan lib projectId body (latestPlan db.plans body.slug)
        (approvedStructure db) with
    | .error e => .error e
    | .ok plan => (insertPlan db.plans id plan).map (fun plans => { db with plans := plans })
  | .commercial ids facts =>
    match createCommercialPagePlans projectId facts (existingSlugs db.plans)
        (approvedStructure db) with
    | .error e => .error e
    | .ok plans =>
      (insertPlans db.plans (withIds ids plans)).map (fun plans => { db with plans := plans })
  | .materialize ids id now =>
    match db.revisions.get id with
    | none => .error ⟨404, "Site structure revision not found"⟩
    | some revision =>
      match checkMaterializable revision with
      | .error e => .error e
      | .ok () =>
        match structurePlans projectId db.plans id revision revision.pages with
        | .error e => .error e
        | .ok plans =>
          (insertPlans db.plans (withIds ids plans)).map (fun table =>
            { plans := table
              revisions := db.revisions.set id { revision with
                materializedAt := some now
                materializedPagePlanIds := (withIds ids plans).map (·.1) } })
  | .update id body => onPlan db id (fun plan => updatePagePlan plan body)
  | .submit id ctx now => onPlan db id (fun plan => submitPagePlanReview lib plan ctx now)
  | .approve id user reason now => onPlan db id (fun plan => approvePagePlan plan user reason now)
  | .reject id user reason now => onPlan db id (fun plan => rejectPagePlan plan user reason now)
  | .revise id revision => .ok { db with revisions := db.revisions.set id revision }

/-- One request after the other; one that fails leaves the rows as they are. -/
def step (lib : Library) (projectId : ProjectId) (db : Db) (request : Request) : Option Db :=
  match serve lib projectId db request with
  | .ok db' => some db'
  | .error _ => some db

/-- A project without plans. -/
def start (revisions : Table RevisionId Revision) : Db := ⟨Table.empty, revisions⟩

/-! ## What is asked of the committed states -/

/-- A slug has at most one open plan, and its versions are distinct. -/
structure Ordered (db : Db) : Prop where
  openPlans : ∀ i j p q, db.plans.get i = some p → db.plans.get j = some q → p.slug = q.slug →
    p.isOpen = true → q.isOpen = true → i = j
  versions : ∀ i j p q, db.plans.get i = some p → db.plans.get j = some q → p.slug = q.slug →
    p.version = q.version → i = j

/-- An edit or a submission that passes the checks of its route commits. -/
def Commits (lib : Library) (projectId : ProjectId) (db : Db) : Prop :=
  ∀ id plan, db.plans.get id = some plan →
    (∀ body plan', updatePagePlan plan body = .ok plan' →
      ∃ db', serve lib projectId db (.update id body) = .ok db') ∧
    (∀ ctx now plan', submitPagePlanReview lib plan ctx now = .ok plan' →
      ∃ db', serve lib projectId db (.submit id ctx now) = .ok db')

/-! ## When it is met -/

/-- The slug has plans, and all of them are rejected. -/
def onlyRejected (plans : Table PlanId PagePlan) (slug : String) : Bool :=
  plans.rows.any (fun r => decide (r.2.slug = slug)) && decide (slug ∉ existingSlugs plans)

/-- The commercial pages are not made for a slug whose plans are all rejected: there is no such slug
with a fact for it, or there is no approved structure. -/
def firstOfSlug (db : Db) : Request → Bool
  | .commercial _ (some facts) =>
    (approvedStructure db).isNone || commercialRecipes.all (fun recipe =>
      decide (Text.strip (textAt facts.values recipe.2.2) = "")
        || !onlyRejected db.plans recipe.1)
  | _ => true

/-! ## Rows of a slug -/

variable {plans : Table PlanId PagePlan} {slug : String} {i j id : PlanId} {p q plan : PagePlan}

theorem mem_ofSlug :
    (i, p) ∈ plans.rows.filter (fun r => decide (r.2.slug = slug)) ↔
      plans.get i = some p ∧ p.slug = slug := by
  rw [List.mem_filter, Table.mem_rows, decide_eq_true_eq]

theorem latestPlan_eq_none (h : latestPlan plans slug = none) (hp : plans.get i = some p) :
    p.slug ≠ slug := by
  intro hslug
  have hmem := mem_ofSlug.mpr ⟨hp, hslug⟩
  rw [List.argmax_eq_none.mp h] at hmem
  cases hmem

theorem latestPlan_eq_some (h : latestPlan plans slug = some (j, q)) :
    plans.get j = some q ∧ q.slug = slug ∧
      ∀ i p, plans.get i = some p → p.slug = slug → p.version ≤ q.version := by
  obtain ⟨hrow, hslug⟩ := mem_ofSlug.mp (List.argmax_mem h)
  refine ⟨hrow, hslug, ?_⟩
  intro i p hp hi
  exact List.le_of_mem_argmax (f := fun r : PlanId × PagePlan => r.2.version)
    (mem_ofSlug.mpr ⟨hp, hi⟩) h

theorem isFree_iff :
    isFree plans id plan = true ↔ ∀ i p, plans.get i = some p → p.slug = plan.slug →
      p.version = plan.version → i = id := by
  unfold isFree
  rw [List.all_eq_true]
  constructor
  · intro h i p hp hslug hversion
    have hrow := h (i, p) (Table.mem_rows.mpr hp)
    simpa [hslug, hversion] using hrow
  · rintro h ⟨i, p⟩ hmem
    by_cases hi : i = id
    · simp [hi]
    · have hne := fun hslug hversion => hi (h i p (Table.mem_rows.mp hmem) hslug hversion)
      simpa [hi, Prod.mk.injEq, imp_iff_not_or] using hne

theorem mem_existingSlugs :
    slug ∈ existingSlugs plans ↔
      ∃ i p, plans.get i = some p ∧ p.slug = slug ∧ p.state ≠ .rejected := by
  unfold existingSlugs
  simp only [List.mem_map, List.mem_filter, decide_eq_true_eq]
  constructor
  · rintro ⟨⟨i, p⟩, ⟨hmem, hstate⟩, hslug⟩
    exact ⟨i, p, Table.mem_rows.mp hmem, hslug, hstate⟩
  · rintro ⟨i, p, hp, hslug, hstate⟩
    exact ⟨(i, p), ⟨Table.mem_rows.mpr hp, hstate⟩, hslug⟩

theorem onlyRejected_iff :
    onlyRejected plans slug = true ↔ (∃ i p, plans.get i = some p ∧ p.slug = slug) ∧
      ∀ i p, plans.get i = some p → p.slug = slug → p.state = .rejected := by
  unfold onlyRejected
  rw [Bool.and_eq_true_iff, List.any_eq_true, decide_eq_true_eq, mem_existingSlugs]
  refine and_congr ⟨?_, ?_⟩ ⟨?_, ?_⟩
  · rintro ⟨⟨i, p⟩, hmem, hslug⟩
    exact ⟨i, p, Table.mem_rows.mp hmem, of_decide_eq_true hslug⟩
  · rintro ⟨i, p, hp, hslug⟩
    exact ⟨(i, p), Table.mem_rows.mpr hp, decide_eq_true hslug⟩
  · intro h i p hp hslug
    exact not_not.mp (fun hstate => h ⟨i, p, hp, hslug, hstate⟩)
  · rintro h ⟨i, p, hp, hslug, hstate⟩
    exact hstate (h i p hp hslug)

/-! ## The latest plan of a slug -/

variable {db : Db} {p' : PagePlan}

/-- Only the latest plan of a slug can be open. Decisions are about plans that have been submitted,
which has counted their version. -/
structure Sound (plans : Table PlanId PagePlan) : Prop where
  versions : ∀ i j p q, plans.get i = some p → plans.get j = some q → p.slug = q.slug →
    p.version = q.version → i = j
  latest : ∀ i j p q, plans.get i = some p → plans.get j = some q → p.slug = q.slug →
    p.isOpen = true → q.version ≤ p.version
  counted : ∀ i p, plans.get i = some p → 1 ≤ p.version ∧ (p.state ≠ .draft → 2 ≤ p.version)

theorem sound_empty : Sound Table.empty where
  versions := fun _ _ _ _ h => by cases h
  latest := fun _ _ _ _ h => by cases h
  counted := fun _ _ h => by cases h

theorem Sound.ordered (h : Sound db.plans) : Ordered db where
  versions := h.versions
  openPlans := by
    intro i j p q hp hq hslug hpopen hqopen
    have hle := h.latest i j p q hp hq hslug hpopen
    have hge := h.latest j i q p hq hp hslug.symm hqopen
    exact h.versions i j p q hp hq hslug (le_antisymm hge hle)

/-- **An open plan is changed.** Its version is that of no other plan, and stays the greatest. -/
theorem Sound.set (h : Sound plans) (hp : plans.get id = some p) (hopen : p.isOpen = true)
    (hslug : p'.slug = p.slug) (hversion : p.version ≤ p'.version)
    (hcounted : p'.state ≠ .draft → 2 ≤ p'.version) : Sound (plans.set id p') := by
  have hless : ∀ j q, plans.get j = some q → q.slug = p.slug → j ≠ id → q.version < p.version := by
    intro j q hq hqslug hj
    have hle := h.latest id j p q hp hq hqslug.symm hopen
    have hne : q.version ≠ p.version := fun heq => hj (h.versions j id q p hq hp hqslug heq)
    omega
  constructor
  · intro i j a b ha hb hab heq
    rcases Table.get_set_eq_some.mp ha with ⟨rfl, rfl⟩ | ⟨hi, ha'⟩ <;>
      rcases Table.get_set_eq_some.mp hb with ⟨rfl, rfl⟩ | ⟨hj, hb'⟩
    · rfl
    · have hlt := hless j b hb' (hab.symm.trans hslug) hj
      omega
    · have hlt := hless i a ha' (hab.trans hslug) hi
      omega
    · exact h.versions i j a b ha' hb' hab heq
  · intro i j a b ha hb hab haopen
    rcases Table.get_set_eq_some.mp ha with ⟨rfl, rfl⟩ | ⟨hi, ha'⟩ <;>
      rcases Table.get_set_eq_some.mp hb with ⟨rfl, rfl⟩ | ⟨hj, hb'⟩
    · exact le_refl _
    · have hlt := hless j b hb' (hab.symm.trans hslug) hj
      omega
    · -- another open plan of the slug would be a second latest one
      have hlt := hless i a ha' (hab.trans hslug) hi
      have hle := h.latest i j a p ha' hp (hab.trans hslug) haopen
      omega
    · exact h.latest i j a b ha' hb' hab haopen
  · intro i a ha
    rcases Table.get_set_eq_some.mp ha with ⟨rfl, rfl⟩ | ⟨hi, ha'⟩
    · exact ⟨(h.counted _ p hp).1.trans hversion, hcounted⟩
    · exact h.counted i a ha'

/-- The version after that of an open plan is free. -/
theorem Sound.isFree_next (h : Sound plans) (hp : plans.get id = some p) (hopen : p.isOpen = true)
    (hslug : p'.slug = p.slug) (hversion : p'.version = p.version + 1) :
    isFree plans id p' = true := by
  refine isFree_iff.mpr (fun i q hq hqslug hqversion => ?_)
  have hle := h.latest id i p q hp hq (hslug.symm.trans hqslug.symm) hopen
  omega

/-! ## New plans -/

variable {plans' : Table PlanId PagePlan} {rs : List (PlanId × PagePlan)} {ids : Nat → PlanId}
  {new : List PagePlan}

/-- A draft whose version is at least those of its slug; an open plan of the slug has its version,
so that the two cannot both be inserted. -/
def Fits (plans : Table PlanId PagePlan) (q : PagePlan) : Prop :=
  q.state = .draft ∧ 1 ≤ q.version ∧ ∀ i p, plans.get i = some p → p.slug = q.slug →
    p.version ≤ q.version ∧ (p.isOpen = true → p.version = q.version)

theorem insertPlan_eq_ok (h : insertPlan plans id q = .ok plans') :
    plans.get id = none ∧ isFree plans id q = true ∧ plans' = plans.set id q := by
  unfold insertPlan at h
  split_ifs at h with hfree
  cases h
  exact ⟨hfree.1, hfree.2, rfl⟩

theorem Sound.insertPlan (h : Sound plans) (hfits : Fits plans q)
    (hins : Lineage.insertPlan plans id q = .ok plans') : Sound plans' := by
  obtain ⟨hnew, hfree, rfl⟩ := insertPlan_eq_ok hins
  obtain ⟨hstate, hone, hfits⟩ := hfits
  have hless : ∀ i p, plans.get i = some p → p.slug = q.slug →
      p.version < q.version ∧ p.isOpen = false := by
    intro i p hp hslug
    have hne : p.version ≠ q.version := by
      intro heq
      have hid := isFree_iff.mp hfree i p hp hslug heq
      rw [hid, hnew] at hp
      cases hp
    obtain ⟨hle, hopen⟩ := hfits i p hp hslug
    exact ⟨by omega, Bool.eq_false_iff.mpr (fun hp' => hne (hopen hp'))⟩
  constructor
  · intro i j a b ha hb hab heq
    rcases Table.get_set_eq_some.mp ha with ⟨rfl, rfl⟩ | ⟨hi, ha'⟩ <;>
      rcases Table.get_set_eq_some.mp hb with ⟨rfl, rfl⟩ | ⟨hj, hb'⟩
    · rfl
    · have hlt := (hless j b hb' hab.symm).1
      omega
    · have hlt := (hless i a ha' hab).1
      omega
    · exact h.versions i j a b ha' hb' hab heq
  · intro i j a b ha hb hab haopen
    rcases Table.get_set_eq_some.mp ha with ⟨rfl, rfl⟩ | ⟨hi, ha'⟩ <;>
      rcases Table.get_set_eq_some.mp hb with ⟨rfl, rfl⟩ | ⟨hj, hb'⟩
    · exact le_refl _
    · exact (hless j b hb' hab.symm).1.le
    · rw [(hless i a ha' hab).2] at haopen
      cases haopen
    · exact h.latest i j a b ha' hb' hab haopen
  · intro i a ha
    rcases Table.get_set_eq_some.mp ha with ⟨rfl, rfl⟩ | ⟨hi, ha'⟩
    · exact ⟨hone, fun hne => absurd hstate hne⟩
    · exact h.counted i a ha'

/-- Plans of one slug get the same version, so that at most one of them is inserted. -/
theorem Sound.insertPlans
    (hsame : ∀ r ∈ rs, ∀ s ∈ rs, r.2.slug = s.2.slug → r.2.version = s.2.version) (h : Sound plans)
    (hfits : ∀ r ∈ rs, Fits plans r.2) (hins : Lineage.insertPlans plans rs = .ok plans') :
    Sound plans' := by
  induction rs generalizing plans with
  | nil =>
    cases hins
    exact h
  | cons r rest ih =>
    unfold Lineage.insertPlans at hins
    split at hins
    · cases hins
    next next hnext =>
    refine ih (fun a ha b hb => hsame a (List.mem_cons_of_mem _ ha) b (List.mem_cons_of_mem _ hb))
      (h.insertPlan (hfits r (List.mem_cons_self ..)) hnext) ?_ hins
    intro s hs
    obtain ⟨_, _, rfl⟩ := insertPlan_eq_ok hnext
    obtain ⟨hstate, hone, hold⟩ := hfits s (List.mem_cons_of_mem _ hs)
    refine ⟨hstate, hone, fun i p hp hslug => ?_⟩
    rcases Table.get_set_eq_some.mp hp with ⟨_, rfl⟩ | ⟨_, hp'⟩
    · have heq := hsame r (List.mem_cons_self ..) s (List.mem_cons_of_mem _ hs) hslug
      exact ⟨heq.le, fun _ => heq⟩
    · exact hold i p hp' hslug

/-- A draft with the version after the latest plan of its slug, which is not open. -/
def Succeeds (plans : Table PlanId PagePlan) (q : PagePlan) : Prop :=
  q.state = .draft ∧ (latestPlan plans q.slug).any (·.2.isOpen) = false ∧
    q.version = (latestPlan plans q.slug).elim 1 (fun e => e.2.version + 1)

theorem Sound.fits (h : Sound plans) (hq : Succeeds plans q) : Fits plans q := by
  obtain ⟨hstate, hopen, hversion⟩ := hq
  cases hlatest : latestPlan plans q.slug with
  | none =>
    rw [hlatest] at hversion
    refine ⟨hstate, hversion.ge, fun i p hp hslug => ?_⟩
    exact absurd hslug (latestPlan_eq_none hlatest hp)
  | some e =>
    obtain ⟨hrow, hslug, hmax⟩ := latestPlan_eq_some hlatest
    rw [hlatest] at hversion hopen
    have hversion' : q.version = e.2.version + 1 := hversion
    refine ⟨hstate, by omega, fun i p hp hpslug => ?_⟩
    have hle := hmax i p hp hpslug
    refine ⟨by omega, fun hpopen => ?_⟩
    -- an open plan would be the latest one, which is closed
    have hge := h.latest i e.1 p e.2 hp hrow (hpslug.trans hslug.symm) hpopen
    have hid := h.versions i e.1 p e.2 hp hrow (hpslug.trans hslug.symm) (by omega)
    rw [hid, hrow] at hp
    cases hp
    have hclosed : e.2.isOpen = false := hopen
    rw [hclosed] at hpopen
    cases hpopen

theorem mem_withIds {plans : List PagePlan} {r : PlanId × PagePlan} (h : r ∈ withIds ids plans) :
    r.2 ∈ plans := by
  obtain ⟨⟨q, n⟩, hmem, rfl⟩ := List.mem_map.mp h
  exact List.fst_mem_of_mem_zipIdx hmem

/-- New plans, each with a version after those of its slug, keep the order of the slugs. -/
theorem Sound.insertAll (h : Sound plans) (hnew : ∀ q ∈ new, Succeeds plans q)
    (hins : Lineage.insertPlans plans (withIds ids new) = .ok plans') : Sound plans' := by
  refine h.insertPlans (fun r hr s hs hslug => ?_)
    (fun r hr => h.fits (hnew _ (mem_withIds hr))) hins
  rw [(hnew _ (mem_withIds hr)).2.2, (hnew _ (mem_withIds hs)).2.2, hslug]

/-! ## The requests -/

variable {projectId : ProjectId} {facts : Option Facts} {db' : Db}
  {change : PagePlan → Except HttpError PagePlan} {lib : Library} {request : Request}

theorem structurePlans_succeed {id : RevisionId} {revision : Revision} {pages : List Page}
    (h : structurePlans projectId plans id revision pages = .ok new) :
    ∀ q ∈ new, Succeeds plans q := by
  induction pages generalizing new with
  | nil =>
    cases h
    intro q hq
    cases hq
  | cons page rest ih =>
    unfold structurePlans at h
    dsimp only at h
    split_ifs at h with hopen
    cases hrest : structurePlans projectId plans id revision rest with
    | error e =>
      rw [hrest] at h
      cases h
    | ok others =>
      rw [hrest] at h
      cases h
      intro q hq
      rcases List.mem_cons.mp hq with rfl | hq
      · exact ⟨rfl, Bool.eq_false_iff.mpr hopen, rfl⟩
      · exact ih hrest q hq

/-- The commercial pages of slugs without a plan are the first of theirs. -/
theorem commercial_succeed (h : createCommercialPagePlans projectId facts (existingSlugs db.plans)
      (approvedStructure db) = .ok new) (hfirst : firstOfSlug db (.commercial ids facts) = true) :
    ∀ q ∈ new, Succeeds db.plans q := by
  obtain ⟨f, rfl, hnew⟩ := createCommercialPagePlans_eq_ok h
  intro q hq
  obtain ⟨happroved, recipe, hmem, hfree, htext, hslug, hstate, hversion⟩ := hnew q hq
  have hnone : latestPlan db.plans q.slug = none := by
    rw [firstOfSlug, Option.isNone_eq_false_iff.mpr happroved, Bool.false_or,
      List.all_eq_true] at hfirst
    have hrecipe := hfirst recipe hmem
    rw [decide_eq_false htext, Bool.false_or, Bool.not_eq_true'] at hrecipe
    by_contra hsome
    obtain ⟨e, he⟩ := Option.ne_none_iff_exists'.mp hsome
    obtain ⟨hrow, heslug, -⟩ := latestPlan_eq_some he
    refine Bool.eq_false_iff.mp hrecipe (onlyRejected_iff.mpr ⟨⟨e.1, e.2, hrow, ?_⟩, ?_⟩)
    · rw [heslug, hslug]
    · intro i p hp hpslug
      exact not_not.mp (fun hne => hfree (mem_existingSlugs.mpr ⟨i, p, hp, hpslug, hne⟩))
  refine ⟨hstate, ?_, ?_⟩
  · rw [hnone]
    rfl
  · rw [hnone, hversion]
    rfl

theorem onPlan_eq_ok (h : onPlan db id change = .ok db') :
    ∃ plan plan', db.plans.get id = some plan ∧ change plan = .ok plan' ∧
      isFree db.plans id plan' = true ∧ db' = { db with plans := db.plans.set id plan' } := by
  unfold onPlan at h
  split at h
  · cases h
  next plan hplan =>
  split at h
  · cases h
  next plan' hchange =>
  obtain ⟨table, htable, rfl⟩ := map_eq_ok h
  unfold writePlan at htable
  split_ifs at htable with hfree
  cases htable
  exact ⟨plan, plan', hplan, hchange, hfree, rfl⟩

theorem isOpen_of_draft (h : p.state = .draft) : p.isOpen = true := by
  rw [PagePlan.isOpen, h]
  rfl

theorem isOpen_of_review (h : p.state = .review) : p.isOpen = true := by
  rw [PagePlan.isOpen, h]
  rfl

/-- **A request keeps the order of the slugs**, if it makes commercial pages only for slugs without
plans. -/
theorem Sound.serve (h : Sound db.plans) (hfirst : firstOfSlug db request = true)
    (hserve : Lineage.serve lib projectId db request = .ok db') : Sound db'.plans := by
  cases request with
  | create id body =>
    unfold Lineage.serve at hserve
    dsimp only at hserve
    split at hserve
    · cases hserve
    next plan hplan =>
    obtain ⟨table, htable, rfl⟩ := map_eq_ok hserve
    obtain ⟨hopen, hstate, hslug, hversion⟩ := createPagePlan_eq_ok hplan
    exact h.insertPlan (h.fits ⟨hstate, by rw [hslug, hopen], by rw [hslug, hversion]⟩) htable
  | commercial ids facts =>
    unfold Lineage.serve at hserve
    dsimp only at hserve
    split at hserve
    · cases hserve
    next plans hplans =>
    obtain ⟨table, htable, rfl⟩ := map_eq_ok hserve
    exact h.insertAll (commercial_succeed hplans hfirst) htable
  | materialize ids id now =>
    unfold Lineage.serve at hserve
    dsimp only at hserve
    split at hserve
    · cases hserve
    split at hserve
    · cases hserve
    split at hserve
    · cases hserve
    next plans hplans =>
    obtain ⟨table, htable, rfl⟩ := map_eq_ok hserve
    exact h.insertAll (structurePlans_succeed hplans) htable
  | update id body =>
    obtain ⟨plan, plan', hplan, hchange, -, rfl⟩ := onPlan_eq_ok hserve
    obtain ⟨hstate, -, hstate', hversion, hslug, -⟩ := updatePagePlan_eq_ok hchange
    exact h.set hplan (isOpen_of_draft hstate) hslug (by omega) (fun hne => absurd hstate' hne)
  | submit id ctx now =>
    obtain ⟨plan, plan', hplan, hchange, -, rfl⟩ := onPlan_eq_ok hserve
    obtain ⟨hstate, facts, target, -, -, rfl⟩ := submitPagePlanReview_eq_ok hchange
    have hone := (h.counted id plan hplan).1
    exact h.set hplan (isOpen_of_draft hstate) rfl (Nat.le_succ _)
      (fun _ => Nat.succ_le_succ hone)
  | approve id user reason now =>
    obtain ⟨plan, plan', hplan, hchange, -, rfl⟩ := onPlan_eq_ok hserve
    obtain ⟨hstate, rfl⟩ := approvePagePlan_eq_ok hchange
    have htwo := (h.counted id plan hplan).2 (by rw [hstate]; decide)
    exact h.set hplan (isOpen_of_review hstate) rfl (le_refl _) (fun _ => htwo)
  | reject id user reason now =>
    obtain ⟨plan, plan', hplan, hchange, -, rfl⟩ := onPlan_eq_ok hserve
    obtain ⟨hstate, rfl⟩ := rejectPagePlan_eq_ok hchange
    have htwo := (h.counted id plan hplan).2 (by rw [hstate]; decide)
    exact h.set hplan (isOpen_of_review hstate) rfl (le_refl _) (fun _ => htwo)
  | revise id revision =>
    cases hserve
    exact h

theorem Sound.step (h : Sound db.plans) (hfirst : firstOfSlug db request = true)
    (hstep : Lineage.step lib projectId db request = some db') : Sound db'.plans := by
  unfold Lineage.step at hstep
  split at hstep
  · next served hserve =>
    cases hstep
    exact h.serve hfirst hserve
  · cases hstep
    exact h

/-- A plan that is written with a free version is committed. -/
theorem onPlan_of_isFree {plan' : PagePlan} (hplan : db.plans.get id = some plan)
    (hchange : change plan = .ok plan') (hfree : isFree db.plans id plan' = true) :
    onPlan db id change = .ok { db with plans := db.plans.set id plan' } := by
  rw [onPlan, hplan]
  dsimp only
  rw [hchange]
  dsimp only
  rw [writePlan, if_pos hfree]
  rfl

theorem Sound.commits (h : Sound db.plans) : Commits lib projectId db := by
  intro id plan hplan
  constructor
  · intro body plan' hchange
    obtain ⟨hstate, -, -, hversion, hslug, -⟩ := updatePagePlan_eq_ok hchange
    exact ⟨_, onPlan_of_isFree hplan hchange
      (h.isFree_next hplan (isOpen_of_draft hstate) hslug hversion)⟩
  · intro ctx now plan' hchange
    have hfree : isFree db.plans id plan' = true := by
      obtain ⟨hstate, facts, target, -, -, rfl⟩ := submitPagePlanReview_eq_ok hchange
      exact h.isFree_next hplan (isOpen_of_draft hstate) rfl rfl
    exact ⟨_, onPlan_of_isFree hplan hchange hfree⟩

/-! ## Approved plans -/

/-- A row that is there stays when plans are inserted. -/
theorem insertPlans_get (h : insertPlans plans rs = .ok plans') (hp : plans.get id = some p) :
    plans'.get id = some p := by
  induction rs generalizing plans with
  | nil =>
    cases h
    exact hp
  | cons r rest ih =>
    unfold insertPlans at h
    split at h
    · cases h
    next next hnext =>
    obtain ⟨hnew, -, rfl⟩ := insertPlan_eq_ok hnext
    have hne : id ≠ r.1 := by
      intro heq
      rw [heq, hnew] at hp
      cases hp
    exact ih h (by rw [Table.get_set_ne _ hne, hp])

theorem onPlan_get (hopen : ∀ plan plan', change plan = .ok plan' → plan.state ≠ .approved)
    (h : onPlan db id change = .ok db') (hp : db.plans.get j = some p)
    (hstate : p.state = .approved) : db'.plans.get j = some p := by
  obtain ⟨plan, plan', hplan, hchange, -, rfl⟩ := onPlan_eq_ok h
  have hne : j ≠ id := by
    intro heq
    rw [heq, hplan] at hp
    cases hp
    exact hopen _ plan' hchange hstate
  exact (Table.get_set_ne _ hne _).trans hp

/-- **No request changes an approved plan.** -/
theorem serve_approved (h : serve lib projectId db request = .ok db')
    (hp : db.plans.get id = some p) (hstate : p.state = .approved) : db'.plans.get id = some p := by
  cases request with
  | create planId body =>
    unfold serve at h
    dsimp only at h
    split at h
    · cases h
    obtain ⟨table, htable, rfl⟩ := map_eq_ok h
    obtain ⟨hnew, -, rfl⟩ := insertPlan_eq_ok htable
    have hne : id ≠ planId := by
      intro heq
      rw [heq, hnew] at hp
      cases hp
    exact (Table.get_set_ne _ hne _).trans hp
  | commercial ids facts =>
    unfold serve at h
    dsimp only at h
    split at h
    · cases h
    obtain ⟨table, htable, rfl⟩ := map_eq_ok h
    exact insertPlans_get htable hp
  | materialize ids revisionId now =>
    unfold serve at h
    dsimp only at h
    split at h
    · cases h
    split at h
    · cases h
    split at h
    · cases h
    obtain ⟨table, htable, rfl⟩ := map_eq_ok h
    exact insertPlans_get htable hp
  | update planId body =>
    refine onPlan_get (fun plan plan' hchange => ?_) h hp hstate
    rw [(updatePagePlan_eq_ok hchange).1]
    decide
  | submit planId ctx now =>
    refine onPlan_get (fun plan plan' hchange => ?_) h hp hstate
    rw [(submitPagePlanReview_eq_ok hchange).1]
    decide
  | approve planId user reason now =>
    refine onPlan_get (fun plan plan' hchange => ?_) h hp hstate
    rw [(approvePagePlan_eq_ok hchange).1]
    decide
  | reject planId user reason now =>
    refine onPlan_get (fun plan plan' hchange => ?_) h hp hstate
    rw [(rejectPagePlan_eq_ok hchange).1]
    decide
  | revise revisionId revision =>
    cases h
    exact hp

/-! ## A page behind its rejected plans -/

theorem insertPlans_ok (hids : (rs.map (·.1)).Nodup) (hslugs : (rs.map (·.2.slug)).Nodup)
    (hnew : ∀ r ∈ rs, plans.get r.1 = none) (hfree : ∀ r ∈ rs, isFree plans r.1 r.2 = true) :
    insertPlans plans rs = .ok (plans.insertAll rs) := by
  induction rs generalizing plans with
  | nil => rfl
  | cons r rest ih =>
    rw [List.map_cons, List.nodup_cons] at hids hslugs
    have hr : insertPlan plans r.1 r.2 = .ok (plans.set r.1 r.2) :=
      if_pos ⟨hnew r (List.mem_cons_self ..), hfree r (List.mem_cons_self ..)⟩
    rw [insertPlans, hr, Table.insertAll_cons]
    refine ih hids.2 hslugs.2 (fun s hs => ?_) (fun s hs => ?_)
    · have hne : s.1 ≠ r.1 := fun heq => hids.1 (heq ▸ List.mem_map_of_mem hs)
      rw [Table.get_set_ne _ hne]
      exact hnew s (List.mem_cons_of_mem _ hs)
    · refine isFree_iff.mpr (fun i p hp hslug hversion => ?_)
      rcases Table.get_set_eq_some.mp hp with ⟨_, rfl⟩ | ⟨_, hp'⟩
      · exact absurd (hslug ▸ List.mem_map_of_mem hs) hslugs.1
      · exact isFree_iff.mp (hfree s (List.mem_cons_of_mem _ hs)) i p hp' hslug hversion

theorem withIds_nodup (hids : Function.Injective ids) (plans : List PagePlan) :
    ((withIds ids plans).map (·.1)).Nodup := by
  have hmap : (withIds ids plans).map (·.1) = (plans.zipIdx.map (·.2)).map ids := by
    rw [withIds, List.map_map, List.map_map]
    rfl
  rw [hmap, List.zipIdx_map_snd]
  exact List.Nodup.map hids (List.nodup_range')

theorem withIds_map_slug (ids : Nat → PlanId) (plans : List PagePlan) :
    (withIds ids plans).map (·.2.slug) = plans.map (·.slug) := by
  have hmap : (withIds ids plans).map (·.2.slug) = (plans.zipIdx.map (·.1)).map (·.slug) := by
    rw [withIds, List.map_map, List.map_map]
    rfl
  rw [hmap, List.zipIdx_map_fst]

theorem commercialRecipes_nodup : (commercialRecipes.map (·.1)).Nodup := by decide

/-- Where the commercial pages are made for a slug whose plans are all rejected, the slug has an
open plan of version 1 behind them. -/
theorem Sound.recreated (h : Sound db.plans)
    (hfirst : firstOfSlug db (.commercial ids facts) = false) (hids : Function.Injective ids)
    (hnew : ∀ n, db.plans.get (ids n) = none) :
    ∃ plans slug i p, Lineage.serve lib projectId db (.commercial ids facts) =
        .ok { db with plans := plans } ∧
      (approvedStructure db).isSome = true ∧ plans.get i = some p ∧ p.slug = slug ∧
      p.isOpen = true ∧
      (∃ j q, plans.get j = some q ∧ q.slug = slug ∧ q.state = .rejected ∧ 2 ≤ q.version) ∧
      ∀ j q, plans.get j = some q → q.slug = slug → q.state = .rejected ∨ q.version = 1 := by
  cases facts with
  | none => cases hfirst
  | some f =>
    rw [firstOfSlug, Bool.or_eq_false_iff, List.all_eq_false] at hfirst
    obtain ⟨happroved, recipe, hmem, hrecipe⟩ := hfirst
    rw [Bool.or_eq_true, not_or, Bool.not_eq_true', decide_eq_true_eq, Bool.not_eq_false]
      at hrecipe
    obtain ⟨htext, hrejected⟩ := hrecipe
    obtain ⟨⟨j, q, hq, hqslug⟩, hall⟩ := onlyRejected_iff.mp hrejected
    obtain ⟨a, ha⟩ := Option.isSome_iff_exists.mp (Option.isNone_eq_false_iff.mp happroved)
    -- the plans that are made
    let wanted := fun recipe : String × String × String =>
      decide (recipe.1 ∉ existingSlugs db.plans)
        && decide (Text.strip (textAt f.values recipe.2.2) ≠ "")
    let new := (commercialRecipes.filter wanted).map (commercialPlan projectId f a.1 a.2)
    have hwanted : recipe ∈ commercialRecipes.filter wanted := by
      refine List.mem_filter.mpr ⟨hmem, Bool.and_eq_true_iff.mpr
        ⟨decide_eq_true (fun hex => ?_), decide_eq_true htext⟩⟩
      obtain ⟨i, p, hp, hslug, hstate⟩ := mem_existingSlugs.mp hex
      exact hstate (hall i p hp hslug)
    have hcreate : createCommercialPagePlans projectId (some f) (existingSlugs db.plans)
        (approvedStructure db) = .ok new := by
      rw [ha]
      exact if_neg (List.ne_nil_of_mem hwanted)
    have hversion : ∀ p ∈ new, p.version = 1 ∧ p.isOpen = true ∧
        p.slug ∉ existingSlugs db.plans := by
      intro p hp
      obtain ⟨r, hr, rfl⟩ := List.mem_map.mp hp
      exact ⟨rfl, rfl, of_decide_eq_true
        (Bool.and_eq_true_iff.mp (List.mem_filter.mp hr).2).1⟩
    have hinsert : Lineage.insertPlans db.plans (withIds ids new) =
        .ok (db.plans.insertAll (withIds ids new)) := by
      refine insertPlans_ok (withIds_nodup hids new) ?_ (fun r hr => ?_) (fun r hr => ?_)
      · rw [withIds_map_slug, List.map_map]
        exact commercialRecipes_nodup.sublist (List.filter_sublist.map _)
      · obtain ⟨x, -, rfl⟩ := List.mem_map.mp hr
        exact hnew x.2
      · refine isFree_iff.mpr (fun i p hp hslug heq => ?_)
        obtain ⟨hone, -, hfree⟩ := hversion _ (mem_withIds hr)
        -- plans of version 1 are drafts, and the slug has none
        have hstate : p.state ≠ .draft := fun hdraft => hfree
          (mem_existingSlugs.mpr ⟨i, p, hp, hslug, by rw [hdraft]; decide⟩)
        have htwo := (h.counted i p hp).2 hstate
        omega
    have hold : ∀ i p, db.plans.get i = some p →
        (db.plans.insertAll (withIds ids new)).get i = some p := by
      intro i p hp
      rw [Table.get_insertAll_of_notMem, hp]
      intro hi
      obtain ⟨r, hr, rfl⟩ := List.mem_map.mp hi
      obtain ⟨x, -, rfl⟩ := List.mem_map.mp hr
      rw [hnew] at hp
      cases hp
    obtain ⟨k, hk⟩ : ∃ k, (k, commercialPlan projectId f a.1 a.2 recipe) ∈ withIds ids new := by
      have hin : commercialPlan projectId f a.1 a.2 recipe ∈ new := List.mem_map_of_mem hwanted
      obtain ⟨n, hn⟩ := List.mem_iff_getElem?.mp hin
      exact ⟨ids n, List.mem_map.mpr ⟨(_, n), List.mem_zipIdx_iff_getElem?.mpr hn, rfl⟩⟩
    refine ⟨db.plans.insertAll (withIds ids new), recipe.1, k, _, ?_, by rw [ha]; rfl,
      Table.get_insertAll_of_mem (withIds_nodup hids new) hk _, rfl, rfl,
      ⟨j, q, hold j q hq, hqslug, hall j q hq hqslug, ?_⟩, ?_⟩
    · rw [Lineage.serve, hcreate]
      dsimp only
      rw [hinsert]
      rfl
    · refine (h.counted j q hq).2 ?_
      rw [hall j q hq hqslug]
      decide
    · intro i p hp hslug
      rcases Table.get_insertAll_eq_some hp with hp' | hp'
      · exact .inl (hall i p hp' hslug)
      · exact .inr (hversion p (mem_withIds hp')).1

/-- The body of a request for a page at a slug. -/
def pageAt (slug : String) : PagePlanCreate where
  slug := slug
  objective := "Страница"
  intent := none
  riskNotes := none
  kitKey := "service-local-v1"
  blockSelection := []
  claimSlotBindings := []
  sourceRefs := []
  semanticTarget := none

/-- Then the next request for a page at that slug opens a second plan. -/
theorem Sound.second_open (h : Sound db.plans)
    (hfirst : firstOfSlug db (.commercial ids facts) = false) (hids : Function.Injective ids)
    (hnew : ∀ n, db.plans.get (ids n) = none) :
    ∃ next db', exec (Lineage.step lib projectId) db [.commercial ids facts, next] = some db' ∧
      ¬ Ordered db' := by
  obtain ⟨plans, slug, i, p, hserve, happroved, hp, hpslug, hpopen, ⟨j, q, hq, hqslug, -, htwo⟩,
      hall⟩ := h.recreated hfirst hids hnew
  obtain ⟨a, ha⟩ := Option.isSome_iff_exists.mp happroved
  obtain ⟨k, hk⟩ := Infinite.exists_notMem_finset plans.keys.toFinset
  have hknone : plans.get k = none := by
    rw [List.mem_toFinset, plans.mem_keys, Option.not_isSome_iff_eq_none] at hk
    exact hk
  obtain ⟨e, he⟩ : ∃ e, latestPlan plans slug = some e := by
    refine Option.ne_none_iff_exists'.mp (fun hnone => ?_)
    exact latestPlan_eq_none hnone hq hqslug
  obtain ⟨hrow, heslug, hmax⟩ := latestPlan_eq_some he
  have hclosed : e.2.isOpen = false := by
    have hle := hmax j q hq hqslug
    have hstate : e.2.state = .rejected := by
      rcases hall e.1 e.2 hrow heslug with hstate | hone
      · exact hstate
      · omega
    rw [PagePlan.isOpen, hstate]
    rfl
  -- the request for the page sees the rejected plan only
  obtain ⟨page, hcreate⟩ : ∃ page, createPagePlan lib projectId (pageAt slug) (some e)
      (some (a.1, a.2)) = .ok page := createPagePlan_ok lib.commercial rfl hclosed
  obtain ⟨-, hdraft, hslug, hversion⟩ := createPagePlan_eq_ok hcreate
  have hversion' : page.version = e.2.version + 1 := hversion
  have hfree : isFree plans k page = true := by
    refine isFree_iff.mpr (fun m r hr hrslug heq => ?_)
    have hle := hmax m r hr (hrslug.trans hslug)
    omega
  have hcommercial : Lineage.step lib projectId db (.commercial ids facts) =
      some { db with plans := plans } := by
    rw [Lineage.step, hserve]
  have hsecond : Lineage.step lib projectId { db with plans := plans } (.create k (pageAt slug)) =
      some { db with plans := plans.set k page } := by
    have hinsert : Lineage.insertPlan plans k page = .ok (plans.set k page) :=
      if_pos ⟨hknone, hfree⟩
    have happroved' : approvedStructure { db with plans := plans } = some (a.1, a.2) := ha
    have hlatest : latestPlan plans (pageAt slug).slug = some e := he
    rw [Lineage.step, Lineage.serve]
    dsimp only
    rw [hlatest, happroved', hcreate]
    dsimp only
    rw [hinsert]
    rfl
  refine ⟨.create k (pageAt slug), { db with plans := plans.set k page }, ?_, fun hordered => ?_⟩
  · rw [exec_cons, hcommercial, Option.bind_some, exec_cons, hsecond, Option.bind_some, exec_nil]
  · have hik : i ≠ k := by
      intro heq
      rw [heq, hknone] at hp
      cases hp
    have hp' : (plans.set k page).get i = some p := by rw [Table.get_set_ne _ hik, hp]
    exact hik (hordered.openPlans i k p page hp' (Table.get_set_self ..) (hpslug.trans hslug.symm)
      hpopen (isOpen_of_draft hdraft))

/-! ## The lineage is kept -/

/-- **One integer is enough.** In every run in which the commercial pages are made only for slugs
without plans, a slug has at most one open plan, its versions are distinct, and every edit and
every submission commits. Where such a run goes on with commercial pages for a slug whose plans are
all rejected, another request for a page then opens a second plan of the slug. -/
theorem lineage_kept (lib : Library) (projectId : ProjectId) (revisions : Table RevisionId Revision)
    (requests : List Request)
    (hfirst : Along (step lib projectId) (fun db request _ => firstOfSlug db request = true)
      (start revisions) requests) :
    Along (step lib projectId) (fun _ _ db => Ordered db ∧ Commits lib projectId db)
        (start revisions) requests ∧
      ∀ db ids facts, exec (step lib projectId) (start revisions) requests = some db →
        firstOfSlug db (.commercial ids facts) = false → Function.Injective ids →
        (∀ n, db.plans.get (ids n) = none) →
        ∃ next db', exec (step lib projectId) db [.commercial ids facts, next] = some db' ∧
          ¬ Ordered db' := by
  constructor
  · refine along_rule (I := fun db => Sound db.plans) (fun db request db' hs hg hstep => ?_)
      sound_empty hfirst
    have hs' := hs.step hg hstep
    exact ⟨hs', hs'.ordered, hs'.commits⟩
  · intro db ids facts hexec hsecond hids hnew
    have hs : Sound db.plans := @exec_invariant _ _ (step lib projectId)
      (fun db request _ => firstOfSlug db request = true) (fun db => Sound db.plans)
      (fun db request db' hs hg hstep => hs.step hg hstep) _ _ _ sound_empty hfirst hexec
    exact hs.second_open hsecond hids hnew

def oneKit : Library where
  kitKeys := ["service-local-v1"]
  blocks := fun _ => some commercialBlocks
  slotLength := fun _ _ _ => none
  commercial := List.mem_singleton_self _

def approvedRevision : Revision where
  version := 1
  state := .approved
  semanticCollectionId := 1
  evidenceIds := []
  pages := []
  structureHash := ""
  sourceSnapshot := []
  sourceSnapshotHash := none
  submittedAt := none
  reviewedAt := none
  reviewedBy := none
  decisionReason := none
  materializedAt := none
  materializedPagePlanIds := []

def aboutFacts : Facts := ⟨7, [("mission", .str "Чинить быстро")]⟩

def aboutContext : SubmitContext := ⟨some aboutFacts, [], [], [], .ok []⟩

/-- A page at the slug of a recipe is planned, submitted and rejected. -/
def rejectedPage : List Request :=
  [.create 1 (pageAt "/mission"), .submit 1 aboutContext 10, .reject 1 3 (some "Переделать") 11]

def structures : Table RevisionId Revision := Table.empty.set 5 approvedRevision

/-- A rejected page gets a successor. -/
theorem lineage_kept_successor :
    Along (step oneKit 2) (fun _ _ db => Ordered db ∧ Commits oneKit 2 db) (start structures)
      (rejectedPage ++ [.create 2 (pageAt "/mission")]) :=
  (lineage_kept oneKit 2 structures
    (rejectedPage ++ [.create 2 (pageAt "/mission")]) (by decide +kernel)).1

/-- The commercial pages start the slug of a rejected page again: the new draft cannot be submitted,
and a second page is opened beside it. -/
theorem page_planned_twice :
    ∃ db db', exec (step oneKit 2) (start structures) (rejectedPage ++
        [.commercial (fun n => 2 + n) (some aboutFacts)]) = some db ∧
      ¬ Commits oneKit 2 db ∧
      step oneKit 2 db (.create 20 (pageAt "/mission")) = some db' ∧ ¬ Ordered db' := by
  have hrun : (exec (step oneKit 2) (start structures) (rejectedPage ++
      [.commercial (fun n => 2 + n) (some aboutFacts)])).any (fun db =>
        (db.plans.get 2).any (fun plan =>
          (submitPagePlanReview oneKit plan aboutContext 12).isOk
            && !(serve oneKit 2 db (.submit 2 aboutContext 12)).isOk)
        && (step oneKit 2 db (.create 20 (pageAt "/mission"))).any (fun db' =>
          (db'.plans.get 2).any (fun p => (db'.plans.get 20).any (fun q =>
            decide (p.slug = q.slug) && (p.isOpen && q.isOpen))))) = true := by
    decide +kernel
  obtain ⟨db, hexec, hfacts⟩ := (Option.any_eq_true _ _).mp hrun
  obtain ⟨hsubmit, hcreate⟩ := Bool.and_eq_true_iff.mp hfacts
  obtain ⟨db', hstep, hrows⟩ := (Option.any_eq_true _ _).mp hcreate
  refine ⟨db, db', hexec, fun hcommits => ?_, hstep, fun hordered => ?_⟩
  · obtain ⟨plan, hplan, hboth⟩ := (Option.any_eq_true _ _).mp hsubmit
    obtain ⟨hok, hfails⟩ := Bool.and_eq_true_iff.mp hboth
    cases hchange : submitPagePlanReview oneKit plan aboutContext 12 with
    | error e =>
      rw [hchange] at hok
      cases hok
    | ok plan' =>
      obtain ⟨db₂, hserve⟩ := (hcommits 2 plan hplan).2 aboutContext 12 plan' hchange
      rw [hserve] at hfails
      cases hfails
  · obtain ⟨p, hp, hrow⟩ := (Option.any_eq_true _ _).mp hrows
    obtain ⟨q, hq, hboth⟩ := (Option.any_eq_true _ _).mp hrow
    obtain ⟨hslug, hopen⟩ := Bool.and_eq_true_iff.mp hboth
    obtain ⟨hpopen, hqopen⟩ := Bool.and_eq_true_iff.mp hopen
    have hid := hordered.openPlans 2 20 p q hp hq (of_decide_eq_true hslug) hpopen hqopen
    cases hid

end Lineage

end MegaPanel.PagePlans
