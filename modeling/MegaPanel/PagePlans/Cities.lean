import MegaPanel.PagePlans.Review

set_option autoImplicit false

/-! # Structures of a master project in its city projects

`materialize_structure_city_children` locks the selected members of the family and their projects,
looks at the plans of one city after the other, and then inserts the plans of all of them. That a
structure has been materialized in a city is only recorded in `source_refs` of the plans it has
made, and an edit of a draft replaces `source_refs`. So a second set of plans can be made after the
records are gone. As long as an edit leaves a record behind (`keepsRecord`), there is at most one
set (`materialized_once`).

The requests run in steps: one that takes the locks, one for each city that is looked at, and one
that inserts and commits; requests on plans read in one step and commit in another.
-/

namespace MegaPanel.PagePlans

open MegaPanel.Lib
open MegaPanel.SiteStructure (Page PlanId PlanState Revision RevisionId)
open Review (Kind PlanRequest RequestId flushPlan)

namespace Cities

abbrev MemberId := Nat

/-! ## Rows -/

/-- `project_family_members`; `child_project_id` is unique. -/
structure Member where
  tenantId : TenantId
  masterProjectId : ProjectId
  childProjectId : ProjectId
  deriving DecidableEq

/-- `site_structure_revisions` with their project. -/
structure StructureRow where
  projectId : ProjectId
  revision : Revision

/-- `SiteStructureCityChildrenMaterializeCreate` -/
structure ChildrenCreate where
  childProjectIds : List ProjectId
  distinct : childProjectIds.Nodup

/-- What is recorded of the materialization of a structure, if the plan can be read. -/
def familyRecord (plan : PagePlan) : Except HttpError (Option Json) :=
  match Json.get? plan.sourceRefs familyKey with
  | none => .ok none
  | some (.dict entries) => .ok (Json.get? entries "site_structure_revision_id")
  -- `.get` of a value that is not a dictionary
  | some _ => .error ⟨500, "Internal Server Error"⟩

/-- `any(... == str(revision.id) for plan in existing_plans)`; the order of the plans only decides
which refusal is answered. -/
def isMaterialized (id : RevisionId) : List (PlanId × PagePlan) → Except HttpError Bool
  | [] => .ok false
  | r :: rest =>
    match familyRecord r.2 with
    | .error e => .error e
    | .ok record => if record = some (idText id) then .ok true else isMaterialized id rest

/-- The plans of a project. -/
def plansOf (plans : Table PlanId PagePlan) (projectId : ProjectId) : List (PlanId × PagePlan) :=
  plans.rows.filter (fun r => decide (r.2.projectId = projectId))

/-- `latest_by_slug`; a plan that has not been flushed has no id. -/
abbrev LatestBySlug := String → Option (Option PlanId × PagePlan)

def latestBySlug (existing : List (PlanId × PagePlan)) : LatestBySlug := fun slug =>
  ((existing.filter (fun r => decide (r.2.slug = slug))).argmax (fun r => r.2.version)).map
    (fun r => (some r.1, r.2))

/-! ## A request -/

/-- A request that holds its locks: the cities that it has looked at, and those that it has not. -/
structure Visit where
  master : ProjectId
  revisionId : RevisionId
  revision : Revision
  members : List (MemberId × Member)
  seen : List (ProjectId × LatestBySlug)
  left : List ProjectId

/-- The projects whose rows are locked. -/
def Visit.children (visit : Visit) : List ProjectId := visit.seen.map (·.1) ++ visit.left

/-- The preflight of one city, with the plans that it has. -/
def preflight (id : RevisionId) (revision : Revision) (existing : List (PlanId × PagePlan)) :
    Except HttpError LatestBySlug :=
  match isMaterialized id existing with
  | .error e => .error e
  | .ok true =>
    .error ⟨409, "This structure is already materialized in a selected city project"⟩
  | .ok false =>
    match revision.pages.find? (fun page =>
        (latestBySlug existing page.slug).any (·.2.isOpen)) with
    | some page =>
      .error ⟨409, "Finish draft PagePlan " ++ page.slug ++ " in city project first"⟩
    | none => .ok (latestBySlug existing)

/-- `family_materialization` of the plans of a city. -/
def materialization (visit : Visit) (child : ProjectId) (member : MemberId) :
    List (String × Json) :=
  [("site_structure_revision_id", idText visit.revisionId),
    ("master_project_id", idText visit.master), ("child_project_id", idText child),
    ("project_family_member_id", idText member),
    ("source_structure_hash", .str visit.revision.structureHash)]

/-- The loop over the pages for one city. -/
def childPlans (visit : Visit) (child : ProjectId) (member : MemberId) :
    LatestBySlug → List Page → List PagePlan
  | _, [] => []
  | latest, page :: rest =>
    let existing := latest page.slug
    let plan := { pagePlanFromStructure visit.revisionId visit.revision page child
        (existing.map (fun e => (e.1.getD 0, e.2)))
        (some (materialization visit child member)) with
      supersedesId := existing.bind (·.1) }
    plan :: childPlans visit child member
      (Function.update latest page.slug (some (none, plan))) rest

/-- `members[child_id]`; there is a row for each city, since there are as many as cities. -/
def Visit.memberOf (visit : Visit) (child : ProjectId) : MemberId :=
  ((visit.members.find? (fun r => decide (r.2.childProjectId = child))).map (·.1)).getD 0

/-- The plans of all cities. -/
def Visit.plans (visit : Visit) : List PagePlan :=
  visit.seen.flatMap (fun c =>
    childPlans visit c.1 (visit.memberOf c.1) c.2 visit.revision.pages)

/-! ## States -/

inductive Session
  | materialize (visit : Visit)
  | plan (id : PlanId) (kind : Kind) (loaded current : PagePlan)

structure State where
  plans : Table PlanId PagePlan
  revisions : Table RevisionId StructureRow
  members : Table MemberId Member
  /-- The tenants of the projects. -/
  projects : Table ProjectId TenantId
  sessions : Table RequestId Session

/-- Whether another request holds the row of the project, and of its membership. -/
def locked (st : State) (child : ProjectId) : Bool :=
  st.sessions.rows.any (fun r =>
    match r.2 with
    | .materialize visit => decide (child ∈ visit.children)
    | .plan _ _ _ _ => false)

inductive Action
  | start (rid : RequestId) (master : ProjectId) (id : RevisionId) (body : ChildrenCreate)
  /-- The preflight of the next city. -/
  | look (rid : RequestId)
  | read (rid : RequestId) (id : PlanId) (request : PlanRequest)
  /-- The flush and the commit; the ids are those that are drawn for new plans. -/
  | commit (rid : RequestId) (ids : Nat → PlanId)
  | abort (rid : RequestId)
  /-- Another route creates a plan. -/
  | create (id : PlanId) (plan : PagePlan)
  /-- Other routes write projects, families and structures. -/
  | others (projects : Table ProjectId TenantId) (members : Table MemberId Member)
      (revisions : Table RevisionId StructureRow)

/-- A request up to its locks. -/
def beginVisit (st : State) (master : ProjectId) (id : RevisionId) (body : ChildrenCreate) :
    Except HttpError Visit :=
  match st.projects.get master with
  | none => .error ⟨404, "Project not found"⟩
  | some tenantId =>
    match (st.revisions.get id).filter (fun row => decide (row.projectId = master)) with
    | none => .error ⟨404, "Site structure revision not found"⟩
    | some row =>
      if row.revision.state ≠ .approved then
        .error ⟨409, "Approve the site structure before city materialization"⟩
      else
        let members := st.members.rows.filter (fun r =>
          decide (r.2.masterProjectId = master) && decide (r.2.tenantId = tenantId)
            && decide (r.2.childProjectId ∈ body.childProjectIds))
        let children := body.childProjectIds.filter (fun child =>
          decide (st.projects.get child = some tenantId))
        if members.length ≠ body.childProjectIds.length then
          .error ⟨409, "Select only city children of this master project"⟩
        else if children.length ≠ body.childProjectIds.length then
          .error ⟨409, "Selected city project is unavailable"⟩
        else .ok ⟨master, id, row.revision, members, [], body.childProjectIds⟩

/-- `uq_page_plan_project_slug_version`, against the rows of other ids. -/
def isFree (plans : Table PlanId PagePlan) (id : PlanId) (plan : PagePlan) : Bool :=
  plans.rows.all (fun r => decide (r.1 = id) ||
    decide ((r.2.projectId, r.2.slug, r.2.version) ≠ (plan.projectId, plan.slug, plan.version)))

/-- The `INSERT`s of a flush; a conflict is an integrity error. -/
def insertPlans (plans : Table PlanId PagePlan) :
    List (PlanId × PagePlan) → Option (Table PlanId PagePlan)
  | [] => some plans
  | r :: rest =>
    if plans.get r.1 = none ∧ isFree plans r.1 r.2 = true then
      insertPlans (plans.set r.1 r.2) rest
    else none

/-- New plans with the ids that are drawn for them. -/
def withIds (ids : Nat → PlanId) (plans : List PagePlan) : List (PlanId × PagePlan) :=
  plans.zipIdx.map (fun p => (ids p.2, p.1))

/-- The `UPDATE` of a flush. -/
def writePlan (plans : Table PlanId PagePlan) (id : PlanId) (loaded current : PagePlan) :
    Option (Table PlanId PagePlan) :=
  match plans.get id with
  | none => none
  | some stored =>
    let written := flushPlan loaded current stored
    if isFree plans id written = true then some (plans.set id written) else none

/-- What a commit makes of the plans; `none` if it fails. -/
def commitPlans (plans : Table PlanId PagePlan) (ids : Nat → PlanId) :
    Session → Option (Table PlanId PagePlan)
  | .materialize visit => insertPlans plans (withIds ids visit.plans)
  | .plan id _ loaded current => writePlan plans id loaded current

def State.endSession (st : State) (rid : RequestId) : State :=
  { st with sessions := st.sessions.erase rid }

/-- The preflight of the next city of a request. -/
def lookNext (st : State) (rid : RequestId) (visit : Visit) (child : ProjectId)
    (rest : List ProjectId) : State :=
  match preflight visit.revisionId visit.revision (plansOf st.plans child) with
  | .error _ => st.endSession rid
  | .ok latest =>
    let visit := { visit with seen := visit.seen ++ [(child, latest)], left := rest }
    { st with sessions := st.sessions.set rid (.materialize visit) }

/-- A request is ready when it has looked at all of its cities. -/
def Session.ready : Session → Bool
  | .materialize visit => visit.left.isEmpty
  | .plan _ _ _ _ => true

def step (lib : Library) (st : State) : Action → Option State
  | .start rid master id body =>
    if st.sessions.get rid = none ∧ body.childProjectIds.all (fun c => !locked st c) = true then
      match beginVisit st master id body with
      | .error _ => some st
      | .ok visit => some { st with sessions := st.sessions.set rid (.materialize visit) }
    else none
  | .look rid =>
    match st.sessions.get rid with
    | some (.materialize visit) =>
      match visit.left with
      | [] => none
      | child :: rest => some (lookNext st rid visit child rest)
    | _ => none
  | .read rid id request =>
    match st.sessions.get rid, st.plans.get id with
    | none, some plan =>
      match request.serve lib plan with
      | .error _ => some st
      | .ok current =>
        some { st with sessions := st.sessions.set rid (.plan id request.kind plan current) }
    | _, _ => none
  | .commit rid ids =>
    (st.sessions.get rid).bind (fun s =>
      if s.ready = true then
        some { st.endSession rid with plans := (commitPlans st.plans ids s).getD st.plans }
      else none)
  | .abort rid => some (st.endSession rid)
  | .create id plan =>
    (insertPlans st.plans [(id, plan)]).map (fun plans => { st with plans := plans })
  | .others projects members revisions =>
    some { st with projects := projects, members := members, revisions := revisions }

/-- No plans yet. -/
def start (projects : Table ProjectId TenantId) (members : Table MemberId Member)
    (revisions : Table RevisionId StructureRow) : State :=
  ⟨Table.empty, revisions, members, projects, Table.empty⟩

/-! ## What is asked -/

/-- A history variable: the structures and the cities for which plans have been made. -/
abbrev History := List (RevisionId × ProjectId)

/-- The sets of plans that a request makes. -/
def Visit.sets (visit : Visit) : History :=
  if visit.revision.pages = [] then []
  else visit.seen.map (fun c => (visit.revisionId, c.1))

def note (st : State) (a : Action) (g : History) : History :=
  match a with
  | .commit rid ids =>
    match st.sessions.get rid with
    | some (.materialize visit) =>
      if (insertPlans st.plans (withIds ids visit.plans)).isSome then visit.sets ++ g else g
    | _ => g
  | _ => g

/-- A materialization that is refused in a city ends without a plan. One that commits makes the
pages of the structure in each of its cities, or nothing. -/
def Whole (st : State) (a : Action) (st' : State) : Prop :=
  match a with
  | .start _ _ _ _ => st'.plans = st.plans
  | .look rid => st'.plans = st.plans ∧
      ∀ visit child rest, st.sessions.get rid = some (.materialize visit) →
        visit.left = child :: rest →
        (preflight visit.revisionId visit.revision (plansOf st.plans child)).isOk = false →
        st'.sessions.get rid = none
  | .commit rid _ => ∀ visit, st.sessions.get rid = some (.materialize visit) →
      st'.plans = st.plans ∨ ∃ made, st'.plans = st.plans.insertAll made ∧
        (∀ r ∈ made, st.plans.get r.1 = none) ∧ (made.map (·.1)).Nodup ∧
        made.map (fun r => (r.2.projectId, r.2.slug))
          = visit.children.flatMap (fun c => visit.revision.pages.map (fun page => (c, page.slug)))
  | _ => True

/-! ## When it is met -/

/-- A materialization of the structure would find a record of an earlier one, or fail. -/
def recorded (plans : Table PlanId PagePlan) (id : RevisionId) (child : ProjectId) : Bool :=
  decide (isMaterialized id (plansOf plans child) ≠ .ok false)

/-- An edit leaves a record of every materialization. -/
def keepsRecord (st : State) (g : History) : Action → Bool
  | .commit rid ids =>
    match st.sessions.get rid with
    | some (.plan id .update loaded current) =>
      g.all (fun made => recorded
        ((commitPlans st.plans ids (.plan id .update loaded current)).getD st.plans)
        made.1 made.2)
    | _ => true
  | _ => true

/-! ## Records -/

theorem isMaterialized_eq_false {id : RevisionId} {existing : List (PlanId × PagePlan)} :
    isMaterialized id existing = .ok false ↔
      ∀ r ∈ existing, ∃ record, familyRecord r.2 = .ok record ∧ record ≠ some (idText id) := by
  induction existing with
  | nil => exact iff_of_true rfl (fun r hr => absurd hr List.not_mem_nil)
  | cons r rest ih =>
    rw [List.forall_mem_cons, ← ih, isMaterialized]
    cases hrecord : familyRecord r.2 with
    | error e =>
      refine iff_of_false nofun ?_
      rintro ⟨⟨record, hok, _⟩, _⟩
      cases hok
    | ok record =>
      dsimp only
      split
      · next hsame =>
        refine iff_of_false nofun ?_
        rintro ⟨⟨record', hok, hne⟩, _⟩
        cases hok
        exact hne hsame
      · next hne => exact ⟨fun h => ⟨⟨record, rfl, hne⟩, h⟩, fun h => h.2⟩

/-- No plan of the project records a materialization of the structure. -/
theorem recorded_eq_false {plans : Table PlanId PagePlan} {id : RevisionId} {child : ProjectId} :
    recorded plans id child = false ↔ ∀ i p, plans.get i = some p → p.projectId = child →
      ∃ record, familyRecord p = .ok record ∧ record ≠ some (idText id) := by
  rw [recorded, decide_eq_false_iff_not, not_not, isMaterialized_eq_false]
  constructor
  · intro h i p hp hchild
    exact h (i, p) (List.mem_filter.mpr ⟨Table.mem_rows.mpr hp, decide_eq_true hchild⟩)
  · rintro h ⟨i, p⟩ hmem
    obtain ⟨hrow, hchild⟩ := List.mem_filter.mp hmem
    exact h i p (Table.mem_rows.mp hrow) (of_decide_eq_true hchild)

/-- A record stays, when every plan stays with its project and its sources. -/
theorem recorded_mono {plans plans' : Table PlanId PagePlan}
    (hkept : ∀ i p, plans.get i = some p → ∃ p', plans'.get i = some p' ∧
      p'.projectId = p.projectId ∧ p'.sourceRefs = p.sourceRefs) {id : RevisionId}
    {child : ProjectId} (h : recorded plans id child = true) : recorded plans' id child = true := by
  rw [← Bool.not_eq_false, recorded_eq_false] at h ⊢
  intro hblank
  refine h (fun i p hp hchild => ?_)
  obtain ⟨p', hp', hproject, hrefs⟩ := hkept i p hp
  obtain ⟨record, hrecord, hne⟩ := hblank i p' hp' (hproject.trans hchild)
  refine ⟨record, ?_, hne⟩
  rw [← hrecord, familyRecord, familyRecord, hrefs]

theorem recorded_of_plan {plans : Table PlanId PagePlan} {i : PlanId} {p : PagePlan}
    {id : RevisionId} (hp : plans.get i = some p)
    (hrecord : familyRecord p = .ok (some (idText id))) :
    recorded plans id p.projectId = true := by
  rw [← Bool.not_eq_false, recorded_eq_false]
  intro hblank
  obtain ⟨record, hok, hne⟩ := hblank i p hp rfl
  rw [hrecord] at hok
  cases hok
  exact hne rfl

/-! ## Inserted plans -/

theorem insertPlans_eq_some {rs : List (PlanId × PagePlan)} {plans plans' : Table PlanId PagePlan}
    (h : insertPlans plans rs = some plans') :
    plans' = plans.insertAll rs ∧ (∀ r ∈ rs, plans.get r.1 = none) ∧ (rs.map (·.1)).Nodup := by
  induction rs generalizing plans with
  | nil =>
    cases h
    exact ⟨rfl, fun r hr => absurd hr List.not_mem_nil, List.nodup_nil⟩
  | cons r rest ih =>
    unfold insertPlans at h
    split_ifs at h with hnew
    obtain ⟨hall, hfresh, hnodup⟩ := ih h
    have hother : ∀ r' ∈ rest, r'.1 ≠ r.1 ∧ plans.get r'.1 = none := by
      intro r' hr'
      have hnone := hfresh r' hr'
      rw [Table.get_set] at hnone
      split_ifs at hnone with hne
      exact ⟨hne, hnone⟩
    refine ⟨hall, ?_, List.nodup_cons.mpr ⟨fun hmem => ?_, hnodup⟩⟩
    · rintro r' (_ | ⟨_, hr'⟩)
      · exact hnew.1
      · exact (hother r' hr').2
    · obtain ⟨r', hr', hid⟩ := List.mem_map.mp hmem
      exact (hother r' hr').1 hid

theorem get_insertPlans {rs : List (PlanId × PagePlan)} {plans plans' : Table PlanId PagePlan}
    (h : insertPlans plans rs = some plans') {i : PlanId} {p : PagePlan}
    (hp : plans.get i = some p) : plans'.get i = some p := by
  obtain ⟨rfl, hnew, _⟩ := insertPlans_eq_some h
  have hold : i ∉ rs.map (·.1) := by
    intro hmem
    obtain ⟨r, hr, rfl⟩ := List.mem_map.mp hmem
    rw [hnew r hr] at hp
    cases hp
  rw [Table.get_insertAll_of_notMem hold]
  exact hp

theorem map_withIds {β : Type*} (ids : Nat → PlanId) (plans : List PagePlan) (f : PagePlan → β) :
    (withIds ids plans).map (fun r => f r.2) = plans.map f := by
  rw [withIds, List.map_map]
  exact (List.map_map (f := Prod.fst) (g := f) (l := plans.zipIdx)).symm.trans
    (congrArg (List.map f) (List.zipIdx_map_fst 0 plans))

/-! ## The plans of a materialization -/

theorem familyRecord_materialization (visit : Visit) (page : Page) (child : ProjectId)
    (member : MemberId) (existing : Option (PlanId × PagePlan)) (supersedesId : Option PlanId) :
    familyRecord { pagePlanFromStructure visit.revisionId visit.revision page child existing
        (some (materialization visit child member)) with supersedesId := supersedesId }
      = .ok (some (idText visit.revisionId)) := rfl

/-- The loop makes one plan for a page, in the city and with a record. -/
theorem childPlans_made (visit : Visit) (child : ProjectId) (member : MemberId)
    (latest : LatestBySlug) (pages : List Page) :
    (childPlans visit child member latest pages).map (fun p => (p.projectId, p.slug))
        = pages.map (fun page => (child, page.slug)) ∧
      ∀ p ∈ childPlans visit child member latest pages,
        familyRecord p = .ok (some (idText visit.revisionId)) := by
  induction pages generalizing latest with
  | nil => exact ⟨rfl, fun p hp => absurd hp List.not_mem_nil⟩
  | cons page rest ih =>
    unfold childPlans
    obtain ⟨hmap, hrecords⟩ := ih _
    refine ⟨?_, ?_⟩
    · rw [List.map_cons, List.map_cons]
      exact congrArg _ hmap
    · intro p hp
      rcases List.mem_cons.mp hp with rfl | hrest
      · exact familyRecord_materialization visit page child member _ _
      · exact hrecords p hrest

theorem Visit.plans_made (visit : Visit) :
    visit.plans.map (fun p => (p.projectId, p.slug))
      = visit.seen.flatMap (fun c => visit.revision.pages.map (fun page => (c.1, page.slug))) := by
  rw [Visit.plans, List.map_flatMap]
  exact List.flatMap_congr (fun c _ => (childPlans_made visit c.1 _ c.2 _).1)

theorem Visit.familyRecord_of_mem {visit : Visit} {p : PagePlan} (h : p ∈ visit.plans) :
    familyRecord p = .ok (some (idText visit.revisionId)) := by
  obtain ⟨c, _, hp⟩ := List.mem_flatMap.mp h
  exact (childPlans_made visit c.1 _ c.2 _).2 p hp

/-- After a materialization every city has a record of it, if the structure has a page. -/
theorem Visit.recorded_sets {visit : Visit} {plans plans' : Table PlanId PagePlan}
    {ids : Nat → PlanId} (h : insertPlans plans (withIds ids visit.plans) = some plans') :
    ∀ made ∈ visit.sets, recorded plans' made.1 made.2 = true := by
  intro made hmade
  unfold Visit.sets at hmade
  split_ifs at hmade with hpages
  · cases hmade
  obtain ⟨c, hc, rfl⟩ := List.mem_map.mp hmade
  obtain ⟨page, hpage⟩ := List.exists_mem_of_ne_nil _ hpages
  have hslug : (c.1, page.slug) ∈ visit.plans.map (fun p => (p.projectId, p.slug)) := by
    rw [visit.plans_made]
    exact List.mem_flatMap.mpr ⟨c, hc, List.mem_map.mpr ⟨page, hpage, rfl⟩⟩
  obtain ⟨p, hp, hplan⟩ := List.mem_map.mp hslug
  obtain ⟨hproject, _⟩ := Prod.mk.inj hplan
  obtain ⟨i, hrow⟩ : ∃ i, (i, p) ∈ withIds ids visit.plans := by
    have hids := map_withIds ids visit.plans id
    rw [List.map_id] at hids
    rw [← hids] at hp
    obtain ⟨r, hr, rfl⟩ := List.mem_map.mp hp
    exact ⟨r.1, hr⟩
  obtain ⟨rfl, _, hnodup⟩ := insertPlans_eq_some h
  rw [← hproject]
  exact recorded_of_plan (Table.get_insertAll_of_mem hnodup hrow plans)
    (Visit.familyRecord_of_mem hp)

/-! ## Steps of one request -/

theorem beginVisit_eq_ok {st : State} {master : ProjectId} {id : RevisionId} {body : ChildrenCreate}
    {visit : Visit} (h : beginVisit st master id body = .ok visit) :
    visit.seen = [] ∧ visit.left = body.childProjectIds := by
  unfold beginVisit at h
  split at h
  · cases h
  split at h
  · cases h
  split at h
  · cases h
  dsimp only at h
  split_ifs at h
  cases h
  exact ⟨rfl, rfl⟩

theorem preflight_eq_ok {id : RevisionId} {revision : Revision}
    {existing : List (PlanId × PagePlan)} {latest : LatestBySlug}
    (h : preflight id revision existing = .ok latest) : isMaterialized id existing = .ok false := by
  unfold preflight at h
  split at h
  · cases h
  · cases h
  · next hfalse => exact hfalse

theorem notMem_of_not_locked {st : State} {child : ProjectId} (h : locked st child = false)
    {rid : RequestId} {visit : Visit} (hget : st.sessions.get rid = some (.materialize visit)) :
    child ∉ visit.children := by
  have hrow := List.any_eq_false.mp h (rid, .materialize visit) (Table.mem_rows.mpr hget)
  exact fun hmem => hrow (decide_eq_true hmem)

/-- A request other than an edit leaves the sources of the plan. -/
theorem serve_sourceRefs {lib : Library} {plan current : PagePlan} {request : PlanRequest}
    (h : request.serve lib plan = .ok current) (hkind : request.kind ≠ .update) :
    current.sourceRefs = plan.sourceRefs := by
  cases request with
  | update body => exact absurd rfl hkind
  | submit ctx now =>
    obtain ⟨_, _, _, _, _, rfl⟩ := submitPagePlanReview_eq_ok h
    rfl
  | approve user reason now =>
    obtain ⟨_, rfl⟩ := approvePagePlan_eq_ok h
    rfl
  | reject user reason now =>
    obtain ⟨_, rfl⟩ := rejectPagePlan_eq_ok h
    rfl

theorem writePlan_eq_some {plans plans' : Table PlanId PagePlan} {id : PlanId}
    {loaded current : PagePlan} (h : writePlan plans id loaded current = some plans') :
    ∃ stored, plans.get id = some stored ∧
      plans' = plans.set id (flushPlan loaded current stored) := by
  unfold writePlan at h
  split at h
  · cases h
  next stored hstored =>
  dsimp only at h
  split_ifs at h
  cases h
  exact ⟨stored, hstored, rfl⟩

/-- A commit that does not touch the sources leaves the records. -/
theorem recorded_writePlan {plans plans' : Table PlanId PagePlan} {id : PlanId}
    {loaded current : PagePlan} (h : writePlan plans id loaded current = some plans')
    (hrefs : current.sourceRefs = loaded.sourceRefs) {revision : RevisionId} {child : ProjectId}
    (hrecorded : recorded plans revision child = true) :
    recorded plans' revision child = true := by
  obtain ⟨stored, hstored, rfl⟩ := writePlan_eq_some h
  refine recorded_mono (fun i p hp => ?_) hrecorded
  by_cases hi : i = id
  · cases hi
    cases hstored.symm.trans hp
    refine ⟨_, Table.get_set_self plans id _, rfl, ?_⟩
    show writeCol loaded.sourceRefs current.sourceRefs stored.sourceRefs = stored.sourceRefs
    rw [hrefs, writeCol_clean]
  · exact ⟨p, (Table.get_set_ne plans hi _).trans hp, rfl, rfl⟩

/-! ## The invariant -/

/-- What holds of the rows and the history: a city has at most one set of plans of a structure, and
a record of it; a request that waits has found no set in the cities that it has looked at, and no
other one holds its cities. -/
structure Sound (st : State) (g : History) : Prop where
  once : g.Nodup
  recorded : ∀ made ∈ g, recorded st.plans made.1 made.2 = true
  distinct : ∀ rid visit, st.sessions.get rid = some (.materialize visit) → visit.children.Nodup
  unmade : ∀ rid visit, st.sessions.get rid = some (.materialize visit) →
    ∀ c ∈ visit.seen, (visit.revisionId, c.1) ∉ g
  apart : ∀ rid rid' visit visit', st.sessions.get rid = some (.materialize visit) →
    st.sessions.get rid' = some (.materialize visit') → rid ≠ rid' →
    ∀ c ∈ visit.children, c ∉ visit'.children
  sources : ∀ rid id kind loaded current,
    st.sessions.get rid = some (.plan id kind loaded current) →
    kind ≠ .update → current.sourceRefs = loaded.sourceRefs

/-- The invariant does not depend on the other rows, and is kept when sessions end and records
stay. -/
theorem Sound.of_sub {st st' : State} {g : History} (h : Sound st g)
    (hsessions : ∀ rid s, st'.sessions.get rid = some s → st.sessions.get rid = some s)
    (hplans : ∀ made ∈ g, Cities.recorded st'.plans made.1 made.2 = true) : Sound st' g where
  once := h.once
  recorded := hplans
  distinct rid visit hget := h.distinct rid visit (hsessions rid _ hget)
  unmade rid visit hget := h.unmade rid visit (hsessions rid _ hget)
  apart rid rid' visit visit' hget hget' :=
    h.apart rid rid' visit visit' (hsessions rid _ hget) (hsessions rid' _ hget')
  sources rid id kind loaded current hget :=
    h.sources rid id kind loaded current (hsessions rid _ hget)

theorem get_endSession {st : State} {rid rid' : RequestId} {s : Session}
    (h : (st.endSession rid).sessions.get rid' = some s) :
    rid' ≠ rid ∧ st.sessions.get rid' = some s := Table.get_erase_eq_some.mp h

theorem Sound.endSession {st : State} {g : History} (h : Sound st g) (rid : RequestId) :
    Sound (st.endSession rid) g :=
  h.of_sub (fun _ _ hget => (get_endSession hget).2) h.recorded

/-- A materialization that has its cities for itself, and has found no set in those it has seen. -/
theorem Sound.setVisit {st : State} {g : History} (h : Sound st g) {rid : RequestId} {visit : Visit}
    (hdistinct : visit.children.Nodup) (hunmade : ∀ c ∈ visit.seen, (visit.revisionId, c.1) ∉ g)
    (hapart : ∀ rid' visit', rid' ≠ rid → st.sessions.get rid' = some (.materialize visit') →
      ∀ c ∈ visit.children, c ∉ visit'.children) :
    Sound { st with sessions := st.sessions.set rid (.materialize visit) } g where
  once := h.once
  recorded := h.recorded
  distinct j visit' hget := by
    rcases Table.get_set_eq_some.mp hget with ⟨_, hnew⟩ | ⟨_, hold⟩
    · cases hnew
      exact hdistinct
    · exact h.distinct j visit' hold
  unmade j visit' hget := by
    rcases Table.get_set_eq_some.mp hget with ⟨_, hnew⟩ | ⟨_, hold⟩
    · cases hnew
      exact hunmade
    · exact h.unmade j visit' hold
  apart j j' v v' hget hget' hne := by
    rcases Table.get_set_eq_some.mp hget with ⟨rfl, hnew⟩ | ⟨hj, hold⟩ <;>
      rcases Table.get_set_eq_some.mp hget' with ⟨rfl, hnew'⟩ | ⟨hj', hold'⟩
    · exact absurd rfl hne
    · cases hnew
      exact hapart j' v' hj' hold'
    · cases hnew'
      exact fun c hc hc' => hapart j v hj hold c hc' hc
    · exact h.apart j j' v v' hold hold' hne
  sources j id kind loaded current hget := by
    rcases Table.get_set_eq_some.mp hget with ⟨_, hnew⟩ | ⟨_, hold⟩
    · cases hnew
    · exact h.sources j id kind loaded current hold

theorem Sound.setPlan {st : State} {g : History} (h : Sound st g) {rid : RequestId} {id : PlanId}
    {kind : Kind} {loaded current : PagePlan}
    (hsources : kind ≠ .update → current.sourceRefs = loaded.sourceRefs) :
    Sound { st with sessions := st.sessions.set rid (.plan id kind loaded current) } g where
  once := h.once
  recorded := h.recorded
  distinct j visit hget := by
    rcases Table.get_set_eq_some.mp hget with ⟨_, hnew⟩ | ⟨_, hold⟩
    · cases hnew
    · exact h.distinct j visit hold
  unmade j visit hget := by
    rcases Table.get_set_eq_some.mp hget with ⟨_, hnew⟩ | ⟨_, hold⟩
    · cases hnew
    · exact h.unmade j visit hold
  apart j j' v v' hget hget' := by
    rcases Table.get_set_eq_some.mp hget with ⟨_, hnew⟩ | ⟨_, hold⟩
    · cases hnew
    rcases Table.get_set_eq_some.mp hget' with ⟨_, hnew'⟩ | ⟨_, hold'⟩
    · cases hnew'
    · exact h.apart j j' v v' hold hold'
  sources j id' kind' loaded' current' hget := by
    rcases Table.get_set_eq_some.mp hget with ⟨_, hnew⟩ | ⟨_, hold⟩
    · cases hnew
      exact hsources
    · exact h.sources j id' kind' loaded' current' hold

/-! ## Steps -/

/-- The next city is looked at: it has no record, so there is no set of plans in it. -/
theorem Sound.look {st : State} {g : History} (h : Sound st g) {rid : RequestId} {visit : Visit}
    {child : ProjectId} {rest : List ProjectId}
    (hget : st.sessions.get rid = some (.materialize visit)) (hleft : visit.left = child :: rest) :
    Sound (lookNext st rid visit child rest) g := by
  unfold lookNext
  split
  · exact h.endSession rid
  · next latest hpreflight =>
    have hsame : visit.children
        = Visit.children { visit with seen := visit.seen ++ [(child, latest)], left := rest } := by
      simp [Visit.children, hleft]
    dsimp only
    refine h.setVisit (hsame ▸ h.distinct rid visit hget) (fun c hc hmade => ?_)
      (fun j visit' hne hget' => ?_)
    · rcases List.mem_append.mp hc with hold | hnew
      · exact h.unmade rid visit hget c hold hmade
      · cases List.mem_singleton.mp hnew
        have hrecorded := h.recorded _ hmade
        rw [Cities.recorded, decide_eq_true_eq] at hrecorded
        exact hrecorded (preflight_eq_ok hpreflight)
    · rw [← hsame]
      exact h.apart rid j visit visit' hget hget' hne.symm

/-- A set is made where there was none, by the only request that holds the city. -/
theorem Sound.materialize {st : State} {g : History} (h : Sound st g) {rid : RequestId}
    {visit : Visit} {ids : Nat → PlanId} {plans : Table PlanId PagePlan}
    (hget : st.sessions.get rid = some (.materialize visit))
    (hinsert : insertPlans st.plans (withIds ids visit.plans) = some plans) :
    Sound { st.endSession rid with plans := plans } (visit.sets ++ g) := by
  have hsets : ∀ made ∈ visit.sets, ∃ c ∈ visit.seen, made = (visit.revisionId, c.1) := by
    intro made hmade
    unfold Visit.sets at hmade
    split_ifs at hmade
    · cases hmade
    · obtain ⟨c, hc, rfl⟩ := List.mem_map.mp hmade
      exact ⟨c, hc, rfl⟩
  have hseen : (visit.seen.map (·.1)).Nodup := (h.distinct rid visit hget).of_append_left
  refine ⟨List.nodup_append'.mpr ⟨?_, h.once, fun made hmade hold => ?_⟩, ?_, ?_, ?_, ?_, ?_⟩
  · unfold Visit.sets
    split_ifs
    · exact List.nodup_nil
    · have hpairs := hseen.map (Prod.mk_right_injective visit.revisionId)
      rwa [List.map_map] at hpairs
  · obtain ⟨c, hc, rfl⟩ := hsets made hmade
    exact h.unmade rid visit hget c hc hold
  · intro made hmade
    rcases List.mem_append.mp hmade with hnew | hold
    · exact Visit.recorded_sets hinsert made hnew
    · exact recorded_mono (fun i p hp => ⟨p, get_insertPlans hinsert hp, rfl, rfl⟩)
        (h.recorded made hold)
  · exact fun j visit' hget' => h.distinct j visit' (get_endSession hget').2
  · intro j visit' hget' c hc hmade
    obtain ⟨hne, hother⟩ := get_endSession hget'
    rcases List.mem_append.mp hmade with hnew | hold
    · obtain ⟨d, hd, heq⟩ := hsets _ hnew
      have hchild : c.1 = d.1 := (Prod.mk.inj heq).2
      have hmine : d.1 ∈ visit.children :=
        List.mem_append_left _ (List.mem_map_of_mem hd)
      have htheirs : c.1 ∈ visit'.children :=
        List.mem_append_left _ (List.mem_map_of_mem hc)
      exact h.apart rid j visit visit' hget hother hne.symm d.1 hmine (hchild ▸ htheirs)
    · exact h.unmade j visit' hother c hc hold
  · exact fun j j' v v' hget' hget'' => h.apart j j' v v' (get_endSession hget').2
      (get_endSession hget'').2
  · exact fun j id kind loaded current hget' =>
      h.sources j id kind loaded current (get_endSession hget').2

/-- An edit that leaves a record, or another request on a plan, keeps the invariant. -/
theorem Sound.plan {st : State} {g : History} (h : Sound st g) {rid : RequestId}
    {ids : Nat → PlanId} {id : PlanId} {kind : Kind} {loaded current : PagePlan}
    (hget : st.sessions.get rid = some (.plan id kind loaded current))
    (hkeeps : keepsRecord st g (.commit rid ids) = true) :
    Sound { st.endSession rid with
      plans := (writePlan st.plans id loaded current).getD st.plans } g := by
  refine h.of_sub (fun _ _ hget => (get_endSession hget).2) (fun made hmade => ?_)
  by_cases hkind : kind = .update
  · subst hkind
    simp only [keepsRecord, hget, commitPlans, List.all_eq_true] at hkeeps
    exact hkeeps made hmade
  · have hrefs := h.sources rid id kind loaded current hget hkind
    cases hwrite : writePlan st.plans id loaded current with
    | none => exact h.recorded made hmade
    | some plans => exact recorded_writePlan hwrite hrefs (h.recorded made hmade)

theorem Sound.start {lib : Library} {st st' : State} {g : History} {rid : RequestId}
    {master : ProjectId} {id : RevisionId} {body : ChildrenCreate} (h : Sound st g)
    (hstep : Cities.step lib st (.start rid master id body) = some st') : Sound st' g := by
  dsimp only [Cities.step] at hstep
  split_ifs at hstep with hfree
  split at hstep
  · cases hstep
    exact h
  · next visit hvisit =>
    cases hstep
    obtain ⟨hseen, hleft⟩ := beginVisit_eq_ok hvisit
    have hchildren : visit.children = body.childProjectIds := by
      rw [Visit.children, hseen, hleft, List.map_nil, List.nil_append]
    refine h.setVisit (hchildren ▸ body.distinct) (fun c hc => ?_) (fun j visit' _ hget c hc => ?_)
    · rw [hseen] at hc
      cases hc
    · rw [hchildren] at hc
      have hunlocked := List.all_eq_true.mp hfree.2 c hc
      rw [Bool.not_eq_true'] at hunlocked
      exact notMem_of_not_locked hunlocked hget

theorem Sound.step {lib : Library} {st st' : State} {g : History} {a : Action} (h : Sound st g)
    (hkeeps : keepsRecord st g a = true) (hstep : Cities.step lib st a = some st') :
    Sound st' (note st a g) := by
  cases a with
  | start rid master id body => exact h.start hstep
  | look rid =>
    dsimp only [Cities.step] at hstep
    split at hstep
    · next visit hget =>
      split at hstep
      · cases hstep
      · next child rest hleft =>
        cases hstep
        exact h.look hget hleft
    · cases hstep
  | read rid id request =>
    dsimp only [Cities.step] at hstep
    split at hstep
    · split at hstep
      · cases hstep
        exact h
      · next current hserve =>
        cases hstep
        exact h.setPlan (serve_sourceRefs hserve)
    · cases hstep
  | commit rid ids =>
    obtain ⟨s, hget, hready⟩ := Option.bind_eq_some_iff.mp hstep
    split_ifs at hready
    cases hready
    cases s with
    | plan id kind loaded current =>
      simp only [note, hget]
      exact h.plan hget hkeeps
    | materialize visit =>
      simp only [note, hget, commitPlans]
      cases hinsert : insertPlans st.plans (withIds ids visit.plans) with
      | none => exact h.endSession rid
      | some plans => exact h.materialize hget hinsert
  | abort rid =>
    cases hstep
    exact h.endSession rid
  | create id plan =>
    obtain ⟨plans, hinsert, rfl⟩ := Option.map_eq_some_iff.mp hstep
    exact h.of_sub (fun _ _ hget => hget) (fun made hmade =>
      recorded_mono (fun i p hp => ⟨p, get_insertPlans hinsert hp, rfl, rfl⟩)
        (h.recorded made hmade))
  | others projects members revisions =>
    cases hstep
    exact h.of_sub (fun _ _ hget => hget) h.recorded

/-- A request is refused as a whole and makes its plans as a whole. -/
theorem whole_of_step {lib : Library} {st st' : State} {a : Action}
    (hstep : step lib st a = some st') : Whole st a st' := by
  cases a with
  | start rid master id body =>
    dsimp only [step] at hstep
    split_ifs at hstep
    split at hstep
    · cases hstep
      rfl
    · cases hstep
      rfl
  | look rid =>
    dsimp only [step] at hstep
    split at hstep
    · next visit hget =>
      split at hstep
      · cases hstep
      · next child rest hleft =>
        cases hstep
        unfold lookNext
        constructor
        · split
          · rfl
          · rfl
        · intro visit' child' rest' hget' hleft' hrefused
          cases hget.symm.trans hget'
          cases hleft.symm.trans hleft'
          cases hpreflight : preflight visit.revisionId visit.revision
              (plansOf st.plans child) with
          | error e => exact Table.get_erase_self st.sessions rid
          | ok latest =>
            rw [hpreflight] at hrefused
            cases hrefused
    · cases hstep
  | commit rid ids =>
    intro visit hget
    obtain ⟨s, hget', hready⟩ := Option.bind_eq_some_iff.mp hstep
    cases hget.symm.trans hget'
    split_ifs at hready with hleft
    cases hready
    cases hinsert : insertPlans st.plans (withIds ids visit.plans) with
    | none =>
      left
      simp only [commitPlans, hinsert, Option.getD_none]
    | some plans =>
      right
      obtain ⟨hall, hnew, hnodup⟩ := insertPlans_eq_some hinsert
      refine ⟨withIds ids visit.plans, ?_, hnew, hnodup, ?_⟩
      · simp only [commitPlans, hinsert, Option.getD_some]
        exact hall
      · have hchildren : visit.children = visit.seen.map (·.1) := by
          rw [Visit.children, List.isEmpty_iff.mp hleft, List.append_nil]
        rw [hchildren, List.flatMap_map, ← visit.plans_made]
        exact map_withIds ids visit.plans (fun p => (p.projectId, p.slug))
  | _ => trivial

/-! ## Runs -/

theorem sound_start (projects : Table ProjectId TenantId) (members : Table MemberId Member)
    (revisions : Table RevisionId StructureRow) : Sound (start projects members revisions) [] := by
  have hnone : ∀ rid, (start projects members revisions).sessions.get rid = none :=
    fun rid => Table.get_empty rid
  refine ⟨List.nodup_nil, fun made hmade => ?_, fun rid visit hget => ?_, fun rid visit hget => ?_,
    fun rid _ visit _ hget => ?_, fun rid id kind loaded current hget => ?_⟩
  · cases hmade
  all_goals
    rw [hnone] at hget
    cases hget

/-- **Materialization in cities.** A request that is refused in one city makes no plan in any, and
one that commits makes the pages of the structure in each of its cities. As long as every edit of a
plan leaves a record of the materializations, a structure is materialized at most once in a city. -/
theorem materialized_once (lib : Library) (projects : Table ProjectId TenantId)
    (members : Table MemberId Member) (revisions : Table RevisionId StructureRow)
    (actions : List Action) :
    Along (step lib) Whole (start projects members revisions) actions ∧
    (Along (withGhost (step lib) note) (fun x a _ => keepsRecord x.1 x.2 a = true)
        (start projects members revisions, []) actions →
      Along (withGhost (step lib) note) (fun _ _ y => y.2.Nodup)
        (start projects members revisions, []) actions) := by
  constructor
  · have hwhole : ∀ st a st', True → True → step lib st a = some st' → True ∧ Whole st a st' :=
      fun _ _ _ _ _ hstep => ⟨trivial, whole_of_step hstep⟩
    exact along_rule (G := fun _ _ _ => True) (P := Whole) (I := fun _ => True) hwhole trivial
      (along_of_forall (Q := fun _ => True) (fun _ _ => trivial) _)
  · intro hkeeps
    refine along_rule (I := fun x : State × History => Sound x.1 x.2)
      (fun x a y hs hkeep hxy => ?_) (sound_start projects members revisions) hkeeps
    obtain ⟨hy, hnote⟩ := withGhost_eq_some.mp hxy
    have hsound := hs.step hkeep hy
    rw [hnote]
    exact ⟨hsound, hsound.once⟩

/-! ## A structure that is materialized twice -/

def homePage : Page :=
  ⟨"home", none, "/", "Ремонт", "", "", [], "Главная", none, "service-local-v1", [], none⟩

def cityStructure : Revision :=
  ⟨1, .approved, 1, [], [homePage], "hash", [], none, none, none, none, none, none, []⟩

/-- A master project with two cities, and an approved structure of one page. -/
def twoCities : State :=
  start ((Table.empty.set 1 9).set 2 9 |>.set 3 9)
    ((Table.empty.set 1 ⟨9, 1, 2⟩).set 2 ⟨9, 1, 3⟩) (Table.empty.set 5 ⟨1, cityStructure⟩)

def firstCity : ChildrenCreate := ⟨[2], List.nodup_singleton 2⟩

def materializeFirst (rid : RequestId) (id : PlanId) : List Action :=
  [.start rid 1 5 firstCity, .look rid, .commit rid (fun _ => id)]

def newSources (sources : List (String × Json)) : PlanRequest :=
  .update ⟨none, none, none, none, none, none, some sources, none, 1⟩

/-- The draft is edited with other sources, submitted and rejected. -/
def editAndReject (sources : List (String × Json)) : List Action :=
  [.read 1 7 (newSources sources), .commit 1 id, .read 1 7 Review.submission, .commit 1 id,
    .read 1 7 (.reject 4 (some "Мало") 11), .commit 1 id]

/-- An edit that keeps the record. -/
def withRecord : List (String × Json) :=
  [(familyKey, .dict [("site_structure_revision_id", idText 5)]), ("note", .str "СЕО")]

theorem materialized_once_rejected :
    Along (withGhost (step Review.planKit) note) (fun _ _ y => y.2.Nodup) (twoCities, [])
      (materializeFirst 1 7 ++ editAndReject withRecord ++ materializeFirst 2 8) :=
  (materialized_once Review.planKit _ _ _
    (materializeFirst 1 7 ++ editAndReject withRecord ++ materializeFirst 2 8)).2
    (by decide +kernel)

/-- After an edit without the record, the rejected page is planned from the same structure again. -/
theorem materialized_twice :
    ∃ y, exec (withGhost (step Review.planKit) note) (twoCities, [])
        (materializeFirst 1 7 ++ editAndReject [] ++ materializeFirst 2 8) = some y ∧
      ¬ y.2.Nodup ∧ y.1.plans.keys.length = 2 := by
  have hrun : (exec (withGhost (step Review.planKit) note) (twoCities, [])
      (materializeFirst 1 7 ++ editAndReject [] ++ materializeFirst 2 8)).any (fun y =>
        decide (¬ y.2.Nodup) && decide (y.1.plans.keys.length = 2)) = true := by
    decide +kernel
  obtain ⟨y, hexec, hfacts⟩ := (Option.any_eq_true _ _).mp hrun
  obtain ⟨htwice, hplans⟩ := Bool.and_eq_true_iff.mp hfacts
  exact ⟨y, hexec, of_decide_eq_true htwice, of_decide_eq_true hplans⟩

end Cities

end MegaPanel.PagePlans
