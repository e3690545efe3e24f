import MegaPanel.Lib.UnitOfWork
import MegaPanel.PagePlans.Model
import MegaPanel.SiteManifest.Routes

set_option autoImplicit false

/-! # Overlapping requests on a plan and on its project

An edit, a submission and a decision read the plan without a lock, compare its version or its state
in memory, and write the columns that they have changed when they commit; nothing is compared then.
The edits of the project and of its branding do the same with the version of the project. So two
edits of one version can both commit, an edit can change a plan that is being reviewed, and an
approval can follow a rejection. None of it happens as long as no request commits over another one
that it has not seen (`review_integrity`).
-/

namespace MegaPanel.PagePlans

open MegaPanel.Lib
open MegaPanel.SiteManifest (Branding BrandingUpdate)

namespace Review

abbrev RequestId := Nat

/-! ## Columns -/

/-- The stored plan after a flush of `current`, loaded as `loaded`; the other columns are not
written by these requests. -/
def flushPlan (loaded current stored : PagePlan) : PagePlan :=
  { stored with
    objective := writeCol loaded.objective current.objective stored.objective
    intent := writeCol loaded.intent current.intent stored.intent
    riskNotes := writeCol loaded.riskNotes current.riskNotes stored.riskNotes
    kitKey := writeCol loaded.kitKey current.kitKey stored.kitKey
    blockSelection := writeCol loaded.blockSelection current.blockSelection stored.blockSelection
    sourceRefs := writeCol loaded.sourceRefs current.sourceRefs stored.sourceRefs
    factRevisionId := writeCol loaded.factRevisionId current.factRevisionId stored.factRevisionId
    keywordSnapshot :=
      writeCol loaded.keywordSnapshot current.keywordSnapshot stored.keywordSnapshot
    geoSnapshot := writeCol loaded.geoSnapshot current.geoSnapshot stored.geoSnapshot
    semanticTargetSnapshot := writeCol loaded.semanticTargetSnapshot
      current.semanticTargetSnapshot stored.semanticTargetSnapshot
    state := writeCol loaded.state current.state stored.state
    version := writeCol loaded.version current.version stored.version
    submittedAt := writeCol loaded.submittedAt current.submittedAt stored.submittedAt
    reviewedAt := writeCol loaded.reviewedAt current.reviewedAt stored.reviewedAt
    reviewedBy := writeCol loaded.reviewedBy current.reviewedBy stored.reviewedBy
    decisionReason := writeCol loaded.decisionReason current.decisionReason stored.decisionReason }

/-- `projects`; `branding` is `none` when the stored one does not validate. -/
structure Project where
  name : String
  domain : Option String
  niche : Option String
  status : String
  branding : Option Branding
  version : Nat
  hasSite : Bool
  deriving DecidableEq

def flushProject (loaded current stored : Project) : Project :=
  { stored with
    name := writeCol loaded.name current.name stored.name
    domain := writeCol loaded.domain current.domain stored.domain
    niche := writeCol loaded.niche current.niche stored.niche
    status := writeCol loaded.status current.status stored.status
    branding := writeCol loaded.branding current.branding stored.branding
    version := writeCol loaded.version current.version stored.version }

/-! ## The project -/

/-- `ProjectUpdate`; a domain is what `normalize_hostname` makes of it. -/
structure ProjectUpdate where
  name : Option String
  domain : Option (Except String String)
  niche : Option String
  status : Option String
  version : Nat

/-- `value.strip()`, if a value is given that is not the stored one. -/
def changed (stored : String) (value : Option String) : String :=
  value.elim stored (fun text => if text = stored then stored else Text.strip text)

/-- The domain that is set, by the one that the project has. -/
def newDomain (project : Project) : Option (Except String String) → Except HttpError (Option String)
  | none => .ok project.domain
  | some (.error message) => .error ⟨400, message⟩
  | some (.ok domain) =>
    if project.hasSite = true ∧ some domain ≠ project.domain then
      .error ⟨409, "Change an existing site domain through the domain workflow"⟩
    else .ok (some domain)

/-- `update_project` -/
def updateProject (project : Project) (body : ProjectUpdate) : Except HttpError Project :=
  if body.version ≠ project.version then .error ⟨409, "Project changed; reload it"⟩
  else
    (newDomain project body.domain).map (fun domain => { project with
      domain := domain
      name := changed project.name body.name
      niche := body.niche.elim project.niche (fun text =>
        if some text = project.niche then project.niche else some (Text.strip text))
      status := changed project.status body.status
      version := project.version + 1 })

/-- `update_project_branding`; `siteBlocker` is what the site of the project refuses. -/
def updateProjectBranding (project : Project) (body : BrandingUpdate)
    (siteBlocker : Option HttpError) : Except HttpError Project :=
  if body.version ≠ project.version then .error ⟨409, "Project changed; reload it"⟩
  else if body.logo = none ∧ body.favicon = none then
    .error ⟨422, "Select a branding field to update"⟩
  else
    match project.branding, body.assetBlocker, siteBlocker with
    | none, _, _ => .error ⟨409, "Project branding is invalid"⟩
    | _, some blocker, _ => .error ⟨422, blocker⟩
    | _, _, some e => .error e
    | some branding, none, none =>
      .ok { project with branding := some (body.apply branding), version := project.version + 1 }

/-! ## Steps -/

inductive Kind
  | update
  | submit
  | approve
  | reject
  deriving DecidableEq

/-- A request with the row that it has read, and as it has changed it. -/
inductive Session
  | plan (kind : Kind) (loaded current : PagePlan)
  | project (loaded current : Project)

structure State where
  plan : PagePlan
  project : Project
  sessions : Table RequestId Session

/-- A request on a plan. -/
inductive PlanRequest
  | update (body : PagePlanUpdate)
  | submit (ctx : SubmitContext) (now : Time)
  | approve (user : UserId) (reason : Option String) (now : Time)
  | reject (user : UserId) (reason : Option String) (now : Time)

def PlanRequest.kind : PlanRequest → Kind
  | .update _ => .update
  | .submit _ _ => .submit
  | .approve _ _ _ => .approve
  | .reject _ _ _ => .reject

def PlanRequest.serve (lib : Library) (plan : PagePlan) : PlanRequest → Except HttpError PagePlan
  | .update body => updatePagePlan plan body
  | .submit ctx now => submitPagePlanReview lib plan ctx now
  | .approve user reason now => approvePagePlan plan user reason now
  | .reject user reason now => rejectPagePlan plan user reason now

inductive Request
  | plan (request : PlanRequest)
  | updateProject (body : ProjectUpdate)
  | updateBranding (body : BrandingUpdate) (siteBlocker : Option HttpError)

inductive Action
  | start (rid : RequestId) (request : Request)
  | commit (rid : RequestId)
  | abort (rid : RequestId)

/-- A request up to its commit, on the rows that it reads. -/
def serve (lib : Library) (plan : PagePlan) (project : Project) :
    Request → Except HttpError Session
  | .plan request => (request.serve lib plan).map (.plan request.kind plan)
  | .updateProject body => (updateProject project body).map (.project project)
  | .updateBranding body siteBlocker =>
    (updateProjectBranding project body siteBlocker).map (.project project)

/-- The flush at the commit. -/
def State.write (st : State) : Session → State
  | .plan _ loaded current => { st with plan := flushPlan loaded current st.plan }
  | .project loaded current => { st with project := flushProject loaded current st.project }

def State.endSession (st : State) (rid : RequestId) : State :=
  { st with sessions := st.sessions.erase rid }

def step (lib : Library) (st : State) : Action → Option State
  | .start rid request =>
    match st.sessions.get rid, serve lib st.plan st.project request with
    | none, .ok s => some { st with sessions := st.sessions.set rid s }
    | _, _ => none
  | .commit rid => (st.sessions.get rid).map (fun s => (st.write s).endSession rid)
  | .abort rid => some (st.endSession rid)

def start (plan : PagePlan) (project : Project) : State := ⟨plan, project, Table.empty⟩

/-! ## What is asked of the committed states -/

/-- What a submission puts under review. -/
structure Content where
  objective : String
  kitKey : String
  blockSelection : BlockSelection
  factRevisionId : Option FactRevisionId
  keywordSnapshot : List (String × Json)
  geoSnapshot : List (String × Json)
  semanticTargetSnapshot : List (String × Json)
  deriving DecidableEq

def content (plan : PagePlan) : Content :=
  ⟨plan.objective, plan.kitKey, plan.blockSelection, plan.factRevisionId, plan.keywordSnapshot,
    plan.geoSnapshot, plan.semanticTargetSnapshot⟩

/-- A history variable: the versions that committed edits have carried (a request is refused unless
it carries the version that it reads), what the last committed submission has put under review, and
whether a rejection has committed. -/
structure History where
  updates : List Nat
  submitted : Option Content
  rejected : Bool
  projectUpdates : List Nat

def noHistory : History := ⟨[], none, false, []⟩

def noteCommit (g : History) : Session → History
  | .plan .update loaded _ => { g with updates := loaded.version :: g.updates }
  | .plan .submit _ current => { g with submitted := some (content current) }
  | .plan .approve _ _ => g
  | .plan .reject _ _ => { g with rejected := true }
  | .project loaded _ => { g with projectUpdates := loaded.version :: g.projectUpdates }

def note (st : State) (a : Action) (g : History) : History :=
  match a with
  | .commit rid => (st.sessions.get rid).elim g (noteCommit g)
  | _ => g

/-- No two edits of a version have committed, a plan that is not a draft is what has been submitted,
and a rejected plan is not approved. -/
structure Reviewed (plan : PagePlan) (g : History) : Prop where
  updates : g.updates.Nodup
  submitted : plan.state ≠ .draft → g.submitted = some (content plan)
  rejected : g.rejected = true → plan.state ≠ .approved

/-! ## When it is met -/

/-- An edit or a submission commits to the version that it has read, an approval to a plan that is
not rejected. -/
def planSeen (st : State) : Action → Bool
  | .commit rid =>
    match st.sessions.get rid with
    | some (.plan .approve _ _) => decide (st.plan.state ≠ .rejected)
    | some (.plan .update loaded _) => decide (st.plan.version = loaded.version)
    | some (.plan .submit loaded _) => decide (st.plan.version = loaded.version)
    | _ => true
  | _ => true

/-- An edit of the project, or of its branding, commits to the version that it has read. -/
def projectSeen (st : State) : Action → Bool
  | .commit rid =>
    match st.sessions.get rid with
    | some (.project loaded _) => decide (st.project.version = loaded.version)
    | _ => true
  | _ => true

/-! ## What a commit writes to the plan -/

variable {stored stored' loaded : PagePlan}

/-- An edit or a submission that waits for its commit. -/
structure Edits (stored loaded current : PagePlan) : Prop where
  draft : loaded.state = .draft
  version : current.version = loaded.version + 1
  le : loaded.version ≤ stored.version
  same : loaded.version = stored.version → stored = loaded

/-- A decision that waits for its commit. -/
structure Decides (stored loaded current : PagePlan) : Prop where
  review : loaded.state = .review
  decided : current.state ≠ .review
  same : content current = content loaded
  version : current.version = loaded.version
  closed : stored.state ≠ .draft

/-- How the stored plan moves at a commit: its version does not fall, it keeps its version only if
it is closed, and a closed plan stays closed. -/
structure Advance (stored stored' : PagePlan) : Prop where
  le : stored.version ≤ stored'.version
  closed : stored'.version = stored.version → stored.state ≠ .draft
  kept : stored.state ≠ .draft → stored'.state ≠ .draft

theorem Edits.advance {current : PagePlan} (h : Edits stored loaded current)
    (hmove : Advance stored stored') : Edits stored' loaded current := by
  refine ⟨h.draft, h.version, h.le.trans hmove.le, fun hsame => ?_⟩
  have hversion : stored'.version = stored.version := by
    have hle := h.le
    have hle' := hmove.le
    omega
  have hloaded := h.same (hsame.trans hversion)
  exact absurd (hloaded ▸ h.draft) (hmove.closed hversion)

theorem Decides.advance {current : PagePlan} (h : Decides stored loaded current)
    (hmove : Advance stored stored') :
    Decides stored' loaded current := { h with closed := hmove.kept h.closed }

theorem content_flushPlan_loaded (loaded current : PagePlan) :
    content (flushPlan loaded current loaded) = content current := by
  simp [content, flushPlan]

/-- An edit that commits to the version that it has read writes what it holds. -/
theorem Edits.commit {current : PagePlan} (h : Edits stored loaded current)
    (hseen : stored.version = loaded.version) :
    content (flushPlan loaded current stored) = content current ∧
      (flushPlan loaded current stored).state = current.state ∧
      (flushPlan loaded current stored).version = stored.version + 1 := by
  rw [h.same hseen.symm]
  refine ⟨content_flushPlan_loaded loaded current, writeCol_stored _ _, ?_⟩
  exact (writeCol_stored _ _).trans h.version

/-- A decision writes the state, and leaves what is decided and the version. -/
theorem Decides.commit {current : PagePlan} (h : Decides stored loaded current) :
    content (flushPlan loaded current stored) = content stored ∧
      (flushPlan loaded current stored).state = current.state ∧
      (flushPlan loaded current stored).version = stored.version := by
  obtain ⟨hobjective, hkit, hblocks, hfacts, hkeywords, hgeo, htarget⟩ :=
    Content.mk.inj h.same
  refine ⟨?_, writeCol_dirty (fun hsame => h.decided (hsame.trans h.review)) _, ?_⟩
  · simp only [content, flushPlan, hobjective, hkit, hblocks, hfacts, hkeywords, hgeo, htarget,
      writeCol_clean]
  · simp only [flushPlan, h.version, writeCol_clean]

theorem Edits.moves {current : PagePlan} (h : Edits stored loaded current)
    (hseen : stored.version = loaded.version) :
    Advance stored (flushPlan loaded current stored) := by
  obtain ⟨_, _, hversion⟩ := h.commit hseen
  refine ⟨by omega, fun hsame => by omega, fun hclosed => ?_⟩
  exact absurd (h.same hseen.symm ▸ h.draft) hclosed

theorem Decides.moves {current : PagePlan} (h : Decides stored loaded current)
    (hdraft : current.state ≠ .draft) : Advance stored (flushPlan loaded current stored) := by
  obtain ⟨_, hstate, hversion⟩ := h.commit
  exact ⟨hversion.ge, fun _ => h.closed, fun _ => hstate ▸ hdraft⟩

/-! ## The plan's invariant -/

variable {s : Session} {plan : PagePlan} {g : History}

/-- What holds of a request that waits for its commit, by the plan that is stored. -/
def Session.Sound (stored : PagePlan) : Session → Prop
  | .plan .update loaded current => Edits stored loaded current ∧ current.state = .draft
  | .plan .submit loaded current => Edits stored loaded current ∧ current.state = .review
  | .plan .approve loaded current => Decides stored loaded current ∧ current.state = .approved
  | .plan .reject loaded current => Decides stored loaded current ∧ current.state = .rejected
  | .project _ _ => True

theorem Session.Sound.advance (h : s.Sound stored) (hmove : Advance stored stored') :
    s.Sound stored' := by
  match s, h with
  | .plan .update _ _, h => exact ⟨h.1.advance hmove, h.2⟩
  | .plan .submit _ _, h => exact ⟨h.1.advance hmove, h.2⟩
  | .plan .approve _ _, h => exact ⟨h.1.advance hmove, h.2⟩
  | .plan .reject _ _, h => exact ⟨h.1.advance hmove, h.2⟩
  | .project _ _, _ => trivial

/-- What holds of the plan and its history; `Reviewed` is a part of it. -/
structure PlanSound (plan : PagePlan) (g : History) : Prop where
  updates : g.updates.Nodup
  older : ∀ version ∈ g.updates, version < plan.version
  submitted : plan.state ≠ .draft → g.submitted = some (content plan)
  rejected : g.rejected = true → plan.state = .rejected

theorem PlanSound.reviewed (h : PlanSound plan g) : Reviewed plan g := by
  refine ⟨h.updates, h.submitted, fun hrejected happroved => ?_⟩
  rw [h.rejected hrejected] at happroved
  cases happroved

structure Sound (st : State) (g : History) : Prop where
  plan : PlanSound st.plan g
  sessions : ∀ rid s, st.sessions.get rid = some s → s.Sound st.plan

/-- An edit leaves a draft, of which no content is asked for. -/
theorem PlanSound.update (h : PlanSound plan g) {current : PagePlan}
    (hs : Edits plan loaded current) (hdraft : current.state = .draft)
    (hseen : plan.version = loaded.version) :
    PlanSound (flushPlan loaded current plan)
      { g with updates := loaded.version :: g.updates } := by
  obtain ⟨_, hstate, hversion⟩ := hs.commit hseen
  refine ⟨List.nodup_cons.mpr ⟨fun hmem => ?_, h.updates⟩, ?_, ?_, fun hrejected => ?_⟩
  · have hlt := h.older _ hmem
    omega
  · intro version hmem
    show version < _
    rcases List.mem_cons.mp hmem with rfl | hold
    · omega
    · have hlt := h.older version hold
      omega
  · intro hclosed
    exact absurd (hstate.trans hdraft) hclosed
  · have hstored := h.rejected hrejected
    rw [hs.same hseen.symm, hs.draft] at hstored
    cases hstored

theorem PlanSound.submit (h : PlanSound plan g) {current : PagePlan}
    (hs : Edits plan loaded current) (hseen : plan.version = loaded.version) :
    PlanSound (flushPlan loaded current plan) { g with submitted := some (content current) } := by
  obtain ⟨hcontent, _, hversion⟩ := hs.commit hseen
  refine ⟨h.updates, fun version hmem => ?_, fun _ => congrArg some hcontent.symm,
    fun hrejected => ?_⟩
  · have hlt := h.older version hmem
    omega
  · have hstored := h.rejected hrejected
    rw [hs.same hseen.symm, hs.draft] at hstored
    cases hstored

/-- A decision keeps what has been submitted. -/
theorem PlanSound.decide (h : PlanSound plan g) {current : PagePlan}
    (hs : Decides plan loaded current) {rejected : Bool}
    (hrejected : rejected = true → current.state = .rejected) :
    PlanSound (flushPlan loaded current plan) { g with rejected := rejected } := by
  obtain ⟨hcontent, hstate, hversion⟩ := hs.commit
  refine ⟨h.updates, fun version hmem => ?_, fun _ => ?_, fun hr => hstate.trans (hrejected hr)⟩
  · rw [hversion]
    exact h.older version hmem
  · rw [hcontent]
    exact h.submitted hs.closed

/-! ## Steps -/

variable {st st' : State} {rid : RequestId} {lib : Library} {project : Project} {request : Request}
  {a : Action}

theorem sessions_write (st : State) (s : Session) : (st.write s).sessions = st.sessions := by
  cases s with
  | plan kind loaded current | project loaded current => rfl

theorem note_commit (hget : st.sessions.get rid = some s) :
    note st (.commit rid) g = noteCommit g s := by
  simp only [note, hget, Option.elim_some]

theorem serve_sound (h : serve lib plan project request = .ok s) : s.Sound plan := by
  cases request with
  | plan request =>
    obtain ⟨current, hcurrent, rfl⟩ := map_eq_ok h
    cases request with
    | update body =>
      obtain ⟨hdraft, _, hstate, hversion, _, _⟩ := updatePagePlan_eq_ok hcurrent
      exact ⟨⟨hdraft, hversion, le_rfl, fun _ => rfl⟩, hstate⟩
    | submit ctx now =>
      obtain ⟨hdraft, _, _, _, _, rfl⟩ := submitPagePlanReview_eq_ok hcurrent
      exact ⟨⟨hdraft, rfl, le_rfl, fun _ => rfl⟩, rfl⟩
    | approve user reason now =>
      obtain ⟨hreview, rfl⟩ := approvePagePlan_eq_ok hcurrent
      exact ⟨⟨hreview, nofun, rfl, rfl, by rw [hreview]; nofun⟩, rfl⟩
    | reject user reason now =>
      obtain ⟨hreview, rfl⟩ := rejectPagePlan_eq_ok hcurrent
      exact ⟨⟨hreview, nofun, rfl, rfl, by rw [hreview]; nofun⟩, rfl⟩
  | updateProject body | updateBranding body siteBlocker =>
    obtain ⟨current, _, rfl⟩ := map_eq_ok h
    trivial

/-- A commit over a plan that the request has seen moves the plan forward. -/
theorem Session.Sound.commit (hplan : PlanSound st.plan g) (hs : s.Sound st.plan)
    (hget : st.sessions.get rid = some s) (hseen : planSeen st (.commit rid) = true) :
    PlanSound (st.write s).plan (noteCommit g s) ∧
      ((st.write s).plan = st.plan ∨ Advance st.plan (st.write s).plan) := by
  simp only [planSeen, hget] at hseen
  match s, hs, hseen with
  | .plan .update _ _, hs, hseen =>
    have hversion := of_decide_eq_true hseen
    exact ⟨hplan.update hs.1 hs.2 hversion, .inr (hs.1.moves hversion)⟩
  | .plan .submit _ _, hs, hseen =>
    have hversion := of_decide_eq_true hseen
    exact ⟨hplan.submit hs.1 hversion, .inr (hs.1.moves hversion)⟩
  | .plan .approve _ _, hs, hseen =>
    have hnot := of_decide_eq_true hseen
    refine ⟨hplan.decide hs.1 (fun hrejected => ?_), .inr (hs.1.moves (by rw [hs.2]; nofun))⟩
    exact absurd (hplan.rejected hrejected) hnot
  | .plan .reject _ _, hs, _ =>
    exact ⟨hplan.decide hs.1 (fun _ => hs.2), .inr (hs.1.moves (by rw [hs.2]; nofun))⟩
  | .project _ _, _, _ =>
    exact ⟨⟨hplan.updates, hplan.older, hplan.submitted, hplan.rejected⟩, .inl rfl⟩

theorem Sound.step (h : Sound st g) (hseen : planSeen st a = true)
    (hstep : Review.step lib st a = some st') : Sound st' (note st a g) := by
  cases a with
  | start rid request =>
    dsimp only [Review.step] at hstep
    split at hstep
    · next s _ hserve =>
      cases hstep
      exact ⟨h.plan, Table.forall_set h.sessions (serve_sound hserve)⟩
    · cases hstep
  | commit rid =>
    obtain ⟨s, hget, rfl⟩ := Option.map_eq_some_iff.mp hstep
    obtain ⟨hplan, hmove⟩ := (h.sessions rid s hget).commit h.plan hget hseen
    rw [note_commit hget]
    refine ⟨hplan, fun j s' hj => ?_⟩
    have hold := h.sessions j s'
      (sessions_write st s ▸ (Table.get_erase_eq_some.mp hj).2)
    rcases hmove with hsame | hmove
    · exact (congrArg (Session.Sound · s') hsame).mpr hold
    · exact hold.advance hmove
  | abort rid =>
    cases hstep
    exact ⟨h.plan, fun j s' hj => h.sessions j s' (Table.get_erase_eq_some.mp hj).2⟩

/-! ## The project -/

variable {project' : Project}

/-- What holds of the version of the project: a request that waits has read it, unless another one
has committed to the version that it has read. -/
structure ProjectSound (st : State) (g : History) : Prop where
  updates : g.projectUpdates.Nodup
  older : ∀ version ∈ g.projectUpdates, version < st.project.version
  sessions : ∀ rid loaded current, st.sessions.get rid = some (.project loaded current) →
    current.version = loaded.version + 1 ∧
      (loaded.version = st.project.version ∨ loaded.version ∈ g.projectUpdates)

theorem updateProject_version {body : ProjectUpdate}
    (h : updateProject project body = .ok project') :
    body.version = project.version ∧ project'.version = project.version + 1 := by
  unfold updateProject at h
  split_ifs at h with hversion
  obtain ⟨domain, _, rfl⟩ := map_eq_ok h
  exact ⟨not_not.mp hversion, rfl⟩

theorem updateProjectBranding_version {body : BrandingUpdate} {siteBlocker : Option HttpError}
    (h : updateProjectBranding project body siteBlocker = .ok project') :
    body.version = project.version ∧ project'.version = project.version + 1 := by
  unfold updateProjectBranding at h
  split_ifs at h with hversion _
  refine ⟨not_not.mp hversion, ?_⟩
  split at h
  · cases h
  · cases h
  · cases h
  · cases h
    rfl

theorem serve_project {loaded current : Project}
    (h : serve lib plan project request = .ok (.project loaded current)) :
    loaded = project ∧ current.version = project.version + 1 := by
  cases request with
  | updateProject body =>
    obtain ⟨current', hcurrent, heq⟩ := map_eq_ok h
    cases heq
    exact ⟨rfl, (updateProject_version hcurrent).2⟩
  | updateBranding body siteBlocker =>
    obtain ⟨current', hcurrent, heq⟩ := map_eq_ok h
    cases heq
    exact ⟨rfl, (updateProjectBranding_version hcurrent).2⟩
  | plan request =>
    obtain ⟨_, _, heq⟩ := map_eq_ok h
    cases heq

/-- No two edits of a version have committed after a step if and only if it has seen the version. -/
theorem ProjectSound.seen_iff (h : ProjectSound st g) (hstep : step lib st a = some st') :
    (note st a g).projectUpdates.Nodup ↔ projectSeen st a = true := by
  cases a with
  | commit rid =>
    obtain ⟨s, hget, _⟩ := Option.map_eq_some_iff.mp hstep
    rw [note_commit hget]
    simp only [projectSeen, hget]
    match s, hget with
    | .project loaded current, hget =>
      rw [decide_eq_true_eq]
      show (loaded.version :: g.projectUpdates).Nodup ↔ _
      rw [List.nodup_cons, and_iff_left h.updates]
      rcases (h.sessions rid loaded current hget).2 with hread | hover
      · refine ⟨fun _ => hread.symm, fun _ hmem => ?_⟩
        exact absurd hread (Nat.ne_of_lt (h.older _ hmem))
      · refine ⟨fun hnew => absurd hover hnew, fun hread => ?_⟩
        exact absurd hread.symm (Nat.ne_of_lt (h.older _ hover))
    | .plan .update _ _, _ => exact iff_of_true h.updates rfl
    | .plan .submit _ _, _ => exact iff_of_true h.updates rfl
    | .plan .approve _ _, _ => exact iff_of_true h.updates rfl
    | .plan .reject _ _, _ => exact iff_of_true h.updates rfl
  | _ => exact iff_of_true h.updates rfl

/-- A commit that does not touch the project keeps what holds of it. -/
theorem ProjectSound.of_eq {g' : History} (h : ProjectSound st g)
    (hproject : st'.project = st.project) (hupdates : g'.projectUpdates = g.projectUpdates)
    (hsessions : ∀ rid s, st'.sessions.get rid = some s → st.sessions.get rid = some s) :
    ProjectSound st' g' := by
  refine ⟨hupdates ▸ h.updates, ?_, fun rid loaded current hget => ?_⟩
  · rw [hupdates, hproject]
    exact h.older
  · rw [hupdates, hproject]
    exact h.sessions rid loaded current (hsessions rid _ hget)

theorem ProjectSound.step (h : ProjectSound st g) (hseen : projectSeen st a = true)
    (hstep : Review.step lib st a = some st') : ProjectSound st' (note st a g) := by
  have hnodup := (h.seen_iff hstep).mpr hseen
  cases a with
  | start rid request =>
    dsimp only [Review.step] at hstep
    split at hstep
    · next s _ hserve =>
      cases hstep
      refine ⟨h.updates, h.older, fun j loaded current hj => ?_⟩
      rcases Table.get_set_eq_some.mp hj with ⟨rfl, rfl⟩ | ⟨_, hold⟩
      · obtain ⟨rfl, hversion⟩ := serve_project hserve
        exact ⟨hversion, .inl rfl⟩
      · exact h.sessions j loaded current hold
    · cases hstep
  | commit rid =>
    obtain ⟨s, hget, rfl⟩ := Option.map_eq_some_iff.mp hstep
    rw [note_commit hget] at hnodup ⊢
    have hkept : ∀ j s', ((st.write s).endSession rid).sessions.get j = some s' →
        st.sessions.get j = some s' := fun j s' hj =>
      sessions_write st s ▸ (Table.get_erase_eq_some.mp hj).2
    match s, hget with
    | .project loaded current, hget =>
      simp only [projectSeen, hget, decide_eq_true_eq] at hseen
      have hnew := (h.sessions rid loaded current hget).1
      have hproject : (flushProject loaded current st.project).version
          = st.project.version + 1 := by
        rw [hseen, ← hnew]
        exact writeCol_dirty (by omega) _
      refine ⟨hnodup, fun version hmem => ?_, fun j loaded' current' hj => ?_⟩
      · show version < (flushProject loaded current st.project).version
        rw [hproject]
        rcases List.mem_cons.mp hmem with rfl | hold
        · omega
        · have hlt := h.older version hold
          omega
      · obtain ⟨hversion, hread | hover⟩ := h.sessions j loaded' current' (hkept j _ hj)
        · exact ⟨hversion, .inr (List.mem_cons.mpr (.inl (hread.trans hseen)))⟩
        · exact ⟨hversion, .inr (List.mem_cons_of_mem _ hover)⟩
    | .plan .update _ _, _ => exact h.of_eq rfl rfl hkept
    | .plan .submit _ _, _ => exact h.of_eq rfl rfl hkept
    | .plan .approve _ _, _ => exact h.of_eq rfl rfl hkept
    | .plan .reject _ _, _ => exact h.of_eq rfl rfl hkept
  | abort rid =>
    cases hstep
    exact h.of_eq rfl rfl (fun j s hj => (Table.get_erase_eq_some.mp hj).2)

/-! ## Runs -/

theorem get_start (plan : PagePlan) (project : Project) (rid : RequestId) :
    (start plan project).sessions.get rid = none := Table.get_empty rid

theorem sound_start (project : Project) (hdraft : plan.state = .draft) :
    Sound (start plan project) noHistory := by
  constructor
  · refine ⟨List.nodup_nil, fun _ hmem => ?_, fun hclosed => absurd hdraft hclosed, fun h => ?_⟩
    · cases hmem
    · cases h
  · intro rid s hget
    rw [get_start] at hget
    cases hget

theorem projectSound_start (plan : PagePlan) (project : Project) :
    ProjectSound (start plan project) noHistory := by
  refine ⟨List.nodup_nil, fun _ hmem => ?_, fun rid loaded current hget => ?_⟩
  · cases hmem
  · rw [get_start] at hget
    cases hget

/-- **Overlapping requests on a plan and on its project.** If no edit, submission or approval
commits over a plan that it has not seen, then no two edits of one version commit, the plan stays
what has been submitted, and a rejection is final. No two edits of one version of the project commit
if and only if none commits over a version that it has not read. -/
theorem review_integrity (lib : Library) (plan : PagePlan) (project : Project)
    (actions : List Action) (hdraft : plan.state = .draft) :
    (Along (step lib) (fun st a _ => planSeen st a = true) (start plan project) actions →
      Along (withGhost (step lib) note) (fun _ _ y => Reviewed y.1.plan y.2)
        (start plan project, noHistory) actions) ∧
    (Along (withGhost (step lib) note) (fun _ _ y => y.2.projectUpdates.Nodup)
        (start plan project, noHistory) actions ↔
      Along (step lib) (fun st a _ => projectSeen st a = true) (start plan project) actions) := by
  refine ⟨fun hseen => ?_, ?_⟩
  · refine along_rule (I := fun x : State × History => Sound x.1 x.2)
      (fun x a y hs hsee hxy => ?_) (sound_start project hdraft)
      ((along_withGhost note).mpr hseen)
    obtain ⟨hy, hnote⟩ := withGhost_eq_some.mp hxy
    have hsound := hs.step hsee hy
    rw [hnote]
    exact ⟨hsound, hsound.plan.reviewed⟩
  · rw [← along_withGhost note (g := noHistory)]
    constructor
    · refine along_rule (I := fun x : State × History => ProjectSound x.1 x.2)
        (fun x a y hs hnodup hxy => ?_) (projectSound_start plan project)
      obtain ⟨hy, hnote⟩ := withGhost_eq_some.mp hxy
      rw [hnote] at hnodup ⊢
      have hsee := (hs.seen_iff hy).mp hnodup
      exact ⟨hs.step hsee hy, hsee⟩
    · refine along_rule (I := fun x : State × History => ProjectSound x.1 x.2)
        (fun x a y hs hsee hxy => ?_) (projectSound_start plan project)
      obtain ⟨hy, hnote⟩ := withGhost_eq_some.mp hxy
      rw [hnote]
      exact ⟨hs.step hsee hy, (hs.seen_iff hy).mpr hsee⟩

/-! ## Requests that overlap -/

def planKit : Library where
  kitKeys := ["service-local-v1"]
  blocks := fun _ => some []
  slotLength := fun _ _ _ => none
  commercial := List.mem_singleton_self _

def aboutPlan : PagePlan :=
  newPlan 1 none "/about" "О нас" none none "service-local-v1" ⟨[], []⟩ []

def aboutProject : Project := ⟨"Ремонт", none, none, "draft", some ⟨none, none⟩, 1, false⟩

def newObjective (objective : String) : PlanRequest :=
  .update ⟨some objective, none, none, none, none, none, none, none, 1⟩

def submission : PlanRequest := .submit ⟨some ⟨7, []⟩, [], [], [], .ok []⟩ 10

/-- Each request has committed before the next one starts. -/
def oneByOne : List Action :=
  [.start 1 (.plan (newObjective "Компания")), .commit 1, .start 2 (.plan submission), .commit 2,
    .start 3 (.plan (.reject 4 (some "Мало") 11)), .commit 3]

theorem review_integrity_one_by_one :
    Along (withGhost (step planKit) note) (fun _ _ y => Reviewed y.1.plan y.2)
        (start aboutPlan aboutProject, noHistory) oneByOne ∧
      Along (withGhost (step planKit) note) (fun _ _ y => y.2.projectUpdates.Nodup)
        (start aboutPlan aboutProject, noHistory) oneByOne :=
  ⟨(review_integrity planKit aboutPlan aboutProject oneByOne rfl).1 (by decide +kernel),
    (review_integrity planKit aboutPlan aboutProject oneByOne rfl).2.mpr (by decide +kernel)⟩

/-- Two edits of the first version commit. -/
def editedTwice : List Action :=
  [.start 1 (.plan (newObjective "Компания")), .start 2 (.plan (newObjective "Команда")),
    .commit 1, .commit 2]

/-- An edit commits after the submission that it has not seen. -/
def editedUnderReview : List Action :=
  [.start 1 (.plan (newObjective "Компания")), .start 2 (.plan submission), .commit 2, .commit 1]

/-- An approval commits after the rejection that it has not seen. -/
def approvedAfterRejection : List Action :=
  [.start 1 (.plan submission), .commit 1, .start 2 (.plan (.approve 4 none 11)),
    .start 3 (.plan (.reject 5 (some "Мало") 11)), .commit 3, .commit 2]

/-- An edit of the project and one of its branding commit to the first version. -/
def projectEditedTwice : List Action :=
  [.start 1 (.updateProject ⟨some "Сервис", none, none, none, 1⟩),
    .start 2 (.updateBranding ⟨1, some none, none, none⟩ none), .commit 1, .commit 2]

/-- Whether a run ends in a state of a kind is decided by executing it. -/
theorem ends_of_any {actions : List Action} {P : State × History → Prop} [DecidablePred P]
    (h : (exec (withGhost (step planKit) note) (start aboutPlan aboutProject, noHistory)
      actions).any (fun y => decide (P y)) = true) :
    ∃ y, exec (withGhost (step planKit) note) (start aboutPlan aboutProject, noHistory) actions
      = some y ∧ P y := by
  obtain ⟨y, hrun, hy⟩ := (Option.any_eq_true _ _).mp h
  exact ⟨y, hrun, of_decide_eq_true hy⟩

theorem overlapping_requests :
    (∃ y, exec (withGhost (step planKit) note) (start aboutPlan aboutProject, noHistory) editedTwice
      = some y ∧ ¬ y.2.updates.Nodup) ∧
    (∃ y, exec (withGhost (step planKit) note) (start aboutPlan aboutProject, noHistory)
      editedUnderReview = some y ∧ y.1.plan.state = .review ∧
        y.2.submitted ≠ some (content y.1.plan)) ∧
    (∃ y, exec (withGhost (step planKit) note) (start aboutPlan aboutProject, noHistory)
      approvedAfterRejection = some y ∧ y.2.rejected = true ∧ y.1.plan.state = .approved) ∧
    (∃ y, exec (withGhost (step planKit) note) (start aboutPlan aboutProject, noHistory)
      projectEditedTwice = some y ∧ ¬ y.2.projectUpdates.Nodup) := by
  refine ⟨ends_of_any ?_, ends_of_any ?_, ends_of_any ?_, ends_of_any ?_⟩
  · decide +kernel
  · decide +kernel
  · decide +kernel
  · decide +kernel

end Review

end MegaPanel.PagePlans
