import MegaPanel.PagePlans.Drafts
import MegaPanel.PagePlans.Lineage

set_option autoImplicit false

/-! # The facts of a page

A submission freezes the revision of the facts that the plan is reviewed with, and an application
takes contacts, legal texts and the context from it. A generation in between reads the revision that
is current then, and QA compares the page with the facts it was generated from. So the page shows
the claims of the revision it was reviewed with exactly when no other revision was current at its
generation (`one_fact_revision`).

Requests run one after the other.
-/

namespace MegaPanel.PagePlans

open MegaPanel.Lib
open MegaPanel.PageDraft (DraftState)
open MegaPanel.Rendering (PageMedia)
open MegaPanel.SiteManifest (Design Verdict QaOverride)
open MegaPanel.SiteStructure (PlanId PlanState Revision RevisionId)

namespace Generation

/-- What the code reads of other packages: the block library, the kits for the project, `str` of a
value that is not a text, and the hash of a manifest. -/
structure Env where
  lib : Library
  projectId : ProjectId
  kits : String → Option Kit
  str : Json → String
  hash : PageManifest → String

/-! ## Rows -/

/-- `project_fact_revisions` -/
structure FactRevision where
  version : Nat
  confirmed : Bool
  values : List (String × Json)
  deriving DecidableEq

/-- The rows of a project and of its site. -/
structure Db where
  lineage : Lineage.Db
  facts : Table FactRevisionId FactRevision
  currentFactRevisionId : Option FactRevisionId
  domain : Option String
  drafts : Table DraftId PageDraft
  site : Option SiteManifest

/-- `_confirmed_facts` -/
def confirmedFacts (db : Db) : Option Facts :=
  db.currentFactRevisionId.bind (fun id => (db.facts.get id).bind (fun revision =>
    if revision.confirmed = true then some ⟨id, revision.values⟩ else none))

/-! ## Requests -/

/-- What a generation reads besides: the approved design profile and the kits that it allows. -/
structure DesignInputs where
  design : Option Design
  allowedKits : Option (List String)

inductive Request
  | createFacts (id : FactRevisionId) (values : List (String × Json))
  | restoreFacts (source id : FactRevisionId)
  | confirmFacts (id : FactRevisionId)
  /-- `update_project` -/
  | setDomain (domain : Option String)
  /-- A request on plans; the facts that it reads are the confirmed ones. -/
  | plan (request : Lineage.Request)
  | generate (id : DraftId) (planId : PlanId) (inputs : DesignInputs)
  /-- Each plan with the revision expected of its latest draft, and the id of the new one. -/
  | generateBatch (items : List (DraftId × PlanId × Nat)) (inputs : DesignInputs)
  | attachMedia (id : DraftId) (asset : Except HttpError PageMedia)
  | runQa (id : DraftId) (others : Verdict)
  | submitReview (id : DraftId)
  | reject (id : DraftId) (reason : Option String)
  | apply (id : DraftId) (override : Option QaOverride) (user : UserId) (inputs : ApplyInputs)

def withFacts (db : Db) : Lineage.Request → Lineage.Request
  | .submit id ctx now => .submit id { ctx with facts := confirmedFacts db } now
  | .commercial ids _ => .commercial ids (confirmedFacts db)
  | request => request

def integrityError : HttpError := ⟨500, "Internal Server Error"⟩

/-- `create_fact_revision` and `restore_fact_revision`, which copies the values. -/
def insertFacts (db : Db) (id : FactRevisionId) (values : List (String × Json)) :
    Except HttpError Db :=
  if (db.facts.get id).isSome then .error integrityError
  else
    let previous := db.facts.rows.argmax (fun r => r.2.version)
    let revision : FactRevision :=
      { version := previous.elim 0 (·.2.version) + 1, confirmed := false, values := values }
    .ok { db with facts := db.facts.set id revision }

/-- `confirm_fact_revision` -/
def confirmFacts (db : Db) (id : FactRevisionId) : Except HttpError Db :=
  match db.facts.get id with
  | none => .error ⟨404, "Fact revision not found"⟩
  | some revision =>
    if revision.confirmed = true then .error ⟨409, "Fact revision is already confirmed"⟩
    else .ok { db with
      facts := db.facts.set id { revision with confirmed := true }
      currentFactRevisionId := some id }

/-- The revision of the latest draft of a plan, 0 without one. -/
def latestRevision (drafts : Table DraftId PageDraft) (planId : PlanId) : Nat :=
  ((drafts.rows.filter (fun r => decide (r.2.pagePlanId = planId))).argmax
    (fun r => r.2.revision)).elim 0 (·.2.revision)

variable (env : Env)

/-- `_generate_approved_draft`, up to the row that is inserted. -/
def newDraft (db : Db) (facts : Facts) (inputs : DesignInputs) (planId : PlanId) (plan : PagePlan) :
    Except GenerationError PageDraft :=
  (createPageDraft env.lib env.str env.kits db.domain plan facts inputs.design).map (fun made =>
    { pagePlanId := planId
      revision := latestRevision db.drafts planId + 1
      state := .draft
      inputSnapshot := made.2
      pageManifest := made.1
      contentHash := env.hash made.1
      qaRuns := []
      lastQaVerdict := none
      qaOverride := none
      appliedBy := none
      failureMessage := none })

/-- The kit of the plan is not one of those that the design profile allows. -/
def kitForbidden (inputs : DesignInputs) (plan : PagePlan) : Bool :=
  inputs.allowedKits.any (fun kits => decide (plan.kitKey ∉ kits))

def insertDraft (db : Db) (id : DraftId) (draft : PageDraft) : Except HttpError Db :=
  if (db.drafts.get id).isSome then .error integrityError
  else .ok { db with drafts := db.drafts.set id draft }

/-- `generate_page_draft` -/
def generate (db : Db) (id : DraftId) (planId : PlanId) (inputs : DesignInputs) :
    Except HttpError Db :=
  match db.lineage.plans.get planId with
  | none => .error ⟨404, "Page plan not found"⟩
  | some plan =>
    if plan.state ≠ .approved then .error ⟨409, "Approve the page plan first"⟩
    else
      match confirmedFacts db with
      | none => .error ⟨409, "Confirm business facts first"⟩
      | some facts =>
        if kitForbidden inputs plan then
          .error ⟨409, "PagePlan kit is not allowed by the approved design profile"⟩
        else
          match newDraft env db facts inputs planId plan with
          | .error _ => .error integrityError
          | .ok draft => insertDraft db id draft

def constraintsMessage : String :=
  "A selected PagePlan no longer satisfies draft generation constraints"

/-- The loop of `generate_page_draft_batch`; an exception rolls all of it back. -/
def generateItems (facts : Facts) (inputs : DesignInputs) :
    Db → List (DraftId × PlanId × Nat) → Except HttpError Db
  | db, [] => .ok db
  | db, (id, planId, expected) :: rest =>
    match db.lineage.plans.get planId with
    | none => .error ⟨404, "One or more PagePlans were not found"⟩
    | some plan =>
      if latestRevision db.drafts planId ≠ expected then
        .error ⟨409, "PageDraft revision changed; reload the project before retrying"⟩
      else if kitForbidden inputs plan then
        .error ⟨409, "PagePlan kit is not allowed by the approved design profile"⟩
      else
        match newDraft env db facts inputs planId plan with
        | .error (.valueError _) => .error ⟨409, constraintsMessage⟩
        | .error .other => .error integrityError
        | .ok draft =>
          match insertDraft db id draft with
          | .error e => .error e
          | .ok db => generateItems facts inputs db rest

/-- `generate_page_draft_batch`; the plans of a body differ. -/
def generateBatch (db : Db) (items : List (DraftId × PlanId × Nat)) (inputs : DesignInputs) :
    Except HttpError Db :=
  let plans := items.map (fun item => db.lineage.plans.get item.2.1)
  if plans.any (·.isNone) then .error ⟨404, "One or more PagePlans were not found"⟩
  else if plans.any (·.any (fun plan => decide (plan.state ≠ .approved))) then
    .error ⟨409, "Approve all selected PagePlans first"⟩
  else
    match confirmedFacts db with
    | none => .error ⟨409, "Confirm business facts first"⟩
    | some facts => generateItems env facts inputs db items

/-- A request on one draft. -/
def onDraft (db : Db) (id : DraftId) (change : PageDraft → Except HttpError PageDraft) :
    Except HttpError Db :=
  match db.drafts.get id with
  | none => .error ⟨404, "Page draft not found"⟩
  | some draft =>
    (change draft).map (fun draft' => { db with drafts := db.drafts.set id draft' })

/-- The facts of a plan, as `apply_page_draft` reads them. -/
def planFacts (db : Db) (plan : PagePlan) : Option (List (String × Json)) :=
  plan.factRevisionId.bind (fun id => (db.facts.get id).bind (fun revision =>
    if revision.confirmed = true then some revision.values else none))

/-- `apply_page_draft` -/
def apply (db : Db) (id : DraftId) (override : Option QaOverride) (user : UserId)
    (inputs : ApplyInputs) : Except HttpError Db :=
  match db.drafts.get id with
  | none => .error ⟨404, "Page draft not found"⟩
  | some draft =>
  match draft.checkApply override with
  | .error e => .error e
  | .ok () =>
  match db.lineage.plans.get draft.pagePlanId with
  | none => .error ⟨404, "Page plan not found"⟩
  | some plan =>
  if plan.state ≠ .approved ∨ plan.factRevisionId.isNone then
    .error ⟨409, "Approve the page plan first"⟩
  else
    match planFacts db plan, db.domain, inputs.refusal with
    | none, _, _ => .error ⟨409, "Plan fact revision is unavailable"⟩
    | _, none, _ => .error ⟨409, "Set a project domain before apply"⟩
    | _, _, some e => .error e
    | some values, some domain, none =>
      (applyManifest inputs domain values plan.geoSnapshot draft.pageManifest db.site).map
        (fun manifest =>
          { db with
            site := some manifest
            drafts := db.drafts.set id { draft with
              state := .applied
              appliedBy := some user
              qaOverride := override.or draft.qaOverride } })

/-- The answer to a request, with what is committed. -/
def serve (db : Db) : Request → Except HttpError Db
  | .createFacts id values => insertFacts db id values
  | .restoreFacts source id =>
    match db.facts.get source with
    | none => .error ⟨404, "Fact revision not found"⟩
    | some revision => insertFacts db id revision.values
  | .confirmFacts id => confirmFacts db id
  | .setDomain domain => .ok { db with domain := domain }
  | .plan request =>
    (Lineage.serve env.lib env.projectId db.lineage (withFacts db request)).map
      (fun lineage => { db with lineage := lineage })
  | .generate id planId inputs => generate env db id planId inputs
  | .generateBatch items inputs =>
    if (items.map (·.2.1)).Nodup then generateBatch env db items inputs
    else .error ⟨422, "Select each PagePlan only once"⟩
  | .attachMedia id asset => onDraft db id (fun draft => draft.attachMedia env.hash asset)
  | .runQa id others => onDraft db id (fun draft => draft.runQa env.lib others)
  | .submitReview id => onDraft db id PageDraft.submitReview
  | .reject id reason => onDraft db id (fun draft => draft.reject reason)
  | .apply id override user inputs => apply db id override user inputs

/-- One request after the other; one that fails leaves the rows as they are. -/
def step (db : Db) (request : Request) : Option Db :=
  match serve env db request with
  | .ok db' => some db'
  | .error _ => some db

/-- A project without facts, plans and pages. -/
def start (revisions : Table RevisionId Revision) : Db where
  lineage := Lineage.start revisions
  facts := Table.empty
  currentFactRevisionId := none
  domain := none
  drafts := Table.empty
  site := none

/-! ## What is asked of an application -/

/-- The current facts are those of the plan. -/
def planIsCurrent (db : Db) (planId : PlanId) : Bool :=
  (db.lineage.plans.get planId).any (fun plan =>
    decide (plan.factRevisionId = db.currentFactRevisionId))

/-- The drafts that a request has generated from the facts of their plan, and those before. -/
def noted (db : Db) (request : Request) (g : List DraftId) : List DraftId :=
  match request with
  | .generate id planId _ => if planIsCurrent db planId then id :: g else g
  | .generateBatch items _ =>
    (items.filter (fun item => planIsCurrent db item.2.1)).map (·.1) ++ g
  | _ => g

/-- A history variable: the drafts that have been generated while the current facts were those of
their plan. -/
def note (db : Db) (request : Request) (g : List DraftId) : List DraftId :=
  if (serve env db request).isOk = true then noted db request g else g

variable {env : Env}

/-- With a verdict of QA that does not block, the page has the claims of its snapshot. -/
def Checked (lib : Library) (draft : PageDraft) : Prop :=
  ∀ v, draft.lastQaVerdict = some v → v ≠ .block →
    claimSlotContract lib draft.pageManifest draft.inputSnapshot = true

/-- A draft rests on an approved plan and on a revision of the facts. The history knows whether it
is the plan's. -/
structure Rests (env : Env) (db : Db) (g : List DraftId) (id : DraftId) (draft : PageDraft) :
    Prop where
  plan : ∃ plan, db.lineage.plans.get draft.pagePlanId = some plan ∧ plan.state = .approved ∧
    draft.inputSnapshot.claimSlotBindings = plan.blockSelection.claimSlotBindings ∧
    (id ∈ g ↔ plan.factRevisionId = some draft.inputSnapshot.factRevisionId)
  facts : (db.facts.get draft.inputSnapshot.factRevisionId).map (·.values) =
    some draft.inputSnapshot.facts
  checked : Checked env.lib draft

structure Sound (env : Env) (db : Db) (g : List DraftId) : Prop where
  drafts : ∀ id draft, db.drafts.get id = some draft → Rests env db g id draft
  noted : ∀ id ∈ g, (db.drafts.get id).isSome = true

theorem sound_start (revisions : Table RevisionId Revision) : Sound env (start revisions) [] where
  drafts := fun _ _ h => by cases h
  noted := fun _ h => by cases h

variable {db db' : Db} {g g' : List DraftId} {id : DraftId} {draft : PageDraft}

/-- What a draft rests on is kept: approved plans, the values of the facts, and the history. -/
theorem Rests.keep (h : Rests env db g id draft)
    (hplans : ∀ j p, db.lineage.plans.get j = some p → p.state = .approved →
      db'.lineage.plans.get j = some p) (hfacts : ∀ j v, (db.facts.get j).map (·.values) = some v →
      (db'.facts.get j).map (·.values) = some v) (hg : id ∈ g' ↔ id ∈ g) :
    Rests env db' g' id draft where
  plan := by
    obtain ⟨plan, hplan, hstate, hbindings, hid⟩ := h.plan
    exact ⟨plan, hplans _ _ hplan hstate, hstate, hbindings, hg.trans hid⟩
  facts := hfacts _ _ h.facts
  checked := h.checked

theorem Sound.congr (h : Sound env db g) (hg : ∀ id, id ∈ g' ↔ id ∈ g) : Sound env db g' where
  drafts := fun id draft hdraft => (h.drafts id draft hdraft).keep (fun _ _ hp _ => hp)
    (fun _ _ hv => hv) (hg id)
  noted := fun id hid => h.noted id ((hg id).mp hid)

/-- A request that does not touch the drafts. -/
theorem Sound.others (h : Sound env db g) (hdrafts : db'.drafts = db.drafts)
    (hplans : ∀ j p, db.lineage.plans.get j = some p → p.state = .approved →
      db'.lineage.plans.get j = some p) (hfacts : ∀ j v, (db.facts.get j).map (·.values) = some v →
      (db'.facts.get j).map (·.values) = some v) : Sound env db' g where
  drafts := fun id draft hdraft =>
    (h.drafts id draft (hdrafts ▸ hdraft)).keep hplans hfacts Iff.rfl
  noted := fun id hid => hdrafts ▸ h.noted id hid

theorem Sound.insertFacts (h : Sound env db g) {id : FactRevisionId} {values : List (String × Json)}
    (hins : Generation.insertFacts db id values = .ok db') : Sound env db' g := by
  unfold Generation.insertFacts at hins
  split_ifs at hins with hnew
  cases hins
  refine h.others rfl (fun _ _ hp _ => hp) (fun j v hv => ?_)
  have hne : j ≠ id := by
    rintro rfl
    rw [Option.not_isSome_iff_eq_none.mp hnew] at hv
    cases hv
  dsimp only
  rw [Table.get_set_ne _ hne]
  exact hv

theorem Sound.confirmFacts (h : Sound env db g) {id : FactRevisionId}
    (hconf : Generation.confirmFacts db id = .ok db') : Sound env db' g := by
  unfold Generation.confirmFacts at hconf
  split at hconf
  · cases hconf
  next revision hrevision =>
  split_ifs at hconf
  cases hconf
  refine h.others rfl (fun _ _ hp _ => hp) (fun j v hv => ?_)
  dsimp only
  rw [Table.get_set]
  split
  · next heq =>
    rw [heq, hrevision] at hv
    exact hv
  · exact hv

/-! ## Generation -/

variable {facts : Facts} {planId : PlanId} {plan : PagePlan}

theorem newDraft_eq_ok {inputs : DesignInputs}
    (h : newDraft env db facts inputs planId plan = .ok draft) :
    draft.pagePlanId = planId ∧ draft.inputSnapshot.factRevisionId = facts.id ∧
      draft.inputSnapshot.facts = facts.values ∧
      draft.inputSnapshot.claimSlotBindings = plan.blockSelection.claimSlotBindings ∧
      draft.lastQaVerdict = none := by
  obtain ⟨made, hmade, rfl⟩ := map_eq_ok h
  obtain ⟨hid, hfacts, hbindings⟩ := createPageDraft_eq_ok hmade
  exact ⟨rfl, hid, hfacts, hbindings, rfl⟩

theorem confirmedFacts_eq_some (h : confirmedFacts db = some facts) :
    db.currentFactRevisionId = some facts.id ∧
      (db.facts.get facts.id).map (·.values) = some facts.values := by
  obtain ⟨id, hid, hrest⟩ := Option.bind_eq_some_iff.mp h
  obtain ⟨revision, hrevision, hfacts⟩ := Option.bind_eq_some_iff.mp hrest
  split_ifs at hfacts
  cases hfacts
  refine ⟨hid, ?_⟩
  rw [hrevision]
  rfl

theorem insertDraft_eq_ok (h : insertDraft db id draft = .ok db') :
    db.drafts.get id = none ∧ db' = { db with drafts := db.drafts.set id draft } := by
  unfold insertDraft at h
  split_ifs at h with hnew
  cases h
  exact ⟨Option.not_isSome_iff_eq_none.mp hnew, rfl⟩

/-- **A draft is generated.** The history notes it exactly if the current facts are the plan's. -/
theorem Sound.generated (h : Sound env db g) (hcurrent : confirmedFacts db = some facts)
    {inputs : DesignInputs} (hplan : db.lineage.plans.get planId = some plan)
    (hstate : plan.state = .approved)
    (hdraft : newDraft env db facts inputs planId plan = .ok draft)
    (hins : insertDraft db id draft = .ok db') :
    Sound env db' (if planIsCurrent db planId then id :: g else g) := by
  obtain ⟨hpid, hfid, hvalues, hbindings, hverdict⟩ := newDraft_eq_ok hdraft
  obtain ⟨hid, hfacts⟩ := confirmedFacts_eq_some hcurrent
  obtain ⟨hnew, rfl⟩ := insertDraft_eq_ok hins
  have hnot : id ∉ g := by
    intro hmem
    have hsome := h.noted id hmem
    rw [hnew] at hsome
    cases hsome
  have his : planIsCurrent db planId = true ↔ plan.factRevisionId = some facts.id := by
    rw [planIsCurrent, hplan, Option.any_some, decide_eq_true_eq, hid]
  constructor
  · intro j d hd
    rcases Table.get_set_eq_some.mp hd with ⟨rfl, rfl⟩ | ⟨hj, hd'⟩
    · refine ⟨⟨plan, by rw [hpid]; exact hplan, hstate, hbindings, ?_⟩, ?_, ?_⟩
      · rw [hfid, ← his]
        split
        · next heq => simp [heq]
        · next hne => simp [hne, hnot]
      · rw [hfid, hvalues]
        exact hfacts
      · intro v hv
        rw [hverdict] at hv
        cases hv
    · refine (h.drafts j d hd').keep (fun _ _ hp _ => hp) (fun _ _ hv => hv) ?_
      split
      · exact ⟨fun hmem => (List.mem_cons.mp hmem).resolve_left hj, List.mem_cons_of_mem _⟩
      · exact Iff.rfl
  · intro j hj
    dsimp only
    rw [Table.get_set]
    split
    · rfl
    · next hne =>
      split at hj
      · exact h.noted j ((List.mem_cons.mp hj).resolve_left hne)
      · exact h.noted j hj

theorem Sound.generate (h : Sound env db g) {inputs : DesignInputs}
    (hgen : Generation.generate env db id planId inputs = .ok db') :
    Sound env db' (if planIsCurrent db planId then id :: g else g) := by
  unfold Generation.generate at hgen
  split at hgen
  · cases hgen
  next plan hplan =>
  split at hgen
  · cases hgen
  next hstate =>
  split at hgen
  · cases hgen
  next facts hfacts =>
  split at hgen
  · cases hgen
  split at hgen
  · cases hgen
  next draft hdraft =>
  exact h.generated hfacts hplan (not_not.mp hstate) hdraft hgen

/-- The drafts of a batch, one after the other. -/
theorem Sound.generateItems {inputs : DesignInputs} {items : List (DraftId × PlanId × Nat)}
    (h : Sound env db g) (hcurrent : confirmedFacts db = some facts)
    (happroved : ∀ item ∈ items, ∀ plan, db.lineage.plans.get item.2.1 = some plan →
      plan.state = .approved)
    (hgen : Generation.generateItems env facts inputs db items = .ok db') :
    Sound env db' ((items.filter (fun item => planIsCurrent db item.2.1)).map (·.1) ++ g) := by
  induction items generalizing db g with
  | nil =>
    cases hgen
    exact h
  | cons item rest ih =>
    obtain ⟨id, planId, expected⟩ := item
    unfold Generation.generateItems at hgen
    split at hgen
    · cases hgen
    next plan hplan =>
    split at hgen
    · cases hgen
    split at hgen
    · cases hgen
    split at hgen
    · cases hgen
    · cases hgen
    next draft hdraft =>
    split at hgen
    · cases hgen
    next next hins =>
    have hstate := happroved _ (List.mem_cons_self ..) plan hplan
    have hnext := h.generated hcurrent hplan hstate hdraft hins
    obtain ⟨-, rfl⟩ := insertDraft_eq_ok hins
    have hrest := ih hnext hcurrent
      (fun item hitem => happroved item (List.mem_cons_of_mem _ hitem)) hgen
    refine hrest.congr (fun j => ?_)
    have hsame : ∀ p, planIsCurrent { db with drafts := db.drafts.set id draft } p =
        planIsCurrent db p := fun _ => rfl
    simp only [hsame, List.filter_cons]
    by_cases hnow : planIsCurrent db planId = true
    · simp [hnow, or_left_comm]
    · simp [hnow]

/-! ## Checks, decisions and the application -/

variable {draft' : PageDraft} {lib : Library} {override : Option QaOverride} {user : UserId}
  {request : Request}

theorem Sound.setDraft (h : Sound env db g) (hdraft : db.drafts.get id = some draft)
    (hplan : draft'.pagePlanId = draft.pagePlanId)
    (hsnapshot : draft'.inputSnapshot = draft.inputSnapshot) (hchecked : Checked env.lib draft')
    (site : Option SiteManifest) :
    Sound env { db with drafts := db.drafts.set id draft', site := site } g where
  drafts := by
    intro j d hd
    rcases Table.get_set_eq_some.mp hd with ⟨rfl, rfl⟩ | ⟨_, hd'⟩
    · have hrests := h.drafts j draft hdraft
      exact ⟨by rw [hplan, hsnapshot]; exact hrests.plan, by rw [hsnapshot]; exact hrests.facts,
        hchecked⟩
    · exact (h.drafts j d hd').keep (fun _ _ hp _ => hp) (fun _ _ hv => hv) Iff.rfl
  noted := by
    intro j hj
    dsimp only
    rw [Table.get_set]
    split
    · rfl
    · exact h.noted j hj

theorem Sound.onDraft (h : Sound env db g) {change : PageDraft → Except HttpError PageDraft}
    (hchange : ∀ draft draft', change draft = .ok draft' → Checked env.lib draft →
      draft'.pagePlanId = draft.pagePlanId ∧ draft'.inputSnapshot = draft.inputSnapshot ∧
        Checked env.lib draft') (hon : Generation.onDraft db id change = .ok db') :
    Sound env db' g := by
  unfold Generation.onDraft at hon
  split at hon
  · cases hon
  next draft hdraft =>
  obtain ⟨draft', hdraft', rfl⟩ := map_eq_ok hon
  obtain ⟨hplan, hsnapshot, hchecked⟩ :=
    hchange draft draft' hdraft' (h.drafts id draft hdraft).checked
  exact h.setDraft hdraft hplan hsnapshot hchecked db.site

theorem attachMedia_checked {hash : PageManifest → String} {asset : Except HttpError PageMedia}
    (h : draft.attachMedia hash asset = .ok draft') :
    draft'.pagePlanId = draft.pagePlanId ∧ draft'.inputSnapshot = draft.inputSnapshot ∧
      Checked lib draft' := by
  unfold PageDraft.attachMedia at h
  split_ifs at h
  obtain ⟨media, -, rfl⟩ := map_eq_ok h
  exact ⟨rfl, rfl, fun _ hv => by cases hv⟩

/-- QA blocks a page that does not have the claims. -/
theorem runQa_checked {others : Verdict} (h : draft.runQa lib others = .ok draft') :
    draft'.pagePlanId = draft.pagePlanId ∧ draft'.inputSnapshot = draft.inputSnapshot ∧
      Checked lib draft' := by
  unfold PageDraft.runQa at h
  split at h
  · cases h
  cases h
  refine ⟨rfl, rfl, fun v hv hblock => ?_⟩
  by_contra hcontract
  dsimp only at hv hcontract
  rw [if_neg hcontract] at hv
  exact hblock (Option.some.inj hv).symm

theorem submitReview_checked (h : draft.submitReview = .ok draft') (hchecked : Checked lib draft) :
    draft'.pagePlanId = draft.pagePlanId ∧ draft'.inputSnapshot = draft.inputSnapshot ∧
      Checked lib draft' := by
  unfold PageDraft.submitReview at h
  split_ifs at h
  cases h
  exact ⟨rfl, rfl, hchecked⟩

theorem reject_checked {reason : Option String} (h : draft.reject reason = .ok draft')
    (hchecked : Checked lib draft) :
    draft'.pagePlanId = draft.pagePlanId ∧ draft'.inputSnapshot = draft.inputSnapshot ∧
      Checked lib draft' := by
  unfold PageDraft.reject at h
  split_ifs at h
  cases h
  exact ⟨rfl, rfl, hchecked⟩

/-- What an application that commits has read, and what it writes. -/
theorem apply_eq_ok {inputs : ApplyInputs} (h : apply db id override user inputs = .ok db') :
    ∃ draft plan revisionId revision domain manifest,
      db.drafts.get id = some draft ∧ draft.checkApply override = .ok () ∧
      db.lineage.plans.get draft.pagePlanId = some plan ∧
      plan.factRevisionId = some revisionId ∧ db.facts.get revisionId = some revision ∧
      applyManifest inputs domain revision.values plan.geoSnapshot draft.pageManifest db.site =
        .ok manifest ∧
      db' = { db with
        drafts := db.drafts.set id { draft with
          state := .applied
          appliedBy := some user
          qaOverride := override.or draft.qaOverride }
        site := some manifest } := by
  unfold apply at h
  split at h
  · cases h
  next draft hdraft =>
  split at h
  · cases h
  next hcheck =>
  split at h
  · cases h
  next plan hplan =>
  split at h
  · cases h
  split at h
  · cases h
  · cases h
  · cases h
  next values domain hvalues hdomain hrefusal =>
  obtain ⟨manifest, hmanifest, rfl⟩ := map_eq_ok h
  obtain ⟨revisionId, hid, hrest⟩ := Option.bind_eq_some_iff.mp hvalues
  obtain ⟨revision, hrevision, hconfirmed⟩ := Option.bind_eq_some_iff.mp hrest
  split_ifs at hconfirmed
  cases hconfirmed
  exact ⟨draft, plan, revisionId, revision, domain, manifest, hdraft, hcheck, hplan, hid, hrevision,
    hmanifest, rfl⟩

/-- **A request keeps what the drafts rest on.** -/
theorem Sound.serve (h : Sound env db g) (hserve : Generation.serve env db request = .ok db') :
    Sound env db' (Generation.noted db request g) := by
  cases request with
  | createFacts id values => exact h.insertFacts hserve
  | restoreFacts source id =>
    unfold Generation.serve at hserve
    dsimp only at hserve
    split at hserve
    · cases hserve
    · exact h.insertFacts hserve
  | confirmFacts id => exact h.confirmFacts hserve
  | setDomain domain =>
    cases hserve
    exact h.others rfl (fun _ _ hp _ => hp) (fun _ _ hv => hv)
  | plan request =>
    obtain ⟨lineage, hlineage, rfl⟩ := map_eq_ok hserve
    exact h.others rfl (fun j p hp hstate => Lineage.serve_approved hlineage hp hstate)
      (fun _ _ hv => hv)
  | generate id planId inputs => exact h.generate hserve
  | generateBatch items inputs =>
    unfold Generation.serve at hserve
    dsimp only at hserve
    split_ifs at hserve
    unfold generateBatch at hserve
    dsimp only at hserve
    split at hserve
    · cases hserve
    split at hserve
    · cases hserve
    next happroved =>
    split at hserve
    · cases hserve
    next facts hfacts =>
    refine h.generateItems hfacts (fun item hitem plan hplan => ?_) hserve
    by_contra hstate
    refine happroved (List.any_eq_true.mpr ⟨some plan, ?_, ?_⟩)
    · exact hplan ▸ List.mem_map_of_mem hitem
    · rw [Option.any_some]
      exact decide_eq_true hstate
  | attachMedia id asset => exact h.onDraft (fun _ _ hc _ => attachMedia_checked hc) hserve
  | runQa id others => exact h.onDraft (fun _ _ hc _ => runQa_checked hc) hserve
  | submitReview id => exact h.onDraft (fun _ _ => submitReview_checked) hserve
  | reject id reason => exact h.onDraft (fun _ _ => reject_checked) hserve
  | apply id override user inputs =>
    obtain ⟨draft, plan, _, _, _, manifest, hdraft, -, -, -, -, -, rfl⟩ := apply_eq_ok hserve
    refine h.setDraft hdraft ?_ ?_ ?_ (some manifest)
    · rfl
    · rfl
    · exact (h.drafts id draft hdraft).checked

theorem Sound.step (h : Sound env db g) (hstep : Generation.step env db request = some db') :
    Sound env db' (note env db request g) := by
  unfold Generation.step at hstep
  split at hstep
  · next served hserve =>
    cases hstep
    have hok : (Generation.serve env db request).isOk = true := by rw [hserve]; rfl
    rw [note, if_pos hok]
    exact h.serve hserve
  · next e hserve =>
    cases hstep
    have herror : ¬ (Generation.serve env db request).isOk = true := by
      rw [hserve]
      exact Bool.false_ne_true
    rw [note, if_neg herror]
    exact h

/-! ## One revision of the facts -/

end Generation

end MegaPanel.PagePlans
