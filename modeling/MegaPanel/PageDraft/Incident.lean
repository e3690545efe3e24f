import MegaPanel.PageDraft.Gate

set_option autoImplicit false

/-! # The incident of blocked drafts

A QA run that blocks opens the incident `qa-block` of the tenant in the transaction that stores its
verdict (`observe_alert`), and `auto_resolve_inactive_incidents` (`services/operations.py`) closes
it when no row of the tenant's drafts has the verdict `block`. The column says nothing of the
state: a rejection leaves it as it is, and a request that commits over another one can leave the
verdict of other content. `qa_incident_exact` says that sweeps are exact along every run without
such commits; `qa_incident_rejected` is a run with a rejection.

The drafts of each project are those of `System.lean`. A sweep that finds the incident locked by a
QA run skips it and is no step here.
-/

namespace MegaPanel.PageDraft

open MegaPanel.Lib

/-! ## The drafts of a tenant -/

/-- `rows` are the keys of the drafts, and the incident is open or acknowledged, or there is none
such. -/
structure Tenant where
  projects : ProjectId → World
  rows : List (ProjectId × DraftId)
  incident : Bool

inductive TenantAction
  | draft (project : ProjectId) (a : Action)
  /-- A run of `auto_resolve_inactive_incidents` that locks the incident -/
  | autoResolve

/-- The commit of a QA run that blocks. -/
def observesBlock (w : World) : Action → Bool
  | .commit rid =>
    (w.pending rid).any (fun p =>
      decide (p.work = .qa) && decide (p.current.lastQaVerdict = some .block))
  | _ => false

/-- `PageDraft.last_qa_verdict == "block"` -/
def Tenant.blocks (t : Tenant) (row : ProjectId × DraftId) : Bool :=
  ((t.projects row.1).drafts row.2).any (fun draft => decide (draft.lastQaVerdict = some .block))

/-- The tenant's entry of `blocking_counts`. -/
def Tenant.blockingCount (t : Tenant) : Nat := (t.rows.filter t.blocks).length

def createdRow (project : ProjectId) : Action → List (ProjectId × DraftId)
  | .create id _ _ => [(project, id)]
  | _ => []

def tenantStep (dumps : PageManifest → String) (t : Tenant) : TenantAction → Option Tenant
  | .draft project a =>
    (step dumps (t.projects project) a).map (fun w =>
      { projects := Function.update t.projects project w
        rows := t.rows ++ createdRow project a
        incident := t.incident || observesBlock (t.projects project) a })
  | .autoResolve =>
    if t.incident then some { t with incident := decide (t.blockingCount > 0) } else none

structure Tenant.Init (t : Tenant) : Prop where
  projects : ∀ project, PageDraft.Init (t.projects project)
  rows : t.rows = []

/-! ## The property -/

def DraftState.isCandidate (state : DraftState) : Bool :=
  decide (state = .draft) || decide (state = .review)

/-- `run_draft_qa` accepts the draft, and the QA run of its current content blocks. -/
def Draft.Blocked (draft : Draft) : Prop :=
  draft.state.isCandidate = true ∧ ∃ run, draft.currentQaRun = some run ∧ run.verdict = .block

/-- After a sweep the incident is open exactly when some draft is blocked. -/
def Exact (_ : Tenant) (a : TenantAction) (t : Tenant) : Prop :=
  a = .autoResolve → (t.incident = true ↔
    ∃ project id draft, (t.projects project).drafts id = some draft ∧ draft.Blocked)

/-! ## The condition -/

/-- No rejection or application commits on a draft whose stored verdict is `block`. Where the
verdict is `block` after the commit of a QA run, it is that of the run, the draft is still a
candidate, and its content is the one that was checked. -/
def Pending.undisturbed (p : Pending) (stored : Draft) : Bool :=
  match p.work with
  | .qa =>
    !decide (writeCol p.loaded.lastQaVerdict p.current.lastQaVerdict stored.lastQaVerdict =
        some .block) ||
      (decide (p.current.lastQaVerdict = some .block) && stored.state.isCandidate &&
        decide (stored.contentHash = p.loaded.contentHash))
  | .submit => true
  | .reject => decide (stored.lastQaVerdict ≠ some .block)
  | .apply .. => decide (stored.lastQaVerdict ≠ some .block)

def undisturbed (t : Tenant) : TenantAction → Bool
  | .draft project (.commit rid) =>
    ((t.projects project).pending rid).all (fun p =>
      ((t.projects project).drafts p.id).all p.undisturbed)
  | _ => true

/-! ## Verdicts of the current content -/

/-- The draft has a content hash, and a verdict that blocks is that of its current QA run. -/
structure Draft.Truthful (draft : Draft) : Prop where
  hashed : ∃ contentHash, draft.contentHash = some contentHash ∧ contentHash ≠ ""
  blocked : draft.lastQaVerdict = some .block → draft.Blocked

theorem currentQaRun_verdict {draft : Draft} {run : QaRun} (h : draft.currentQaRun = some run) :
    draft.lastQaVerdict = some run.verdict := by
  unfold Draft.currentQaRun at h
  split at h
  · split_ifs at h with _ hmismatch
    cases h
    rw [not_or, not_not, not_not] at hmismatch
    exact hmismatch.2.symm
  · cases h

/-- The latest run, when it is of the content the draft has and its verdict is stored. -/
theorem currentQaRun_latest {draft : Draft} {run : QaRun} {contentHash : String}
    (hruns : draft.qaRuns.getLast? = some run) (hhash : draft.contentHash = some contentHash)
    (hne : contentHash ≠ "") (hsource : run.sourceHash = some contentHash)
    (hverdict : draft.lastQaVerdict = some run.verdict) : draft.currentQaRun = some run := by
  have hmatch : ¬ (run.sourceHash ≠ some contentHash ∨ some run.verdict ≠ draft.lastQaVerdict) := by
    rw [hsource, hverdict]
    simp
  unfold Draft.currentQaRun
  rw [hruns, hhash]
  dsimp only
  rw [if_neg hne, if_neg hmatch]

theorem Draft.Blocked.verdict {draft : Draft} (h : draft.Blocked) :
    draft.lastQaVerdict = some .block := by
  obtain ⟨_, run, hrun, hblock⟩ := h
  rw [currentQaRun_verdict hrun, hblock]

theorem sha256Hex_ne_empty (text : String) : Sha256.sha256Hex text ≠ "" := by
  intro h
  have hsha := Sha256.isSha256_sha256Hex text
  rw [h] at hsha
  exact absurd hsha (by decide)

variable {dumps : PageManifest → String} {draft : Draft}

theorem truthful_newDraft {page : PageManifest} {origin : Origin}
    (h : newDraft dumps page origin = .ok draft) : draft.Truthful := by
  unfold newDraft at h
  split_ifs at h
  all_goals
    cases h
    refine ⟨⟨_, rfl, ?_⟩, fun hblock => nomatch hblock⟩
    cases origin with
    | _ => exact sha256Hex_ne_empty _

theorem truthful_edit {draft' : Draft} {edit : Edit} (h : draft.edit dumps edit = .ok draft') :
    draft'.Truthful := by
  unfold Draft.edit at h
  split at h
  · cases h
  split at h
  · cases h
  split at h
  · cases h
  split at h
  · cases h
    exact ⟨⟨_, rfl, sha256Hex_ne_empty _⟩, fun hblock => nomatch hblock⟩
  · cases h

/-- What a request commits is truthful where the row was and nothing has disturbed it. -/
theorem truthful_flush {p : Pending} {stored : Draft} (hp : Started p) (h : stored.Truthful)
    (hundisturbed : p.undisturbed stored = true) :
    (Draft.flush p.loaded p.current stored).Truthful := by
  have hhash : (Draft.flush p.loaded p.current stored).contentHash = stored.contentHash :=
    congrArg Prod.snd (flush_content hp stored)
  obtain ⟨contentHash, hstored, hne⟩ := h.hashed
  refine ⟨⟨contentHash, hhash.trans hstored, hne⟩, fun hblock => ?_⟩
  have hverdict : writeCol p.loaded.lastQaVerdict p.current.lastQaVerdict stored.lastQaVerdict =
      some .block := hblock
  cases hp with
  | qa result hwork hcurrent =>
    simp only [Pending.undisturbed, hwork, hverdict, decide_true, Bool.not_true, Bool.false_or,
      Bool.and_eq_true, decide_eq_true_eq] at hundisturbed
    obtain ⟨⟨hown, hstate⟩, hsame⟩ := hundisturbed
    -- the runs are those the request has read and its own
    have hruns : (Draft.flush p.loaded p.current stored).qaRuns = p.loaded.qaRuns ++
        [⟨p.loaded.contentHash, result.verdict, result.findings, result.createdAt⟩] := by
      show writeCol p.loaded.qaRuns p.current.qaRuns stored.qaRuns = _
      rw [hcurrent]
      exact writeCol_dirty (fun heq => absurd (congrArg List.length heq) (by simp)) _
    have hresult : result.verdict = .block := by
      rw [hcurrent] at hown
      exact Option.some.inj hown
    refine ⟨?_, _, currentQaRun_latest (by rw [hruns, List.getLast?_concat]) (hhash.trans hstored)
      hne (hsame.symm.trans hstored) ?_, hresult⟩
    · show (writeCol p.loaded.state p.current.state stored.state).isCandidate = true
      rw [hcurrent, writeCol_clean]
      exact hstate
    · rw [hblock, hresult]
  | submit hwork hcurrent hstate =>
    rw [hcurrent, writeCol_clean] at hverdict
    obtain ⟨_, run, hrun, hrunBlock⟩ := h.blocked hverdict
    refine ⟨?_, run, ?_, hrunBlock⟩
    · show (writeCol p.loaded.state p.current.state stored.state).isCandidate = true
      rw [hcurrent, hstate]
      rfl
    · rw [← hrun]
      simp only [Draft.currentQaRun, Draft.flush, hcurrent, writeCol_clean]
  | reject message hwork hcurrent _ =>
    simp only [Pending.undisturbed, hwork, decide_eq_true_eq] at hundisturbed
    rw [hcurrent, writeCol_clean] at hverdict
    exact absurd hverdict hundisturbed
  | apply page override ctx user hwork hcurrent _ _ =>
    simp only [Pending.undisturbed, hwork, decide_eq_true_eq] at hundisturbed
    rw [hcurrent] at hverdict
    exact absurd ((writeCol_clean _ _).symm.trans hverdict) hundisturbed

/-! ## Every run -/

/-- **What holds of the drafts of a project after a step**: what held of them before, and holds of
those that are created, edited or committed. -/
theorem drafts_step {w w' : World} {a : Action} {P : DraftId → Draft → Prop}
    (hstep : step dumps w a = some w') (hkept : ∀ id draft, w.drafts id = some draft → P id draft)
    (hcreate : ∀ id page origin new, a = .create id page origin →
      newDraft dumps page origin = .ok new → P id new)
    (hedit : ∀ id edit old new, w.drafts id = some old → old.edit dumps edit = .ok new → P id new)
    (hcommit : ∀ rid p stored, a = .commit rid → w.pending rid = some p →
      w.drafts p.id = some stored → P p.id (Draft.flush p.loaded p.current stored)) :
    ∀ id draft, w'.drafts id = some draft → P id draft := by
  have hset : ∀ {changed : DraftId} {new : Draft}, P changed new →
      ∀ id draft, Function.update w.drafts changed (some new) id = some draft → P id draft := by
    intro changed new hnew id draft hdraft
    by_cases heq : id = changed
    · subst heq
      rw [Function.update_self] at hdraft
      exact Option.some.inj hdraft ▸ hnew
    · rw [Function.update_of_ne heq] at hdraft
      exact hkept id draft hdraft
  cases step_move hstep with
  | create id page origin new _ hnew => exact hset (hcreate id page origin new rfl hnew)
  | edit id edit old new hold hnew => exact hset (hedit id edit old new hold hnew)
  | start rid request p _ _ _ => exact hkept
  | commit rid p stored hp hstored => exact hset (hcommit rid p stored rfl hp hstored)
  | abort rid => exact hkept

/-- Every draft has its row. -/
def Tenant.Listed (t : Tenant) : Prop :=
  ∀ project id draft, (t.projects project).drafts id = some draft → (project, id) ∈ t.rows

/-- Requests know their drafts, and these are truthful. -/
structure Tenant.Sound (t : Tenant) : Prop where
  known : ∀ project, AllKnown (t.projects project)
  truthful : ∀ project id draft, (t.projects project).drafts id = some draft → draft.Truthful
  listed : t.Listed

variable {t u : Tenant}

/-- What holds of the worlds of all projects is kept by a step that keeps it in one. -/
theorem projects_update {Q : ProjectId → World → Prop} {project : ProjectId} {w : World}
    (h : ∀ other, Q other (t.projects other)) (hw : Q project w) (other : ProjectId) :
    Q other (Function.update t.projects project w other) := by
  by_cases heq : other = project
  · subst heq
    rw [Function.update_self]
    exact hw
  · rw [Function.update_of_ne heq]
    exact h other

theorem Tenant.Init.listed (h : t.Init) : t.Listed := by
  intro project id draft hdraft
  rw [(h.projects project).drafts id] at hdraft
  cases hdraft

theorem Tenant.Listed.step {a : TenantAction} (h : t.Listed)
    (hstep : tenantStep dumps t a = some u) : u.Listed := by
  cases a with
  | autoResolve =>
    simp only [tenantStep] at hstep
    split_ifs at hstep
    cases hstep
    exact h
  | draft project a =>
    obtain ⟨w, hw, rfl⟩ := Option.map_eq_some_iff.mp hstep
    have hold : ∀ other id draft, (t.projects other).drafts id = some draft →
        (other, id) ∈ t.rows ++ createdRow project a :=
      fun other id draft hdraft => List.mem_append_left _ (h other id draft hdraft)
    refine projects_update (Q := fun other w => ∀ id draft, w.drafts id = some draft →
      (other, id) ∈ t.rows ++ createdRow project a) hold (drafts_step hw (hold project) ?_ ?_ ?_)
    · rintro id page origin new rfl _
      exact List.mem_append_right _ (List.mem_singleton.mpr rfl)
    · exact fun id edit old new hdraft _ => hold project id old hdraft
    · exact fun rid p stored _ _ hstored => hold project p.id stored hstored

theorem Tenant.Init.sound (h : t.Init) : t.Sound where
  known project rid p hp := by
    rw [(h.projects project).pending rid] at hp
    cases hp
  truthful project id draft hdraft := by
    rw [(h.projects project).drafts id] at hdraft
    cases hdraft
  listed := h.listed

theorem Tenant.Sound.step {a : TenantAction} (h : t.Sound) (hundisturbed : undisturbed t a = true)
    (hstep : tenantStep dumps t a = some u) : u.Sound := by
  have hlisted := h.listed.step hstep
  cases a with
  | autoResolve =>
    simp only [tenantStep] at hstep
    split_ifs at hstep
    cases hstep
    exact ⟨h.known, h.truthful, hlisted⟩
  | draft project a =>
    obtain ⟨w, hw, rfl⟩ := Option.map_eq_some_iff.mp hstep
    refine ⟨?_, ?_, hlisted⟩
    · exact projects_update (Q := fun _ w => AllKnown w) h.known ((h.known project).step hw)
    · refine projects_update (Q := fun _ w => ∀ id draft, w.drafts id = some draft → draft.Truthful)
        h.truthful (drafts_step hw (h.truthful project) ?_ ?_ ?_)
      · exact fun id page origin new _ hnew => truthful_newDraft hnew
      · exact fun id edit old new _ hnew => truthful_edit hnew
      · rintro rid p stored rfl hp hstored
        simp only [undisturbed, hp, hstored, Option.all_some] at hundisturbed
        obtain ⟨_, _, hknown⟩ := h.known project rid p hp
        exact truthful_flush hknown.started (h.truthful project p.id stored hstored) hundisturbed

/-- The count is of blocked drafts. -/
theorem Tenant.Sound.exact {a : TenantAction} (h : t.Sound)
    (hstep : tenantStep dumps t a = some u) : Exact t a u := by
  rintro rfl
  simp only [tenantStep] at hstep
  split_ifs at hstep
  cases hstep
  refine decide_eq_true_iff.trans (List.length_pos_iff_exists_mem.trans ?_)
  constructor
  · rintro ⟨row, hrow⟩
    obtain ⟨draft, hdraft, hblock⟩ := (Option.any_eq_true _ _).mp (List.mem_filter.mp hrow).2
    exact ⟨row.1, row.2, draft, hdraft,
      (h.truthful row.1 row.2 draft hdraft).blocked (of_decide_eq_true hblock)⟩
  · rintro ⟨project, id, draft, hdraft, hblocked⟩
    refine ⟨(project, id), List.mem_filter.mpr ⟨h.listed project id draft hdraft, ?_⟩⟩
    exact (Option.any_eq_true _ _).mpr ⟨draft, hdraft, decide_eq_true hblocked.verdict⟩

/-- **Along every run in which no commit leaves the verdict `block` on a draft that is no candidate
or has other content, every sweep leaves the incident open exactly when some candidate draft is
blocked.** -/
theorem qa_incident_exact (dumps : PageManifest → String) (h : t.Init) (as : List TenantAction)
    (hundisturbed : Along (tenantStep dumps) (fun s a _ => undisturbed s a = true) t as) :
    Along (tenantStep dumps) Exact t as :=
  along_rule (I := Tenant.Sound) (G := fun s a _ => undisturbed s a = true)
    (fun _ _ _ hs hu hst => ⟨hs.step hu hst, hs.exact hst⟩) h.sound hundisturbed

/-! ## A rejected draft -/

def Tenant.empty : Tenant := ⟨fun _ => World.empty, [], false⟩

theorem Tenant.empty_init : Tenant.empty.Init := ⟨fun _ => World.empty_init, rfl⟩

/-- A draft is created and its QA run blocks. -/
def blockedRun : List TenantAction :=
  [.draft 1 (.create 1 homePage .generated),
    .draft 1 (.start 1 (.qa 1 ⟨.block, ["duplicate"], 0⟩)), .draft 1 (.commit 1)]

theorem qa_incident_exact_blocked :
    Along (tenantStep PageManifest.slug) Exact Tenant.empty (blockedRun ++ [.autoResolve]) :=
  qa_incident_exact PageManifest.slug Tenant.empty_init _ (by decide +kernel)

/-- The draft is then rejected. -/
def rejectedRun : List TenantAction :=
  blockedRun ++ [.draft 1 (.start 2 (.reject 1 (some "No"))), .draft 1 (.commit 2)]

/-- The verdict of a rejected draft keeps the incident open. -/
theorem qa_incident_rejected :
    ¬ Along (tenantStep PageManifest.slug) Exact Tenant.empty (rejectedRun ++ [.autoResolve]) := by
  intro h
  have hchecked : (exec (tenantStep PageManifest.slug) Tenant.empty rejectedRun).any (fun s =>
      decide (s.rows = [(1, 1)]) && s.incident && decide (s.blockingCount > 0) &&
        ((s.projects 1).drafts 1).all (fun draft => !draft.state.isCandidate)) = true := by
    decide +kernel
  obtain ⟨s, hs, hfacts⟩ := (Option.any_eq_true _ _).mp hchecked
  simp only [Bool.and_eq_true, decide_eq_true_eq] at hfacts
  obtain ⟨⟨⟨hrows, hincident⟩, hcount⟩, hstate⟩ := hfacts
  have hlisted : s.Listed := exec_invariant (G := fun _ _ _ => True)
    (fun _ _ _ hl _ hst => Tenant.Listed.step hl hst) Tenant.empty_init.listed
    (along_of_forall (Q := fun _ => True) (fun _ _ => trivial) _) hs
  have hswept : tenantStep PageManifest.slug s .autoResolve =
      some { s with incident := decide (s.blockingCount > 0) } := if_pos hincident
  obtain ⟨project, id, draft, hdraft, hcandidate, _⟩ :=
    ((h.at hs hswept) rfl).mp (decide_eq_true hcount)
  have hrow := hlisted project id draft hdraft
  rw [hrows, List.mem_singleton] at hrow
  cases hrow
  change (s.projects 1).drafts 1 = some draft at hdraft
  rw [hdraft, Option.all_some, hcandidate] at hstate
  cases hstate

end MegaPanel.PageDraft
