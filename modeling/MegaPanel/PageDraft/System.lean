import MegaPanel.Lib.Run
import MegaPanel.PageDraft.Model

set_option autoImplicit false

/-! # Requests on page drafts

The drafts of a project and the requests in flight on them. Creating a draft and editing one
take a single step: a new row is nobody else's, and an edit locks the row before it reads it. A
QA run, a submission, a rejection and an application read the row without a lock; they take a
step for the read, with the checks (`Request.start`), and one for the transaction that writes
(`commit`). An `UPDATE` keeps the row locked until its transaction ends, so what happens between
the flush and the commit does not show.
-/

namespace MegaPanel.PageDraft

open MegaPanel.Lib
open MegaPanel.SiteManifest (QaOverride)

abbrev RequestId := Nat

/-! ## Requests -/

inductive Request
  | qa (id : DraftId) (result : QaResult)
  | submit (id : DraftId)
  | reject (id : DraftId) (reason : Option String)
  | apply (id : DraftId) (override : Option QaOverride) (ctx : ApplyContext) (user : UserId)

def Request.id : Request → DraftId
  | .qa id _ => id
  | .submit id => id
  | .reject id _ => id
  | .apply id _ _ _ => id

/-- What a request in flight is about to write besides the columns of the draft. -/
inductive Work
  | qa
  | submit
  | reject
  | apply (page : PageManifest) (sitePages : List PageManifest) (override : Option QaOverride)
  deriving DecidableEq

/-- A request that has read its draft: the instance as it was loaded and as it is now. -/
structure Pending where
  id : DraftId
  loaded : Draft
  current : Draft
  work : Work
  deriving DecidableEq

/-- A request up to its writes, on the draft it has read. -/
def Request.start (draft : Draft) : Request → Except Refusal Pending
  | .qa id result => (draft.runQa result).map (fun current => ⟨id, draft, current, .qa⟩)
  | .submit id => draft.submitReview.map (fun current => ⟨id, draft, current, .submit⟩)
  | .reject id reason => (rejectionMessage reason).bind (fun message =>
    (draft.reject message).map (fun current => ⟨id, draft, current, .reject⟩))
  | .apply id override ctx user => (draft.applyChecks override ctx).map (fun page =>
    ⟨id, draft, draft.markApplied override user, .apply page (ctx.sitePages page) override⟩)

/-! ## Steps -/

/-- `sitePages` are the pages of the manifest stored for the project's site. -/
structure World where
  drafts : DraftId → Option Draft
  sitePages : List PageManifest
  pending : RequestId → Option Pending

inductive Action
  | create (id : DraftId) (page : PageManifest) (origin : Origin)
  | edit (id : DraftId) (edit : Edit)
  | start (rid : RequestId) (request : Request)
  | commit (rid : RequestId)
  | abort (rid : RequestId)

def World.setDraft (w : World) (id : DraftId) (draft : Draft) : World :=
  { w with drafts := Function.update w.drafts id (some draft) }

def World.setPending (w : World) (rid : RequestId) (p : Option Pending) : World :=
  { w with pending := Function.update w.pending rid p }

/-- The site's pages after the transaction of a request. -/
def Work.write (stored : List PageManifest) : Work → List PageManifest
  | .apply _ sitePages _ => sitePages
  | _ => stored

def step (dumps : PageManifest → String) (w : World) : Action → Option World
  | .create id page origin =>
    match w.drafts id, newDraft dumps page origin with
    | none, .ok draft => some (w.setDraft id draft)
    | _, _ => none
  | .edit id edit =>
    match w.drafts id with
    | none => none
    | some draft =>
      match draft.edit dumps edit with
      | .ok draft' => some (w.setDraft id draft')
      | .error _ => none
  | .start rid request =>
    match w.pending rid, w.drafts request.id with
    | none, some draft =>
      match request.start draft with
      | .ok p => some (w.setPending rid (some p))
      | .error _ => none
    | _, _ => none
  | .commit rid =>
    match w.pending rid with
    | none => none
    | some p =>
      (w.drafts p.id).map (fun stored =>
        { (w.setPending rid none).setDraft p.id (Draft.flush p.loaded p.current stored) with
          sitePages := p.work.write w.sitePages })
  | .abort rid => (w.pending rid).map (fun _ => w.setPending rid none)

/-- Nothing has been drafted yet. -/
structure Init (w : World) : Prop where
  drafts : ∀ id, w.drafts id = none
  pending : ∀ rid, w.pending rid = none

/-! ## What a request has read -/

variable {draft : Draft} {override : Option QaOverride}

/-- A request in flight, by what it does. -/
inductive Started (p : Pending) : Prop
  | qa (result : QaResult) (hwork : p.work = .qa)
      (hcurrent : p.current = { p.loaded with
        qaRuns := p.loaded.qaRuns ++
          [⟨p.loaded.contentHash, result.verdict, result.findings, result.createdAt⟩]
        lastQaVerdict := some result.verdict })
  | submit (hwork : p.work = .submit) (hcurrent : p.current = { p.loaded with state := .review })
      (hstate : p.loaded.state = .draft)
  | reject (message : String) (hwork : p.work = .reject)
      (hcurrent : p.current =
        { p.loaded with state := .rejected, failureMessage := some message })
      (hstate : p.loaded.state = .draft ∨ p.loaded.state = .review)
  | apply (page : PageManifest) (override : Option QaOverride) (ctx : ApplyContext)
      (user : UserId) (hwork : p.work = .apply page (ctx.sitePages page) override)
      (hcurrent : p.current = p.loaded.markApplied override user)
      (hpage : p.loaded.pageManifest = some page)
      (hgate : p.loaded.applyGate override = .ok ())

theorem applyChecks_ok {ctx : ApplyContext} {page : PageManifest}
    (h : draft.applyChecks override ctx = .ok page) :
    draft.pageManifest = some page ∧ draft.applyGate override = .ok () := by
  simp only [Draft.applyChecks] at h
  split at h
  · cases h
  split at h
  · cases h
  · cases h
  · next hgate _ =>
    split at h
    · cases h
    · next page' hpage =>
      split at h
      · cases h
      · cases h
      · cases h
        exact ⟨hpage, hgate⟩

/-- **What the read of a request establishes**: the row as it was read, and what the request is
going to make of it. -/
theorem start_ok {request : Request} {p : Pending} (h : request.start draft = .ok p) :
    p.id = request.id ∧ p.loaded = draft ∧ Started p := by
  cases request with
  | qa id result =>
    simp only [Request.start, Draft.runQa] at h
    split at h
    · cases h
    · cases h
      exact ⟨rfl, rfl, .qa result rfl rfl⟩
  | submit id =>
    simp only [Request.start, Draft.submitReview] at h
    split at h
    · cases h
    · next hopen =>
      cases h
      rw [not_or, not_not] at hopen
      exact ⟨rfl, rfl, .submit rfl rfl hopen.1⟩
  | reject id reason =>
    simp only [Request.start] at h
    cases hmessage : rejectionMessage reason with
    | error e =>
      rw [hmessage] at h
      cases h
    | ok message =>
      simp only [hmessage, Except.bind, Draft.reject] at h
      split at h
      · cases h
      · next hopen =>
        split at h
        · cases h
        cases h
        refine ⟨rfl, rfl, .reject message rfl rfl ?_⟩
        simpa only [not_and_or, not_not] using hopen
  | apply id override ctx user =>
    simp only [Request.start] at h
    cases hchecks : draft.applyChecks override ctx with
    | error e =>
      rw [hchecks] at h
      cases h
    | ok page =>
      rw [hchecks] at h
      cases h
      obtain ⟨hpage, hgate⟩ := applyChecks_ok hchecks
      exact ⟨rfl, rfl, .apply page override ctx user rfl rfl hpage hgate⟩

/-- An application has found the draft under review, with a QA run of its content that passes,
or warns and is overridden. -/
theorem applyGate_ok (h : draft.applyGate override = .ok ()) :
    draft.state = .review ∧ ∃ run, draft.qaRuns.getLast? = some run ∧
      run.sourceHash = draft.contentHash ∧
      (run.verdict = .pass ∨ run.verdict = .warn ∧ override.isSome = true) := by
  simp only [Draft.applyGate] at h
  split_ifs at h with hstate hcurrent hblock hwarn
  refine ⟨not_not.mp hstate, ?_⟩
  obtain ⟨run, hrun⟩ := Option.ne_none_iff_exists'.mp hcurrent
  simp only [Draft.currentQaRun] at hrun
  split at hrun
  · next latest contentHash hlatest hhash =>
    split_ifs at hrun with _ hmatch
    rw [not_or, not_not, not_not] at hmatch
    refine ⟨latest, hlatest, by rw [hmatch.1, hhash], ?_⟩
    rw [← hmatch.2] at hblock hwarn
    cases hverdict : latest.verdict with
    | pass => exact .inl rfl
    | block => exact absurd (congrArg some hverdict) hblock
    | warn =>
      refine .inr ⟨rfl, ?_⟩
      rw [hverdict] at hwarn
      exact Option.isSome_iff_ne_none.mpr (fun hnone => hwarn ⟨rfl, hnone⟩)
  · cases hrun

/-! ## What a step does -/

inductive Move (dumps : PageManifest → String) (w : World) : Action → World → Prop
  | create (id : DraftId) (page : PageManifest) (origin : Origin) (draft : Draft)
      (hnew : w.drafts id = none) (hdraft : newDraft dumps page origin = .ok draft) :
      Move dumps w (.create id page origin) (w.setDraft id draft)
  | edit (id : DraftId) (edit : Edit) (draft draft' : Draft) (hdraft : w.drafts id = some draft)
      (hedit : draft.edit dumps edit = .ok draft') :
      Move dumps w (.edit id edit) (w.setDraft id draft')
  | start (rid : RequestId) (request : Request) (p : Pending) (hfree : w.pending rid = none)
      (hdraft : w.drafts p.id = some p.loaded) (hp : Started p) :
      Move dumps w (.start rid request) (w.setPending rid (some p))
  | commit (rid : RequestId) (p : Pending) (stored : Draft) (hp : w.pending rid = some p)
      (hstored : w.drafts p.id = some stored) :
      Move dumps w (.commit rid)
        { (w.setPending rid none).setDraft p.id (Draft.flush p.loaded p.current stored) with
          sitePages := p.work.write w.sitePages }
  | abort (rid : RequestId) : Move dumps w (.abort rid) (w.setPending rid none)

theorem step_move {dumps : PageManifest → String} {w w' : World} {a : Action}
    (h : step dumps w a = some w') : Move dumps w a w' := by
  cases a with
  | create id page origin =>
    simp only [step] at h
    split at h
    · next draft hnew hdraft =>
      cases h
      exact .create id page origin draft hnew hdraft
    · cases h
  | edit id edit =>
    simp only [step] at h
    split at h
    · cases h
    · next draft hdraft =>
      split at h
      · next draft' hedit =>
        cases h
        exact .edit id edit draft draft' hdraft hedit
      · cases h
  | start rid request =>
    simp only [step] at h
    split at h
    · next draft hfree hdraft =>
      split at h
      · next p hstart =>
        cases h
        obtain ⟨hid, rfl, hp⟩ := start_ok hstart
        exact .start rid request p hfree (hid ▸ hdraft) hp
      · cases h
    · cases h
  | commit rid =>
    simp only [step] at h
    split at h
    · cases h
    · next p hp =>
      obtain ⟨stored, hstored, rfl⟩ := Option.map_eq_some_iff.mp h
      exact .commit rid p stored hp hstored
  | abort rid =>
    simp only [step] at h
    obtain ⟨p, _, rfl⟩ := Option.map_eq_some_iff.mp h
    exact .abort rid

end MegaPanel.PageDraft
