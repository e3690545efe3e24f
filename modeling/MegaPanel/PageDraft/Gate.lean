import MegaPanel.PageDraft.System

set_option autoImplicit false

/-! # The QA gate of a draft

`apply_page_draft` lets a page through when the row it has read has a QA run of its content hash
that passes, or warns and is overridden. Two things can be wrong with that by the time the page
is written. The content hash need not be the hash of the manifest: three routes store a hash of
other texts, and nothing but an edit replaces it (`generated_copy`). And the row may have
changed since it was read: not its content, which an application has found closed to edits
(`Known.closed`), but its QA runs and its state.

`draft_gate` says that the gate holds along a run exactly when neither happens, and that a
rejection is respected in every run that never overwrites one.
-/

namespace MegaPanel.PageDraft

open MegaPanel.Lib
open MegaPanel.SiteManifest (QaOverride)

/-! ## The properties of a step -/

def QaRun.accepted (run : QaRun) (override : Option QaOverride) : Bool :=
  decide (run.verdict = .pass) || (decide (run.verdict = .warn) && override.isSome)

/-- Of the commits, those of applications: the draft, the instance read and the override. -/
def applied (w : World) : Action → Option (Pending × Option QaOverride)
  | .commit rid =>
    (w.pending rid).bind (fun p =>
      match p.work with
      | .apply _ _ override => some (p, override)
      | _ => none)
  | _ => none

/-- If the step applies a draft, the page it writes to the site hashes to the source of the
draft's latest QA run, and that run is accepted. -/
def gateHolds (dumps : PageManifest → String) (w : World) (a : Action) (t : World) : Bool :=
  (applied w a).all (fun (p, override) =>
    t.sitePages.getLast?.any (fun page =>
      (t.drafts p.id).any (fun draft => draft.qaRuns.getLast?.any (fun run =>
        decide (run.sourceHash = some (draftManifestHash dumps page)) && run.accepted override))))

/-- If the step applies a draft, the content hash it has read is the hash of the manifest it has
read, and the QA runs are still those it has read, or the latest of them is accepted for the same
content. -/
def rechecked (dumps : PageManifest → String) (w : World) (a : Action) (_ : World) : Bool :=
  (applied w a).all (fun (p, override) =>
    decide (p.loaded.contentHash = p.loaded.pageManifest.map (draftManifestHash dumps)) &&
      (w.drafts p.id).any (fun stored =>
        decide (stored.qaRuns = p.loaded.qaRuns) ||
          stored.qaRuns.getLast?.any (fun run =>
            decide (run.sourceHash = p.loaded.contentHash) && run.accepted override)))

/-- What has been committed for a draft since its latest rejection. -/
structure Since where
  rejected : Bool
  qaRun : Bool
  submitted : Bool
  deriving DecidableEq

def Since.start : Since := ⟨false, false, false⟩

def Since.note (since : Since) : Work → Since
  | .qa => { since with qaRun := true }
  | .submit => { since with submitted := true }
  | .reject => ⟨true, false, false⟩
  | .apply .. => since

/-- The history variable. -/
def note (w : World) (a : Action) (since : DraftId → Since) : DraftId → Since :=
  match a with
  | .commit rid =>
    match w.pending rid with
    | some p => Function.update since p.id ((since p.id).note p.work)
    | none => since
  | _ => since

/-- If the step applies a draft that was rejected before, a QA run and a submission have been
committed since. -/
def respectsRejection (s : World × (DraftId → Since)) (a : Action)
    (_ : World × (DraftId → Since)) : Bool :=
  (applied s.1 a).all (fun (p, _) =>
    !(s.2 p.id).rejected || ((s.2 p.id).qaRun && (s.2 p.id).submitted))

/-- A submission or an application does not commit over a rejection. -/
def keepsRejection (w : World) (a : Action) (_ : World) : Bool :=
  match a with
  | .commit rid =>
    (w.pending rid).all (fun p =>
      match p.work with
      | .qa | .reject => true
      | .submit | .apply .. =>
        (w.drafts p.id).all (fun stored => decide (stored.state ≠ .rejected)))
  | _ => true

/-! ## What requests in flight know -/

variable {p : Pending} {stored draft : Draft} {w w' : World} {rid : RequestId} {a : Action}

/-- The part of a draft that is edited. -/
def Draft.content (draft : Draft) : Option PageManifest × Option String :=
  (draft.pageManifest, draft.contentHash)

/-- A request in flight has a draft, and its content if it has found it closed to edits. -/
structure Known (p : Pending) (stored : Draft) : Prop where
  started : Started p
  closed : p.loaded.state ≠ .draft →
    stored.state ≠ .draft ∧ stored.content = p.loaded.content

theorem Started.content (h : Started p) : p.current.content = p.loaded.content := by
  cases h with
  | qa _ _ hcurrent => rw [hcurrent]; rfl
  | submit _ hcurrent _ => rw [hcurrent]; rfl
  | reject _ _ hcurrent _ => rw [hcurrent]; rfl
  | apply _ _ _ _ _ hcurrent _ _ => rw [hcurrent]; rfl

/-- No request reopens a draft. -/
theorem Started.state (h : Started p) :
    p.current.state = p.loaded.state ∨ p.current.state ≠ .draft := by
  cases h with
  | qa _ _ hcurrent => exact .inl (by rw [hcurrent])
  | submit _ hcurrent _ => exact .inr (by rw [hcurrent]; nofun)
  | reject _ _ hcurrent _ => exact .inr (by rw [hcurrent]; nofun)
  | apply _ _ _ _ _ hcurrent _ _ => exact .inr (by rw [hcurrent]; nofun)

theorem flush_content (h : Started p) (stored : Draft) :
    (Draft.flush p.loaded p.current stored).content = stored.content := by
  have hcontent := h.content
  simp only [Draft.content, Prod.mk.injEq] at hcontent
  simp only [Draft.content, Draft.flush, hcontent.1, hcontent.2, writeCol_clean]

theorem flush_state (h : Started p) (hs : stored.state ≠ .draft) :
    (Draft.flush p.loaded p.current stored).state ≠ .draft := by
  show writeCol p.loaded.state p.current.state stored.state ≠ .draft
  rw [writeCol]
  split
  · exact hs
  · next hne => exact h.state.resolve_left hne

/-- An edit needs an open draft, and leaves it open. -/
theorem edit_ok {dumps : PageManifest → String} {draft' : Draft} {edit : Edit}
    (h : draft.edit dumps edit = .ok draft') :
    draft.state = .draft ∧ draft'.state = .draft ∧ draft'.qaRuns = [] ∧
      draft'.contentHash = draft'.pageManifest.map (draftManifestHash dumps) := by
  simp only [Draft.edit] at h
  split at h
  · cases h
  next hstate =>
    split at h
    · cases h
    split at h
    · cases h
    split at h
    · cases h
      exact ⟨not_not.mp hstate, not_not.mp hstate, rfl, rfl⟩
    · cases h

/-- Every request in flight knows its draft. -/
def AllKnown (w : World) : Prop :=
  ∀ rid p, w.pending rid = some p → ∃ stored, w.drafts p.id = some stored ∧ Known p stored

/-- Requests keep knowing their drafts when one draft changes, if those on that draft do. -/
theorem AllKnown.setDraft (h : AllKnown w) {id : DraftId}
    (hdrafts : w'.drafts = Function.update w.drafts id (some draft))
    (hpending : ∀ rid p, w'.pending rid = some p → w.pending rid = some p)
    (hid : ∀ p stored, p.id = id → w.drafts id = some stored → Known p stored → Known p draft) :
    AllKnown w' := by
  intro rid p hp
  obtain ⟨stored, hstored, hknown⟩ := h rid p (hpending rid p hp)
  rw [hdrafts]
  by_cases heq : p.id = id
  · rw [heq] at hstored ⊢
    exact ⟨draft, Function.update_self .., hid p stored heq hstored hknown⟩
  · exact ⟨stored, by rw [Function.update_of_ne heq]; exact hstored, hknown⟩

theorem setPending_mono {rid' : RequestId} (h : (w.setPending rid none).pending rid' = some p) :
    w.pending rid' = some p := by
  simp only [World.setPending] at h
  by_cases heq : rid' = rid
  · rw [heq, Function.update_self] at h
    cases h
  · rwa [Function.update_of_ne heq] at h

theorem AllKnown.step {dumps : PageManifest → String} (h : AllKnown w)
    (hstep : step dumps w a = some w') : AllKnown w' := by
  cases step_move hstep with
  | create id page origin draft hnew hdraft =>
    refine h.setDraft rfl (fun _ _ hp => hp) (fun p stored _ hstored => ?_)
    rw [hnew] at hstored
    cases hstored
  | edit id edit draft draft' hdraft hedit =>
    refine h.setDraft rfl (fun _ _ hp => hp) (fun p stored _ hstored hknown => ?_)
    rw [hdraft] at hstored
    cases hstored
    -- whoever found the draft closed would have kept it from being edited
    exact ⟨hknown.started, fun hclosed => absurd (edit_ok hedit).1 (hknown.closed hclosed).1⟩
  | start rid request p hfree hdraft hp =>
    intro rid' p' hp'
    simp only [World.setPending] at hp'
    by_cases heq : rid' = rid
    · rw [heq, Function.update_self] at hp'
      cases hp'
      exact ⟨p.loaded, hdraft, hp, fun hclosed => ⟨hclosed, rfl⟩⟩
    · rw [Function.update_of_ne heq] at hp'
      exact h rid' p' hp'
  | commit rid p stored hp hstored =>
    obtain ⟨stored', hstored', hknown⟩ := h rid p hp
    refine h.setDraft rfl (fun _ _ hp' => setPending_mono hp') (fun p' row _ hrow hknown' => ?_)
    rw [hstored] at hrow
    cases hrow
    refine ⟨hknown'.started, fun hclosed => ?_⟩
    obtain ⟨hstate, hcontent⟩ := hknown'.closed hclosed
    exact ⟨flush_state hknown.started hstate, (flush_content hknown.started _).trans hcontent⟩
  | abort rid => exact fun rid' p' hp' => h rid' p' (setPending_mono hp')

/-! ## Drafts whose content hash is not the hash of their manifest -/

/-- The content hash is the hash of the manifest. -/
def Draft.hashed (dumps : PageManifest → String) (draft : Draft) : Prop :=
  draft.contentHash = draft.pageManifest.map (draftManifestHash dumps)

/-- The content of the draft has not been edited: all QA runs, stored or in flight, have its
content hash as their source. -/
structure Unedited (w : World) (id : DraftId) (draft : Draft) : Prop where
  runs : ∀ run ∈ draft.qaRuns, run.sourceHash = draft.contentHash
  pending : ∀ rid p, w.pending rid = some p → p.id = id →
    p.loaded.contentHash = draft.contentHash ∧
      ∀ run ∈ p.current.qaRuns, run.sourceHash = draft.contentHash

def HashedOrUnedited (dumps : PageManifest → String) (w : World) : Prop :=
  ∀ id draft, w.drafts id = some draft → draft.hashed dumps ∨ Unedited w id draft

/-- The runs of a request in flight are those it has read and perhaps one on their source. -/
theorem Started.runs (h : Started p) :
    ∀ run ∈ p.current.qaRuns, run ∈ p.loaded.qaRuns ∨ run.sourceHash = p.loaded.contentHash := by
  intro run hrun
  cases h with
  | qa _ _ hcurrent =>
    rw [hcurrent, List.mem_append, List.mem_singleton] at hrun
    exact hrun.imp_right (fun heq => by rw [heq])
  | submit _ hcurrent _ => exact .inl (by rwa [hcurrent] at hrun)
  | reject _ _ hcurrent _ => exact .inl (by rwa [hcurrent] at hrun)
  | apply _ _ _ _ _ hcurrent _ _ => exact .inl (by rwa [hcurrent] at hrun)

theorem HashedOrUnedited.step {dumps : PageManifest → String} (h : HashedOrUnedited dumps w)
    (hknown : AllKnown w) (hstep : step dumps w a = some w') : HashedOrUnedited dumps w' := by
  cases step_move hstep with
  | create id page origin draft hnew hdraft =>
    intro id' draft' hdraft'
    simp only [World.setDraft] at hdraft'
    by_cases heq : id' = id
    · rw [heq, Function.update_self] at hdraft'
      cases hdraft'
      have hruns : draft.qaRuns = [] := by
        simp only [newDraft] at hdraft
        split at hdraft
        · cases hdraft
        · cases hdraft
          rfl
      refine .inr ⟨by rw [hruns]; nofun, fun rid p hp hid => ?_⟩
      obtain ⟨stored, hstored, _⟩ := hknown rid p hp
      rw [hid, heq, hnew] at hstored
      cases hstored
    · rw [Function.update_of_ne heq] at hdraft'
      exact (h id' draft' hdraft').imp_right (fun hu => ⟨hu.runs, hu.pending⟩)
  | edit id edit draft draft' hdraft hedit =>
    intro id' other hother
    simp only [World.setDraft] at hother
    by_cases heq : id' = id
    · rw [heq, Function.update_self] at hother
      cases hother
      exact .inl (edit_ok hedit).2.2.2
    · rw [Function.update_of_ne heq] at hother
      exact (h id' other hother).imp_right (fun hu => ⟨hu.runs, hu.pending⟩)
  | start rid request p hfree hdraft hp =>
    intro id' draft hdraft'
    refine (h id' draft hdraft').imp_right (fun hu => ⟨hu.runs, fun rid' p' hp' hid => ?_⟩)
    simp only [World.setPending] at hp'
    by_cases heq : rid' = rid
    · rw [heq, Function.update_self] at hp'
      cases hp'
      have hsame : draft = p.loaded := by
        rw [hid] at hdraft
        exact Option.some.inj (hdraft'.symm.trans hdraft)
      subst hsame
      exact ⟨rfl, fun run hrun => (hp.runs run hrun).elim (hu.runs run) id⟩
    · rw [Function.update_of_ne heq] at hp'
      exact hu.pending rid' p' hp' hid
  | commit rid p stored hp hstored =>
    obtain ⟨_, _, hstarted, _⟩ := hknown rid p hp
    have hcontent := flush_content hstarted stored
    simp only [Draft.content, Prod.mk.injEq] at hcontent
    obtain ⟨hpage, hhash⟩ := hcontent
    intro id' draft hdraft
    simp only [World.setDraft] at hdraft
    by_cases heq : id' = p.id
    · rw [heq, Function.update_self] at hdraft
      cases hdraft
      rcases h p.id stored hstored with hhashed | hu
      · exact .inl (by rw [Draft.hashed, hpage, hhash]; exact hhashed)
      refine .inr ⟨fun run hrun => ?_, fun rid' p' hp' hid => ?_⟩
      · rw [hhash]
        have hwritten : run ∈ stored.qaRuns ∨ run ∈ p.current.qaRuns := by
          simp only [Draft.flush, writeCol] at hrun
          split at hrun
          · exact .inl hrun
          · exact .inr hrun
        exact hwritten.elim (hu.runs run) ((hu.pending rid p hp rfl).2 run)
      · rw [hhash]
        exact hu.pending rid' p' (setPending_mono hp') (hid.trans heq)
    · rw [Function.update_of_ne heq] at hdraft
      exact (h id' draft hdraft).imp_right
        (fun hu => ⟨hu.runs, fun rid' p' hp' => hu.pending rid' p' (setPending_mono hp')⟩)
  | abort rid =>
    intro id' draft hdraft
    exact (h id' draft hdraft).imp_right
      (fun hu => ⟨hu.runs, fun rid' p' hp' => hu.pending rid' p' (setPending_mono hp')⟩)

/-! ## The gate -/

/-- What is known of every state of a run. -/
structure Reached (dumps : PageManifest → String) (w : World) : Prop where
  known : AllKnown w
  hashes : HashedOrUnedited dumps w

theorem Init.reached {dumps : PageManifest → String} (h : Init w) : Reached dumps w where
  known rid p hp := by
    rw [h.pending rid] at hp
    cases hp
  hashes id draft hdraft := by
    rw [h.drafts id] at hdraft
    cases hdraft

theorem Reached.step {dumps : PageManifest → String} (h : Reached dumps w)
    (hstep : step dumps w a = some w') : Reached dumps w' :=
  ⟨h.known.step hstep, h.hashes.step h.known hstep⟩

theorem QaRun.accepted_iff {run : QaRun} {override : Option QaOverride} :
    run.accepted override = true ↔
      run.verdict = .pass ∨ run.verdict = .warn ∧ override.isSome = true := by
  simp only [QaRun.accepted, Bool.or_eq_true, Bool.and_eq_true, decide_eq_true_eq]

/-- The page written is the one that was read. -/
theorem sitePages_getLast (ctx : ApplyContext) (page : PageManifest) :
    (ctx.sitePages page).getLast? = some page := by
  rw [ApplyContext.sitePages]
  split
  · exact List.getLast?_concat ..
  · rfl

/-- **One application**: the page it writes has passed the gate exactly when the content hash is
right and the QA runs have not been superseded by one that would not be accepted. -/
theorem Reached.gateHolds_iff {dumps : PageManifest → String} (h : Reached dumps w)
    (hstep : PageDraft.step dumps w a = some w') :
    gateHolds dumps w a w' = true ↔ rechecked dumps w a w' = true := by
  cases step_move hstep with
  | commit rid p stored hp hstored =>
    obtain ⟨stored', hstored', hstarted, hclosed⟩ := h.known rid p hp
    rw [hstored] at hstored'
    cases hstored'
    cases hstarted with
    | apply page override ctx user hwork hcurrent hpage hgate =>
      obtain ⟨hstate, run, hrun, hsource, hverdict⟩ := applyGate_ok hgate
      have happlied : applied w (.commit rid) = some (p, override) := by
        simp only [applied, hp, hwork, Option.bind_some]
      have hruns : (Draft.flush p.loaded p.current stored).qaRuns = stored.qaRuns := by
        rw [hcurrent]
        exact writeCol_clean ..
      obtain ⟨_, hcontent⟩ := hclosed (by rw [hstate]; nofun)
      have hhash : stored.contentHash = p.loaded.contentHash := congrArg Prod.snd hcontent
      have hmanifest : stored.pageManifest = some page :=
        (congrArg Prod.fst hcontent).trans hpage
      have hread : (Function.update w.drafts p.id
          (some (Draft.flush p.loaded p.current stored))) p.id
            = some (Draft.flush p.loaded p.current stored) := Function.update_self ..
      simp only [gateHolds, rechecked, happlied, World.setDraft, World.setPending, hread,
        hwork, Work.write, sitePages_getLast, hruns, hstored, hpage, Option.all_some,
        Option.any_some, Option.map_some, Bool.and_eq_true, Bool.or_eq_true, decide_eq_true_eq,
        Option.any_eq_true]
      constructor
      · rintro ⟨latest, hlatest, hlatestSource, hlatestOk⟩
        -- a run of the stored row has the stored content hash as its source, or the draft is
        -- hashed
        have hhashed : p.loaded.contentHash = some (draftManifestHash dumps page) := by
          rcases h.hashes p.id stored hstored with hhashed | hu
          · rw [← hhash, hhashed, hmanifest]
            rfl
          · rw [← hhash, ← hu.runs latest (List.mem_of_getLast? hlatest)]
            exact hlatestSource
        exact ⟨hhashed, .inr ⟨latest, hlatest, hlatestSource.trans hhashed.symm, hlatestOk⟩⟩
      · rintro ⟨hhashed, hsame | ⟨latest, hlatest, hlatestSource, hlatestOk⟩⟩
        · exact ⟨run, by rw [hsame]; exact hrun, hsource.trans hhashed,
            QaRun.accepted_iff.mpr hverdict⟩
        · exact ⟨latest, hlatest, hlatestSource.trans hhashed, hlatestOk⟩
    | qa _ hwork _ => simp [gateHolds, rechecked, applied, hp, hwork]
    | submit hwork _ _ => simp [gateHolds, rechecked, applied, hp, hwork]
    | reject _ hwork _ _ => simp [gateHolds, rechecked, applied, hp, hwork]
  | _ => simp [gateHolds, rechecked, applied]

/-! ## Rejections -/

variable {s t : World × (DraftId → Since)}

/-- A draft whose latest rejection was committed is stored as rejected. -/
structure Rejected (dumps : PageManifest → String) (s : World × (DraftId → Since)) : Prop where
  reached : Reached dumps s.1
  stored : ∀ id, (s.2 id).rejected = true →
    ∃ draft, s.1.drafts id = some draft ∧ draft.state = .rejected

/-- A commit that is not to overwrite a rejection leaves it stored; a rejection stores one. -/
theorem flush_rejected (hp : w.pending rid = some p) (hstored : w.drafts p.id = some stored)
    (hstarted : Started p) (hkeeps : keepsRejection w (.commit rid) w' = true)
    (h : stored.state = .rejected ∨ p.work = .reject) :
    (Draft.flush p.loaded p.current stored).state = .rejected := by
  show writeCol p.loaded.state p.current.state stored.state = .rejected
  simp only [keepsRejection, hp, Option.all_some, hstored] at hkeeps
  cases hstarted with
  | qa _ hwork hcurrent =>
    rw [hcurrent, writeCol_clean]
    exact h.resolve_right (by rw [hwork]; nofun)
  | submit hwork _ _ =>
    rw [hwork] at hkeeps h
    exact absurd (h.resolve_right nofun) (by simpa using hkeeps)
  | reject _ _ hcurrent hstate =>
    rw [hcurrent]
    exact writeCol_dirty (by rcases hstate with h | h <;> rw [h] <;> nofun) _
  | apply _ _ _ _ hwork _ _ _ =>
    rw [hwork] at hkeeps h
    exact absurd (h.resolve_right nofun) (by simpa using hkeeps)

theorem Rejected.step {dumps : PageManifest → String} (h : Rejected dumps s)
    (hkeeps : keepsRejection s.1 a t.1 = true)
    (hstep : withGhost (PageDraft.step dumps) note s a = some t) : Rejected dumps t := by
  obtain ⟨hst, hnote⟩ := withGhost_eq_some.mp hstep
  obtain ⟨w', since'⟩ := t
  dsimp only at hst hnote hkeeps
  subst hnote
  refine ⟨h.reached.step hst, fun id hid => ?_⟩
  cases step_move hst with
  | create id' page origin draft hnew hdraft =>
    obtain ⟨old, hold, hstate⟩ := h.stored id hid
    have hne : id ≠ id' := by
      rintro rfl
      rw [hnew] at hold
      cases hold
    exact ⟨old, by rw [← hold]; exact Function.update_of_ne hne .., hstate⟩
  | edit id' edit draft draft' hdraft hedit =>
    obtain ⟨old, hold, hstate⟩ := h.stored id hid
    have hne : id ≠ id' := by
      rintro rfl
      rw [hdraft] at hold
      cases hold
      rw [(edit_ok hedit).1] at hstate
      cases hstate
    exact ⟨old, by rw [← hold]; exact Function.update_of_ne hne .., hstate⟩
  | start rid request p hfree hdraft hp | abort rid => exact h.stored id hid
  | commit rid p stored hp hstored =>
    obtain ⟨_, _, hstarted, _⟩ := h.reached.known rid p hp
    simp only [note, hp] at hid
    by_cases heq : id = p.id
    · subst heq
      rw [Function.update_self] at hid
      refine ⟨Draft.flush p.loaded p.current stored, Function.update_self ..,
        flush_rejected hp hstored hstarted hkeeps ?_⟩
      -- the history says so already, or this commit is the rejection
      have hcases : (s.2 p.id).rejected = true ∨ p.work = .reject := by
        cases hwork : p.work <;> rw [hwork] at hid <;> simp_all [Since.note]
      refine hcases.imp_left (fun hrejected => ?_)
      obtain ⟨old, hold, hstate⟩ := h.stored p.id hrejected
      rw [hstored] at hold
      cases hold
      exact hstate
    · rw [Function.update_of_ne heq] at hid
      obtain ⟨old, hold, hstate⟩ := h.stored id hid
      exact ⟨old, by rw [← hold]; exact Function.update_of_ne heq .., hstate⟩

theorem Rejected.respects {dumps : PageManifest → String} (h : Rejected dumps s)
    (hkeeps : keepsRejection s.1 a t.1 = true) : respectsRejection s a t = true := by
  cases happlied : applied s.1 a with
  | none => rw [respectsRejection, happlied]; rfl
  | some q =>
    obtain ⟨p, override⟩ := q
    have hnot : (s.2 p.id).rejected = false := by
      by_contra hrejected
      obtain ⟨stored, hstored, hstate⟩ := h.stored p.id (by simpa using hrejected)
      cases a with
      | commit rid =>
        simp only [applied] at happlied
        obtain ⟨p', hp', hwork⟩ := Option.bind_eq_some_iff.mp happlied
        split at hwork
        · next page sitePages override' happly =>
          cases hwork
          simp only [keepsRejection, hp', Option.all_some, happly, hstored,
            decide_eq_true_eq] at hkeeps
          exact hkeeps hstate
        · cases hwork
      | _ => cases happlied
    simp [respectsRejection, happlied, hnot]

/-! ## Every run -/

/-- **The QA gate.** Along every run of requests on drafts, each page written by an application
hashes to the source of its draft's latest QA run, which is accepted, exactly when each
application finds the content hash right and the QA runs not superseded by one that would not be
accepted. And in every run in which no submission or application commits over a rejection, no
rejected draft is applied without a new QA run and submission. -/
theorem draft_gate (dumps : PageManifest → String) {w : World} (h : Init w) (as : List Action) :
    (Along (step dumps) (fun s a t => gateHolds dumps s a t = true) w as ↔
        Along (step dumps) (fun s a t => rechecked dumps s a t = true) w as) ∧
      (Along (step dumps) (fun s a t => keepsRejection s a t = true) w as →
        Along (withGhost (step dumps) note) (fun s a t => respectsRejection s a t = true)
          (w, fun _ => Since.start) as) := by
  constructor
  · exact along_iff (I := Reached dumps) (fun s a t hs => hs.step)
      (fun s a t hs => hs.gateHolds_iff) h.reached
  · intro hkeeps
    have hinit : Rejected dumps (w, fun _ => Since.start) := ⟨h.reached, fun id hid => by cases hid⟩
    refine along_rule (I := Rejected dumps) (G := fun s a t => keepsRejection s.1 a t.1 = true)
      ?_ hinit ((along_withGhost note).mpr hkeeps)
    exact fun s a t hs hk hst => ⟨hs.step hk hst, hs.respects hk⟩

/-! ## Runs on one draft -/

def World.empty : World := ⟨fun _ => none, [], fun _ => none⟩

theorem World.empty_init : Init World.empty := ⟨fun _ => rfl, fun _ => rfl⟩

/-- The JSON text of a page without blocks, media, design and author. -/
def plainDumps (page : PageManifest) : String :=
  "\x7b\"author\":null,\"block_media\":\x7b\x7d,\"block_slot_values\":\x7b\x7d,\"blocks\":[],"
    ++ "\"design\":null,\"geo_id\":null,\"h1_template\":\"" ++ page.h1Template
    ++ "\",\"index_state\":\"noindex\",\"media\":[],\"meta_description_template\":\""
    ++ page.metaDescriptionTemplate ++ "\",\"method\":null,\"modifier\":null,"
    ++ "\"publish_state\":\"draft\",\"schema_org\":\x7b\x7d,\"seed\":0,\"service\":\"" ++ page.rest
    ++ "\",\"slug\":\"" ++ page.slug ++ "\",\"title_template\":\"" ++ page.titleTemplate
    ++ "\",\"unique_core\":\"" ++ page.uniqueCore.getD "" ++ "\"\x7d"

def homePage : PageManifest where
  slug := "/"
  titleTemplate := "Ремонт"
  h1Template := "Ремонт окон"
  metaDescriptionTemplate := ""
  uniqueCore := some "Чиним окна"
  blocks := []
  media := []
  blockMedia := []
  design := none
  author := none
  rest := "Окна"

/-- A project whose draft can be applied, without a site. -/
def openContext : ApplyContext where
  brandingValid := true
  plan := some true
  factsConfirmed := true
  domainSet := true
  author := .error ⟨409, "Approved author profile revision is unavailable"⟩
  designHash := none
  site := none

def passed (now : Time) : QaResult := ⟨.pass, [], now⟩

/-- A draft that is created, checked, submitted and applied, one request after the other. -/
def plainRun (origin : Origin) : List Action :=
  [.create 1 homePage origin,
    .start 1 (.qa 1 (passed 0)), .commit 1,
    .start 2 (.submit 1), .commit 2,
    .start 3 (.apply 1 none openContext 7), .commit 3]

/-- A generated draft passes the gate. -/
theorem draft_gate_plainRun :
    Along (step plainDumps) (fun s a t => gateHolds plainDumps s a t = true) World.empty
        (plainRun .generated) ∧
      Along (withGhost (step plainDumps) note) (fun s a t => respectsRejection s a t = true)
        (World.empty, fun _ => Since.start) (plainRun .generated) :=
  ⟨(draft_gate plainDumps World.empty_init _).1.mpr (by decide +kernel),
    (draft_gate plainDumps World.empty_init _).2 (by decide +kernel)⟩

/-- A draft from generated copy: the page that is written does not hash to the source of its QA
run. -/
theorem draft_gate_generatedCopy :
    ¬ Along (step plainDumps) (fun s a t => gateHolds plainDumps s a t = true) World.empty
      (plainRun (.copy false)) := by
  decide +kernel

end MegaPanel.PageDraft
