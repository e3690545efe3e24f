import MegaPanel.Release.Publication

set_option autoImplicit false

/-! # Failed publications

A request that has switched the release and is then refused by Caddy switches it back. With
links, the two entries of the site's directory are `Settled` between requests: `current` is
the active release of the row, and `previous` is the one before it, or the candidate of the
last failed request since the active release was switched on. For that is what restoring
does: it swaps the two links.

The history variable is the candidate of that failed request.
-/

namespace MegaPanel.Release

open MegaPanel.Lib

/-! ## The candidate of a request -/

/-- The candidate that a step goes on to activate. -/
def candidateOf (w : World) : Action → Option (RequestEnv × Hash)
  | .publish env id =>
    match publishChecks env w id with
    | .error _ => none
    | .ok (_, buildHash) => some (env, buildHash)
  | .rollback env buildHash =>
    match rollbackChecks env w buildHash with
    | .error _ => none
    | .ok _ => some (env, buildHash)
  | _ => none

/-- The candidate of the last activation that failed after the last successful one; a failed
first activation leaves no trace. -/
def noteFailed (w : World) (a : Action) (failed : Option Hash) : Option Hash :=
  match candidateOf w a with
  | none => failed
  | some (env, candidate) =>
    if (activate env.links w.root candidate).2 then
      if env.caddyOk then none
      else if w.site.buildHash.isSome then some candidate else failed
    else failed

/-- Symbolic links can be made. -/
def Action.links : Action → Bool
  | .publish env _ => env.links
  | .rollback env _ => env.links
  | _ => true

/-! ## Settled directories -/

variable {w : World} {failed : Option Hash}

/-- The link to a release, if there is one. -/
def linkTo : Option Hash → Entry
  | none => .absent
  | some buildHash => .link buildHash

@[simp] theorem linkTo_isDir (h : Option Hash) : (linkTo h).isDir = false := by cases h <;> rfl

structure Settled (w : World) (failed : Option Hash) : Prop where
  current : w.root.current = linkTo w.site.buildHash
  previous : w.root.previous = linkTo (failed.or w.site.previousBuildHash)
  active : ∀ b, w.site.buildHash = some b → matchesBuild (w.root.releases.get b) b = true
  first : w.site.buildHash = none → w.site.previousBuildHash = none ∧ failed = none

theorem World.Unpublished.settled (h : w.Unpublished) : Settled w none where
  current := by rw [h.noCurrent, h.active]; rfl
  previous := by rw [h.noPrevious, h.previous]; rfl
  active := fun b hb => by rw [h.active] at hb; cases hb
  first := fun _ => ⟨h.previous, rfl⟩

/-- The directory after an activation. -/
def activated (w : World) (candidate : Hash) : Root :=
  { w.root with current := .link candidate, previous := linkTo w.site.buildHash }

theorem Settled.activate_eq (h : Settled w failed) (candidate : Hash) :
    activate true w.root candidate =
      if matchesBuild (w.root.releases.get candidate) candidate then
        (activated w candidate, true) else (w.root, false) := by
  unfold activate
  split
  · next hmatch =>
    have hroot : activateRelease true w.root candidate = activated w candidate := by
      unfold activateRelease activated
      rw [h.current]
      cases hb : w.site.buildHash with
      | none =>
        obtain ⟨hprev, hfailed⟩ := h.first hb
        have hnone : w.root.previous = .absent := by rw [h.previous, hprev, hfailed]; rfl
        show { w.root with current := Entry.link candidate }
          = { w.root with current := Entry.link candidate, previous := .absent }
        rw [← hnone]
      | some b =>
        have hnotDir : w.root.previous.isDir = false := by rw [h.previous, linkTo_isDir]
        simp only [linkTo, hnotDir, Bool.false_eq_true, if_false, if_true]
    rw [hroot]
    exact Prod.ext rfl hmatch
  · rfl

/-- **Restoring swaps the links.** It always succeeds; `current` is as before, `previous` is
the candidate, unless there was no active release: then both are absent, as before. -/
theorem Settled.restore_eq (h : Settled w failed) {candidate : Hash}
    (hmatch : matchesBuild (w.root.releases.get candidate) candidate = true) :
    restoreActivation true (activated w candidate) candidate w.site.buildHash =
      ({ w.root with
          current := linkTo w.site.buildHash
          previous := linkTo (w.site.buildHash.map (fun _ => candidate)) }, true) := by
  have hsome : (w.root.releases.get candidate).isSome = true := by
    cases hget : w.root.releases.get candidate with
    | none => rw [hget] at hmatch; cases hmatch
    | some d => rfl
  have hcurrent : matchesBuild ((activated w candidate).resolve (activated w candidate).current)
      candidate = true := hmatch
  unfold restoreActivation
  rw [hcurrent]
  cases hb : w.site.buildHash with
  | none =>
    simp only [Bool.not_true, Bool.false_eq_true, if_false, restoreFirst, activated, hb, linkTo,
      ne_eq, not_true_eq_false, hmatch, linkPointsTo, decide_true, hsome, Bool.and_self, if_true,
      Option.map_none]
  | some b =>
    have hactive := h.active b hb
    have hold : (w.root.releases.get b).isSome = true := by
      cases hget : w.root.releases.get b with
      | none => rw [hget] at hactive; cases hactive
      | some d => rfl
    simp only [Bool.not_true, Bool.false_eq_true, if_false, activated, hb, linkTo, Root.resolve,
      hactive, Entry.isSymlink, Bool.or_self, if_true, restoreLinks, hmatch, linkPointsTo,
      decide_true, hsome, hold, Bool.and_self, Option.map_some]

/-! ## Requests and builds keep a directory settled -/

variable {w' : World}

/-- The rest of a row update that only concerns builds. -/
theorem Settled.congr (h : Settled w failed) (hsite : w'.site = w.site)
    (hcurrent : w'.root.current = w.root.current) (hprevious : w'.root.previous = w.root.previous)
    (hkept : ∀ b, matchesBuild (w.root.releases.get b) b = true →
      matchesBuild (w'.root.releases.get b) b = true) : Settled w' failed where
  current := by rw [hsite, hcurrent, h.current]
  previous := by rw [hsite, hprevious, h.previous]
  active := fun b hb => hkept b (h.active b (hsite ▸ hb))
  first := fun hnone => hsite ▸ h.first (hsite ▸ hnone)

theorem placeRelease_keeps (root : Root) (buildHash : Hash) (staging : Dir) {b : Hash}
    (h : matchesBuild (root.releases.get b) b = true) :
    matchesBuild ((placeRelease root buildHash staging).releases.get b) b = true := by
  unfold placeRelease
  split
  · exact h
  · next hnone =>
    have hne : b ≠ buildHash := by
      rintro rfl
      cases hget : root.releases.get b with
      | none => rw [hget] at h; cases h
      | some d => exact hnone (by rw [hget]; rfl)
    rw [Table.get_set_ne _ hne]
    exact h

theorem placeRelease_entries (root : Root) (buildHash : Hash) (staging : Dir) :
    (placeRelease root buildHash staging).current = root.current ∧
      (placeRelease root buildHash staging).previous = root.previous := by
  unfold placeRelease
  split <;> exact ⟨rfl, rfl⟩

/-- A commit of a request: the switched site row over the directory it is given. -/
def SwitchesSite (commit : World → World) (buildHash : Hash) : Prop :=
  ∀ w, (commit w).site = w.site.switched buildHash ∧ (commit w).root = w.root

theorem publishCommit_switches (now : Time) (id : BuildId) (build : Build) (buildHash : Hash) :
    SwitchesSite (publishCommit now id build buildHash) buildHash := fun _ => ⟨rfl, rfl⟩

theorem rollbackCommit_switches (now : Time) (id : BuildId) (target : Build) (buildHash : Hash) :
    SwitchesSite (rollbackCommit now id target buildHash) buildHash := fun _ => ⟨rfl, rfl⟩

/-- **A request leaves a settled directory**, whatever Caddy answers. -/
theorem Settled.switch (h : Settled w failed) {env : RequestEnv} (hlinks : env.links = true)
    (candidate : Hash) (unavailable : String) {commit : World → World}
    (hcommit : SwitchesSite commit candidate) :
    Settled (switchRelease env w candidate unavailable commit).1
      (if (activate env.links w.root candidate).2 then
        if env.caddyOk then none
        else if w.site.buildHash.isSome then some candidate else failed
      else failed) := by
  unfold switchRelease
  rw [hlinks, h.activate_eq]
  cases hmatch : matchesBuild (w.root.releases.get candidate) candidate with
  | false => exact h
  | true =>
    simp only [if_true]
    cases hcaddy : env.caddyOk with
    | true =>
      obtain ⟨hsite, hroot⟩ := hcommit { w with root := activated w candidate }
      simp only [if_true]
      refine ⟨?_, ?_, fun b hb => ?_, fun hnone => ?_⟩
      · rw [hsite, hroot]
        rfl
      · rw [hsite, hroot]
        rfl
      · rw [hsite] at hb
        rw [hroot]
        cases hb
        exact hmatch
      · rw [hsite] at hnone
        cases hnone
    | false =>
      rw [h.restore_eq hmatch]
      simp only [Bool.false_eq_true, if_false]
      refine ⟨rfl, ?_, h.active, fun hnone => ?_⟩
      · cases hb : w.site.buildHash with
        | none =>
          obtain ⟨hprev, hfailed⟩ := h.first hb
          simp [hprev, hfailed]
        | some b => simp
      · obtain ⟨hprev, hfailed⟩ := h.first hnone
        have hnone' : w.site.buildHash = none := hnone
        exact ⟨hprev, by rw [hnone']; exact hfailed⟩

/-- What a publication or a rollback does: nothing, or switch to its candidate. -/
theorem publish_cases (env : RequestEnv) (w : World) (id : BuildId) :
    (candidateOf w (.publish env id) = none ∧ (publishProjectBuild env w id).1 = w) ∨
    ∃ candidate unavailable commit, candidateOf w (.publish env id) = some (env, candidate) ∧
      SwitchesSite commit candidate ∧ (publishProjectBuild env w id).1
        = (switchRelease env w candidate unavailable commit).1 := by
  cases hchecks : publishChecks env w id with
  | error e =>
    left
    simp only [candidateOf, publishProjectBuild, hchecks, and_self]
  | ok selected =>
    right
    obtain ⟨build, buildHash⟩ := selected
    refine ⟨buildHash, "Candidate release is unavailable",
      publishCommit env.now id build buildHash, ?_, publishCommit_switches env.now id build _, ?_⟩
    · simp only [candidateOf, hchecks]
    · simp only [publishProjectBuild, hchecks]

theorem rollback_cases (env : RequestEnv) (w : World) (buildHash : Hash) :
    (candidateOf w (.rollback env buildHash) = none ∧
      (rollbackProjectBuild env w buildHash).1 = w) ∨
    ∃ candidate unavailable commit,
      candidateOf w (.rollback env buildHash) = some (env, candidate) ∧
      SwitchesSite commit candidate ∧ (rollbackProjectBuild env w buildHash).1
        = (switchRelease env w candidate unavailable commit).1 := by
  cases hchecks : rollbackChecks env w buildHash with
  | error e =>
    left
    simp only [candidateOf, rollbackProjectBuild, hchecks, and_self]
  | ok selected =>
    right
    obtain ⟨id, target⟩ := selected
    refine ⟨buildHash, "Rollback release is unavailable",
      rollbackCommit env.now id target buildHash, ?_,
      rollbackCommit_switches env.now id target _, ?_⟩
    · simp only [candidateOf, hchecks]
    · simp only [rollbackProjectBuild, hchecks]

theorem moveStatus_eq {id : BuildId} {sources : List BuildStatus} {target : BuildStatus}
    (h : moveStatus w id sources target = some w') : w'.site = w.site ∧ w'.root = w.root := by
  unfold moveStatus at h
  split at h
  · cases h
  split at h
  · cases h
    exact ⟨rfl, rfl⟩
  · cases h

/-- **Every step keeps a settled directory.** -/
theorem Settled.step {a : Action} (h : Settled w failed) (hlinks : a.links = true)
    (hstep : Release.step w a = some w') : Settled w' (noteFailed w a failed) := by
  have hrows : ∀ w', w'.site = w.site ∧ w'.root = w.root → Settled w' failed :=
    fun w' hw' => h.congr hw'.1 (by rw [hw'.2]) (by rw [hw'.2]) (fun b hb => by rw [hw'.2]; exact hb)
  cases a with
  | queue id =>
    simp only [Release.step, queueBuild] at hstep
    split at hstep
    · cases hstep
    · cases hstep
      exact hrows _ ⟨rfl, rfl⟩
  | start id | fail id | retry id => exact hrows w' (moveStatus_eq hstep)
  | finish id buildHash files now =>
    simp only [Release.step, readyBuild] at hstep
    split at hstep
    · cases hstep
    split at hstep
    · cases hstep
      obtain ⟨hcurrent, hprevious⟩ :=
        placeRelease_entries w.root buildHash (builtDir buildHash files now)
      exact h.congr rfl hcurrent hprevious (fun b hb => placeRelease_keeps w.root _ _ hb)
    · cases hstep
  | publish env id =>
    cases hstep
    unfold noteFailed
    rcases publish_cases env w id with ⟨hnone, heq⟩ | ⟨candidate, _, commit, hsome, hsw, heq⟩
    · rw [hnone, heq]
      exact h
    · rw [hsome, heq]
      exact h.switch hlinks candidate _ hsw
  | rollback env buildHash =>
    cases hstep
    unfold noteFailed
    rcases rollback_cases env w buildHash with
      ⟨hnone, heq⟩ | ⟨candidate, _, commit, hsome, hsw, heq⟩
    · rw [hnone, heq]
      exact h
    · rw [hsome, heq]
      exact h.switch hlinks candidate _ hsw

/-! ## Runs -/

/-- **Compensation.** After any history of builds, publications and rollbacks of a site in
symlink mode: a failed activation is reverted, with `current` as it was and `previous` at
the candidate (or both absent, as they were, when there was no active release); `current`
is the release the row names, and `previous` the one that the row names as previous, unless
an activation has failed since the last success: then it is the candidate of the last one
that did. -/
theorem compensation {w t : World} {run : List Action} {failed : Option Hash}
    (hstart : w.Unpublished) (hlinks : ∀ a ∈ run, a.links = true)
    (hexec : exec (withGhost step noteFailed) (w, none) run = some (t, failed)) :
    (∀ candidate root, activate true t.root candidate = (root, true) →
      ∃ root', restoreActivation true root candidate t.site.buildHash = (root', true) ∧
        root'.current = t.root.current ∧
        root'.previous = (if t.site.buildHash = none then t.root.previous else .link candidate)) ∧
    t.root.current = linkTo t.site.buildHash ∧
    (∀ b, t.site.buildHash = some b →
      matchesBuild (t.root.resolve t.root.current) b = true) ∧
    t.root.previous = linkTo (failed.or t.site.previousBuildHash) := by
  have hsettled : Settled t failed := by
    have hall : Along (withGhost step noteFailed) (fun s a t => a.links = true) (w, none) run :=
      (along_withGhost noteFailed).mpr (along_of_forall hlinks w)
    refine exec_invariant (I := fun s => Settled s.1 s.2) ?_ hstart.settled hall hexec
    rintro ⟨w, failed⟩ a ⟨w', failed'⟩ h hl hstep
    obtain ⟨hs, hg⟩ := withGhost_eq_some.mp hstep
    dsimp only at hs hg h ⊢
    subst hg
    exact h.step hl hs
  refine ⟨fun candidate root hroot => ?_, hsettled.current, fun b hb => ?_, hsettled.previous⟩
  · rw [hsettled.activate_eq] at hroot
    split at hroot
    · next hmatch =>
      cases hroot
      refine ⟨_, hsettled.restore_eq hmatch, hsettled.current.symm, ?_⟩
      cases hb : t.site.buildHash with
      | none =>
        obtain ⟨hprev, hfailed⟩ := hsettled.first hb
        rw [if_pos rfl, hsettled.previous, hprev, hfailed]
        rfl
      | some b => rfl
    · cases hroot
  · rw [hsettled.current, hb]
    exact hsettled.active b hb

/-- Two publications. -/
def twoPublished : List Action :=
  buildActions 0 "a" ++ buildActions 1 "b" ++ buildActions 2 "c"
    ++ [.publish (passing true) 0, .publish (passing true) 1]

/-- After a failed publication of the third build, `current` is `b` again. -/
theorem compensation_third :
    ∃ t failed, exec (withGhost step noteFailed) (newSite, none)
        (twoPublished ++ [.publish (passing false) 2]) = some (t, failed) ∧
      t.site.buildHash = some "b" ∧ t.root.current = linkTo (some "b") := by
  have hrun : (exec (withGhost step noteFailed) (newSite, none)
      (twoPublished ++ [.publish (passing false) 2])).map (·.1.site.buildHash)
      = some (some "b") := by decide +kernel
  obtain ⟨⟨t, failed⟩, hexec, hactive⟩ := Option.map_eq_some_iff.mp hrun
  have h := compensation newSite_unpublished (by decide) hexec
  exact ⟨t, failed, hexec, hactive, hactive ▸ h.2.1⟩

/-- With `b` active and `a` before it, a failed activation of `c` is reverted with success,
and `previous` resolves to `c`. -/
theorem compensation_previous :
    ¬ ∀ (w t : World) (run : List Action), w.Unpublished → (∀ a ∈ run, a.links = true) →
      exec step w run = some t → ∀ candidate root root',
        activate true t.root candidate = (root, true) →
        restoreActivation true root candidate t.site.buildHash = (root', true) →
        root'.current = t.root.current ∧ root'.previous = t.root.previous := by
  intro h
  have hrun : (exec step newSite twoPublished).map (fun t =>
      let activation := activate true t.root "c"
      let restored := restoreActivation true activation.1 "c" t.site.buildHash
      (t.root.previous, activation.2, restored.2, restored.1.previous))
      = some (.link "a", true, true, .link "c") := by decide +kernel
  obtain ⟨t, hexec, hout⟩ := Option.map_eq_some_iff.mp hrun
  simp only [Prod.mk.injEq] at hout
  obtain ⟨hbefore, hactivated, hrestored, hafter⟩ := hout
  have hsame := (h newSite t twoPublished newSite_unpublished (by decide) hexec "c" _ _
    (Prod.ext rfl hactivated) (Prod.ext rfl hrestored)).2
  rw [hafter, hbefore] at hsame
  exact absurd hsame (by decide)

end MegaPanel.Release
