import MegaPanel.ReleaseManager.Links

set_option autoImplicit false

/-! # Runs of the release manager

Every command keeps its promise exactly when it is safe (`linked_iff_safe`), and so every run from
an empty host does (`links_iff`): in a run without a successful activation of the active release and
without a rollback that misses the shared `.env`, `current` and `previous` are different installed
releases behind every command, and automatic recovery has a release to go back to. -/

namespace MegaPanel.ReleaseManager

open MegaPanel.Lib

section

variable {settings : Settings} {d d' : Disk} {a : Action}

theorem perform_of_step (h : step settings d a = some d') :
    ∃ done, perform settings a.host d a.command = (d', done) := by
  obtain rfl := Option.some.inj h
  exact ⟨_, rfl⟩

variable {done : Done}

/-- `|| die` changes the way a function ends, not the disk. -/
theorem orDie_eq {error : String} {result : Disk × Done} (h : orDie error result = (d', done)) :
    ∃ done', result = (d', done') ∧ done.failed = done'.failed := by
  obtain ⟨e, done'⟩ := result
  cases done' with
  | died other =>
    cases h
    exact ⟨_, rfl, rfl⟩
  | returned ok =>
    cases ok <;> cases h
    · exact ⟨_, rfl, rfl⟩
    · exact ⟨_, rfl, rfl⟩

/-- A command that keeps the links keeps its promise. -/
theorem linked_of_kept (hd : Consistent d) (hready : Ready d') (hkept : Kept d d') :
    Linked settings d a d' :=
  ⟨hd.kept hkept hready, fun _ => .inl ⟨hkept.current, hkept.previous⟩⟩

/-- A rollback keeps the promise. -/
theorem linked_of_rolledBack (hd : Consistent d) (hready : Ready d') (hroll : RolledBack d d' done)
    (hdone : (perform settings a.host d a.command).2.failed = done.failed) :
    Linked settings d a d' := by
  cases hroll with
  | kept hkept => exact linked_of_kept hd hready hkept
  | @swapped c p hcurrent hprevious hcurrent' hprevious' hrecorded =>
    refine ⟨hready.consistent ?_ ?_, fun hfail => by rw [hdone] at hfail; cases hfail⟩
    · intro c' p' hc hp
      obtain rfl : p = c' := Option.some.inj (hcurrent'.symm.trans hc)
      obtain rfl : c = p' := Option.some.inj (hprevious'.symm.trans hp)
      exact (hd.different c p hcurrent hprevious).symm
    · intro c' hc
      rw [hrecorded, ← hcurrent', hc]

variable {release : ReleaseId}

/-- An activation keeps the promise if the release it succeeds with was not the active one. -/
theorem linked_of_activated (hd : Consistent d) (hready : Ready d')
    (hactivated : Activated a.host d release d' done) (hactivates : a.command.activates = true)
    (hdone : (perform settings a.host d a.command).2 = done)
    (hother : a.host.succeeds = true → d.current ≠ some release) : Linked settings d a d' := by
  cases hactivated with
  | refused _ hkept _ => exact linked_of_kept hd hready hkept
  | switched hcurrent hprevious hrecorded hwhy =>
    refine ⟨hready.consistent ?_ ?_, fun hfail => by rw [hdone] at hfail; cases hfail⟩
    · intro c p hc hp heq
      rw [hprevious] at hp
      rw [hcurrent] at hc
      have hsucceeds := hwhy (by rw [hp]; rfl)
      exact hother hsucceeds (hp.trans (heq ▸ hc.symm))
    · intro c hc
      rw [hrecorded, ← hcurrent, hc]
  | stranded _ hfirst hcurrent hprevious hrecorded =>
    refine ⟨hready.consistent ?_ ?_, fun _ => .inr ⟨hactivates, hfirst⟩⟩
    · intro c p _ hp
      rw [hprevious] at hp
      cases hp
    · intro c hc
      rw [hrecorded, ← hcurrent, hc]
  | @restored _ c _ hactive hcurrent hprevious hrecorded _ =>
    refine ⟨hready.consistent ?_ ?_, fun _ => .inl ⟨hcurrent.trans hactive.symm, hprevious⟩⟩
    · intro c' p hc hp
      obtain rfl : c = c' := Option.some.inj (hcurrent.symm.trans hc)
      exact hd.different c p hactive (hprevious ▸ hp)
    · intro c' hc
      rw [hrecorded, ← hcurrent, hc]

/-- What `install-archive` has installed was not installed before. -/
theorem not_installed_of_installArchive {host : Host}
    (h : installArchive host d release = (d', .returned true)) : d.installed release = false := by
  unfold installArchive at h
  split at h
  · cases h
  split at h
  · cases h
  split at h
  · cases h
  · next hnew => exact Bool.not_eq_true _ ▸ hnew

/-- **One command.** It keeps its promise exactly when it is safe. -/
theorem linked_iff_safe (hready : Ready d) (hd : Consistent d)
    (hstep : step settings d a = some d') :
    (Linked settings d a d' ↔ Safe d a) ∧ (Safe d a → Ready d') := by
  obtain ⟨done, hperform⟩ := perform_of_step hstep
  obtain ⟨command, host⟩ := a
  dsimp only at hperform
  have hdone := congrArg Prod.snd hperform
  cases command with
  | installArchive release =>
    obtain ⟨hready', hkept⟩ := kept_installArchive hready hperform
    exact ⟨iff_of_true (linked_of_kept hd hready' hkept) ⟨nofun, nofun⟩, fun _ => hready'⟩
  | activate release =>
    obtain ⟨hready', hactivated⟩ := activated_activateRelease hready hperform
    refine ⟨⟨fun hlinked => ⟨?_, nofun⟩, fun hsafe => ?_⟩, fun _ => hready'⟩
    · rintro release' ⟨⟩ hactive
      by_contra hsucceeds
      rw [Bool.not_eq_false] at hsucceeds
      cases hactivated with
      | refused _ _ hwhy => exact absurd hsucceeds (Bool.eq_false_iff.mp (hwhy hactive))
      | switched hcurrent hprevious _ _ =>
        exact hlinked.consistent.different release release hcurrent
          (hprevious.trans hactive) rfl
      | stranded _ hfirst _ _ _ =>
        rw [hfirst] at hactive
        cases hactive
      | restored _ _ _ _ _ hwhy => exact absurd hsucceeds (Bool.eq_false_iff.mp hwhy)
    · refine linked_of_activated hd hready' hactivated rfl hdone (fun hsucceeds hactive => ?_)
      rw [hsafe.activation release rfl hactive] at hsucceeds
      cases hsucceeds
  | deploy release =>
    have hsafe : Safe d ⟨.deploy release, host⟩ := ⟨nofun, nofun⟩
    unfold perform at hperform
    dsimp only at hperform
    split at hperform
    · next e hinstall =>
      obtain ⟨hready', hkept⟩ := kept_installArchive hready hinstall
      obtain ⟨hready'', hactivated⟩ := activated_activateRelease hready' hperform
      have hother : d.current ≠ some release := fun hactive => by
        have hnew := not_installed_of_installArchive hinstall
        rw [hd.current release hactive] at hnew
        cases hnew
      exact ⟨iff_of_true (linked_of_activated hd hready'' (hactivated.of_kept hkept) rfl hdone
        (fun _ => hother)) hsafe, fun _ => hready''⟩
    · obtain ⟨hready', hkept⟩ := kept_installArchive hready hperform
      exact ⟨iff_of_true (linked_of_kept hd hready' hkept) hsafe, fun _ => hready'⟩
  | restart =>
    obtain ⟨done', hrestart, _⟩ := orDie_eq hperform
    obtain ⟨hready', hkept⟩ := kept_restartCurrent hready hrestart
    exact ⟨iff_of_true (linked_of_kept hd hready' hkept) ⟨nofun, nofun⟩, fun _ => hready'⟩
  | rollback =>
    obtain ⟨done', hrollback, hfailed⟩ := orDie_eq hperform
    by_cases hshared : d.current.isSome = true → d.previous.isSome = true →
        host.sharedEnv = true
    · obtain ⟨hready', hroll⟩ := rolledBack_rollbackRelease hready hshared hrollback
      exact ⟨iff_of_true (linked_of_rolledBack hd hready' hroll (hdone ▸ hfailed))
        ⟨nofun, fun _ => hshared⟩, fun _ => hready'⟩
    have hno : ¬ Safe d ⟨.rollback, host⟩ := fun h => hshared (h.rollback rfl)
    refine ⟨iff_of_false (fun hlinked => ?_) hno, fun h => absurd h hno⟩
    rw [Classical.not_imp, Classical.not_imp, Bool.not_eq_true] at hshared
    obtain ⟨hcurrent, hprevious, hmissing⟩ := hshared
    obtain ⟨c, hc⟩ := Option.isSome_iff_exists.mp hcurrent
    obtain ⟨p, hp⟩ := Option.isSome_iff_exists.mp hprevious
    obtain ⟨hcurrent', hdied⟩ := stranded_rollbackRelease hready hc hp hmissing hrollback
    rcases hlinked.failure (by rw [hdone, hfailed, hdied]) with hkept | hfirst
    · exact hd.different c p hc hp (Option.some.inj (hc.symm.trans
        (hkept.1.symm.trans hcurrent')))
    · cases hfirst.1
  | autoRecover =>
    obtain ⟨hready', hkept | hroll⟩ := rolledBack_autoRecover hready hperform
    · exact ⟨iff_of_true (linked_of_kept hd hready' hkept) ⟨nofun, nofun⟩, fun _ => hready'⟩
    · exact ⟨iff_of_true (linked_of_rolledBack hd hready' hroll (congrArg Done.failed hdone))
        ⟨nofun, nofun⟩, fun _ => hready'⟩

end

/-! ## Whole runs -/

theorem ready_freshDisk : Ready freshDisk := ⟨nofun, nofun, nofun, fun _ => rfl⟩

theorem consistent_freshDisk : Consistent freshDisk := ⟨nofun, nofun, nofun, nofun⟩

/-- **The links of the host.** From an empty host, all commands of a run keep their promise if and
only if all of them are safe. -/
theorem links_iff (settings : Settings) (commands : List Action) :
    Along (step settings) (Linked settings) freshDisk commands ↔
      Along (step settings) (fun d a _ => Safe d a) freshDisk commands := by
  have hinit : Ready freshDisk ∧ Consistent freshDisk := ⟨ready_freshDisk, consistent_freshDisk⟩
  constructor
  · refine along_rule (I := fun d => Ready d ∧ Consistent d) (fun d a d' hd hlinked hstep => ?_) hinit
    obtain ⟨hiff, hready⟩ := linked_iff_safe hd.1 hd.2 hstep
    have hsafe := hiff.mp hlinked
    exact ⟨⟨hready hsafe, hlinked.consistent⟩, hsafe⟩
  · refine along_rule (I := fun d => Ready d ∧ Consistent d) (fun d a d' hd hsafe hstep => ?_) hinit
    obtain ⟨hiff, hready⟩ := linked_iff_safe hd.1 hd.2 hstep
    have hlinked := hiff.mpr hsafe
    exact ⟨⟨hready hsafe, hlinked.consistent⟩, hlinked⟩

/-! ## The active release, activated once more -/

def someRelease : ReleaseId := List.replicate 40 'a'

/-- Nothing fails. -/
def goodHost : Host where
  sharedEnv := true
  archive := true
  validates := true
  backupManager := true
  backup := true
  build := true
  start := true
  health := true
  restoreStart := true
  restoreHealth := true
  currentHealth := true
  restart := true
  restartHealth := true
  now := 0
  listing := [someRelease]

/-- A deployment, and an activation of what was deployed: both links are the same release. -/
theorem reactivation_loses_previous :
    ¬ Along (step ⟨5, 900⟩) (Linked ⟨5, 900⟩) freshDisk
      [⟨.deploy someRelease, goodHost⟩, ⟨.activate someRelease, goodHost⟩] := by
  intro h
  obtain ⟨_, hrest⟩ := h _ rfl
  obtain ⟨hlinked, _⟩ := hrest _ rfl
  exact hlinked.consistent.different someRelease someRelease (by rfl) (by rfl) rfl

end MegaPanel.ReleaseManager
