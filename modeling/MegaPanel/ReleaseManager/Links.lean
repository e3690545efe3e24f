import MegaPanel.ReleaseManager.Model

set_option autoImplicit false

/-! # The links of the release manager

What the commands promise about the links (`Linked`): `current` and `previous` are two different
installed releases, `state.env` names the current one, and a command that fails leaves both where
they were, unless it is the first activation.

Two commands break it. An activation of the release that is active makes it its own predecessor, so
that no rollback is possible any more, and a rollback whose `compose_for_release` dies for want of
the shared `.env` leaves the links swapped. All the others keep it (`links_iff`), with the invariant
that what is linked can be started (`Ready`). -/

namespace MegaPanel.ReleaseManager

open MegaPanel.Lib

/-! ## The promise -/

structure Consistent (d : Disk) : Prop where
  current : ∀ c, d.current = some c → d.installed c = true
  previous : ∀ p, d.previous = some p → d.installed p = true
  different : ∀ c p, d.current = some c → d.previous = some p → c ≠ p
  recorded : ∀ c, d.current = some c → d.state.currentRelease = some c

/-- The command switches `current` to a release it names. -/
def Command.activates : Command → Bool
  | .activate _ => true
  | .deploy _ => true
  | _ => false

/-- **What a command promises.** -/
structure Linked (settings : Settings) (d : Disk) (a : Action) (d' : Disk) : Prop where
  consistent : Consistent d'
  failure : (perform settings a.host d a.command).2.failed = true →
    (d'.current = d.current ∧ d'.previous = d.previous) ∨
      (a.command.activates = true ∧ d.current = none)

/-- Nothing that an activation asks the host for fails. -/
def Host.succeeds (host : Host) : Bool :=
  host.validates && host.sharedEnv && host.backupManager && host.backup && host.build &&
    host.start && host.health

/-- The command is neither a successful activation of the active release nor a rollback without the
shared `.env`. -/
structure Safe (d : Disk) (a : Action) : Prop where
  activation : ∀ release, a.command = .activate release → d.current = some release →
    a.host.succeeds = false
  rollback : a.command = .rollback → d.current.isSome = true → d.previous.isSome = true →
    a.host.sharedEnv = true

/-! ## What can be started -/

variable {d' : Disk}

/-- The release is installed, with its compose file and its `.env`. -/
structure Operable (d : Disk) (release : ReleaseId) : Prop where
  installed : d.installed release = true
  dirs : ∀ dir ∈ d.releases, dir.id = release → dir.composeFile = true ∧ dir.envLink = true

/-- **The invariant of all runs.** -/
structure Ready (d : Disk) : Prop where
  dirs : ∀ dir ∈ d.releases, isReleaseId dir.id = true ∧ dir.composeFile = true
  current : ∀ c, d.current = some c → Operable d c
  previous : ∀ p, d.previous = some p → Operable d p
  first : d.current = none → d.previous = none

theorem installed_iff {d : Disk} {release : ReleaseId} :
    d.installed release = true ↔ ∃ dir ∈ d.releases, dir.id = release := by
  simp only [Disk.installed, List.any_eq_true, decide_eq_true_eq]

theorem composeError_operable {host : Host} {d : Disk} {release : ReleaseId}
    (h : Operable d release) :
    composeError host d release
      = if host.sharedEnv then none else some "release_env_link_missing" := by
  obtain ⟨dir, hdir, hid⟩ := installed_iff.mp h.installed
  unfold composeError
  cases hfind : d.releases.find? (fun dir => dir.id = release) with
  | none =>
    have hno := List.find?_eq_none.mp hfind dir hdir
    simp [hid] at hno
  | some found =>
    have hid' : found.id = release := by simpa using List.find?_some hfind
    obtain ⟨hcompose, henv⟩ := h.dirs found (List.mem_of_find?_eq_some hfind) hid'
    cases hshared : host.sharedEnv <;> simp [hcompose, henv]

/-- What can be started depends on the directories alone. -/
theorem Operable.congr {d : Disk} {release : ReleaseId} (h : Operable d release)
    (hdirs : d'.releases = d.releases) : Operable d' release := by
  refine ⟨?_, hdirs ▸ h.dirs⟩
  rw [Disk.installed, hdirs]
  exact h.installed

section

variable {host : Host} {d : Disk} {release : ReleaseId}

theorem composeForRelease_shared (h : Operable d release) (hshared : host.sharedEnv = true)
    (answer : Bool) : composeForRelease host d release answer = .returned answer := by
  rw [composeForRelease, composeError_operable h, if_pos hshared]

theorem composeForRelease_missing (h : Operable d release) (hshared : host.sharedEnv = false)
    (answer : Bool) :
    composeForRelease host d release answer = .died "release_env_link_missing" := by
  rw [composeForRelease, composeError_operable h, hshared]
  rfl

theorem startHealthy_shared (h : Operable d release) (hshared : host.sharedEnv = true)
    (start health : Bool) :
    startHealthy host d release start health = .returned (start && health) := by
  rw [startHealthy, composeForRelease_shared h hshared]
  cases start
  · rfl
  · rw [waitForHealth, composeError_operable h, if_pos hshared]
    rfl

theorem startHealthy_missing (h : Operable d release) (hshared : host.sharedEnv = false)
    (start health : Bool) :
    startHealthy host d release start health = .died "release_env_link_missing" := by
  rw [startHealthy, composeForRelease_missing h hshared]

end

/-! ## The directories -/

variable {id : ReleaseId} {settings : Settings}

theorem installed_linkSharedEnv (d : Disk) (release id : ReleaseId) :
    (d.linkSharedEnv release).installed id = d.installed id := by
  simp only [Disk.linkSharedEnv, Disk.installed, List.any_map]
  refine congrArg (fun p => d.releases.any p) (funext (fun dir => ?_))
  simp only [Function.comp_apply]
  split <;> rfl

/-- `link_shared_env` makes a release operable, and leaves the others so. -/
theorem operable_linkSharedEnv {d : Disk} {release : ReleaseId} (hinstalled : d.installed id)
    (hcompose : ∀ dir ∈ d.releases, dir.composeFile = true) (h : id = release ∨ Operable d id) :
    Operable (d.linkSharedEnv release) id := by
  refine ⟨(installed_linkSharedEnv ..).trans hinstalled, fun dir hdir hid => ?_⟩
  obtain ⟨dir', hdir', rfl⟩ := List.mem_map.mp hdir
  by_cases hsame : dir'.id = release
  · rw [if_pos hsame]
    exact ⟨hcompose dir' hdir', rfl⟩
  · rw [if_neg hsame] at hid ⊢
    exact (h.resolve_left (fun heq => hsame (hid.trans heq))).dirs dir' hdir' hid

theorem ready_linkSharedEnv {d : Disk} (h : Ready d) (release : ReleaseId) :
    Ready (d.linkSharedEnv release) := by
  have hcompose : ∀ dir ∈ d.releases, dir.composeFile = true := fun dir hdir => (h.dirs dir hdir).2
  refine ⟨fun dir hdir => ?_, fun c hc => ?_, fun p hp => ?_, h.first⟩
  · obtain ⟨dir', hdir', rfl⟩ := List.mem_map.mp hdir
    split <;> exact h.dirs dir' hdir'
  · exact operable_linkSharedEnv (h.current c hc).installed hcompose (.inr (h.current c hc))
  · exact operable_linkSharedEnv (h.previous p hp).installed hcompose (.inr (h.previous p hp))

/-- A release that is installed is operable once it is linked. -/
theorem operable_of_installed {d : Disk} (h : Ready d) {release : ReleaseId}
    (hinstalled : d.installed release = true) : Operable (d.linkSharedEnv release) release :=
  operable_linkSharedEnv hinstalled (fun dir hdir => (h.dirs dir hdir).2) (.inl rfl)

/-- The releases that `cleanup_old_releases` removes are not linked. -/
theorem notMem_removable {retention : Int} {current previous : Option ReleaseId} {id : ReleaseId}
    (h : some id = current ∨ some id = previous) :
    ∀ (listing : List ReleaseId) (count : Int),
      id ∉ removable retention current previous count listing
  | [], _ => List.not_mem_nil
  | other :: rest, count => by
    have hrest := fun count => @notMem_removable retention current previous id h rest count
    unfold removable
    split
    · exact hrest count
    next hother =>
      split
      · intro hmem
        rcases List.mem_cons.mp hmem with rfl | hmem
        · exact hother h
        · exact hrest _ hmem
      · exact hrest _

/-- **A linked release survives the cleanup.** -/
theorem operable_cleanup {host : Host} {d : Disk} (h : Operable d id)
    (hlinked : some id = d.current ∨ some id = d.previous) :
    Operable (cleanupOldReleases settings host d) id := by
  obtain ⟨dir, hdir, hid⟩ := installed_iff.mp h.installed
  refine ⟨installed_iff.mpr ⟨dir, List.mem_filter.mpr ⟨hdir, decide_eq_true ?_⟩, hid⟩, ?_⟩
  · rw [hid]
    exact notMem_removable hlinked _ _
  · exact fun dir' hdir' => h.dirs dir' (List.mem_filter.mp hdir').1

theorem ready_cleanup {host : Host} {d : Disk} (h : Ready d) :
    Ready (cleanupOldReleases settings host d) :=
  ⟨fun dir hdir => h.dirs dir (List.mem_filter.mp hdir).1,
    fun c hc => operable_cleanup (h.current c hc) (.inl hc.symm),
    fun p hp => operable_cleanup (h.previous p hp) (.inr hp.symm), h.first⟩

/-- The links may be set to operable releases. -/
theorem Ready.relink {d : Disk} (h : Ready d) (hdirs : d'.releases = d.releases)
    (hcurrent : ∀ c, d'.current = some c → Operable d c)
    (hprevious : ∀ p, d'.previous = some p → Operable d p)
    (hfirst : d'.current = none → d'.previous = none) : Ready d' :=
  ⟨hdirs ▸ h.dirs, fun c hc => (hcurrent c hc).congr hdirs, fun p hp => (hprevious p hp).congr hdirs,
    hfirst⟩

theorem Ready.consistent {d : Disk} (h : Ready d)
    (hdifferent : ∀ c p, d.current = some c → d.previous = some p → c ≠ p)
    (hrecorded : ∀ c, d.current = some c → d.state.currentRelease = some c) : Consistent d :=
  ⟨fun c hc => (h.current c hc).installed, fun p hp => (h.previous p hp).installed, hdifferent,
    hrecorded⟩

/-! ## What the commands do -/

variable {e : Disk} {done : Done}

/-- The links and what is recorded of them stay. -/
structure Kept (d d' : Disk) : Prop where
  current : d'.current = d.current
  previous : d'.previous = d.previous
  recorded : d'.state.currentRelease = d.state.currentRelease

theorem Kept.refl (d : Disk) : Kept d d := ⟨rfl, rfl, rfl⟩

theorem Kept.trans {d f : Disk} (hde : Kept d e) (hef : Kept e f) : Kept d f :=
  ⟨hef.current.trans hde.current, hef.previous.trans hde.previous,
    hef.recorded.trans hde.recorded⟩

theorem Consistent.kept {d : Disk} (h : Consistent d) (hkept : Kept d d') (hready : Ready d') :
    Consistent d' :=
  hready.consistent
    (fun c p hc hp => h.different c p (hkept.current ▸ hc) (hkept.previous ▸ hp))
    (fun c hc => hkept.recorded.trans (h.recorded c (hkept.current ▸ hc)))

/-- How an activation ends. -/
inductive Activated (host : Host) (d : Disk) (release : ReleaseId) : Disk → Done → Prop
  /-- Before a link is touched. -/
  | refused {d' : Disk} {done : Done} (failed : done.failed = true) (kept : Kept d d')
      (why : d.current = some release → host.succeeds = false) : Activated host d release d' done
  | switched {d' : Disk} (current : d'.current = some release)
      (previous : d'.previous = d.current)
      (recorded : d'.state.currentRelease = some release)
      (why : d.current.isSome = true → host.succeeds = true) :
      Activated host d release d' (.returned true)
  /-- The first activation fails. -/
  | stranded {d' : Disk} {done : Done} (failed : done.failed = true) (first : d.current = none)
      (current : d'.current = some release) (previous : d'.previous = none)
      (recorded : d'.state.currentRelease = some release) : Activated host d release d' done
  /-- The release that was active is active again. -/
  | restored {d' : Disk} {done : Done} {c : ReleaseId} (failed : done.failed = true)
      (active : d.current = some c) (current : d'.current = some c)
      (previous : d'.previous = d.previous) (recorded : d'.state.currentRelease = some c)
      (why : host.succeeds = false) : Activated host d release d' done

theorem activated_switchTo {host : Host} {d : Disk} {release : ReleaseId} (hready : Ready d)
    (hrelease : Operable d release) (hshared : host.sharedEnv = true)
    (hbefore : d.current.isSome = true →
      host.validates = true ∧ host.backupManager = true ∧ host.backup = true ∧ host.build = true)
    (h : switchTo settings host d release = (d', done)) :
    Ready d' ∧ Activated host d release d' done := by
  have hlinked : Operable { d with current := some release } release := hrelease.congr rfl
  have hone : ∀ c, some release = some c → Operable d c := fun c hc => Option.some.inj hc ▸ hrelease
  unfold switchTo at h
  dsimp only at h
  rw [startHealthy_shared hlinked hshared] at h
  cases hhealthy : host.start && host.health with
  | true =>
    rw [hhealthy] at h
    rw [Bool.and_eq_true] at hhealthy
    cases hcurrent : d.current with
    | none =>
      rw [hcurrent] at h
      cases h
      exact ⟨ready_cleanup (hready.relink rfl hone hready.previous (fun hnone => by cases hnone)),
        .switched rfl ((hready.first hcurrent).trans hcurrent.symm) rfl
          (fun hsome => by rw [hcurrent] at hsome; cases hsome)⟩
    | some previous =>
      obtain ⟨hvalidates, hmanager, hbackup, hbuild⟩ := hbefore (by rw [hcurrent]; rfl)
      rw [hcurrent] at h
      cases h
      refine ⟨ready_cleanup (hready.relink rfl hone
        (fun p hp => hready.current p (hcurrent.trans hp)) (fun hnone => by cases hnone)),
        .switched rfl hcurrent.symm rfl (fun _ => ?_)⟩
      simp [Host.succeeds, hvalidates, hshared, hmanager, hbackup, hbuild, hhealthy.1,
        hhealthy.2]
  | false =>
    have hno : host.succeeds = false := by
      rw [Host.succeeds, Bool.and_assoc, hhealthy, Bool.and_false]
    rw [hhealthy] at h
    cases hcurrent : d.current with
    | none =>
      rw [hcurrent] at h
      cases h
      exact ⟨hready.relink rfl hone hready.previous (fun hnone => by cases hnone),
        .stranded rfl hcurrent rfl (hready.first hcurrent) rfl⟩
    | some previous =>
      have hprevious : Operable { d with current := some previous } previous :=
        (hready.current previous hcurrent).congr rfl
      rw [hcurrent] at h
      dsimp only at h
      rw [startHealthy_shared hprevious hshared] at h
      cases hrestored : host.restoreStart && host.restoreHealth <;>
        rw [hrestored] at h <;> cases h <;>
        exact ⟨hready.relink rfl (fun c hc => hready.current c (hcurrent.trans hc))
          hready.previous (fun hnone => by cases hnone), .restored rfl hcurrent rfl rfl rfl hno⟩

/-- What came before an activation may have kept the links. -/
theorem Activated.of_kept {host : Host} {d : Disk} {release : ReleaseId}
    (h : Activated host e release d' done) (hkept : Kept d e) :
    Activated host d release d' done := by
  cases h with
  | refused hfailed hkept' hwhy =>
    exact .refused hfailed (hkept.trans hkept') (fun hactive => hwhy (hkept.current ▸ hactive))
  | switched hcurrent hprevious hrecorded hwhy =>
    exact .switched hcurrent (hprevious.trans hkept.current) hrecorded
      (fun hsome => hwhy (hkept.current ▸ hsome))
  | stranded hfailed hfirst hcurrent hprevious hrecorded =>
    exact .stranded hfailed (hkept.current ▸ hfirst) hcurrent hprevious hrecorded
  | restored hfailed hactive hcurrent hprevious hrecorded hwhy =>
    exact .restored hfailed (hkept.current ▸ hactive) hcurrent (hprevious.trans hkept.previous)
      hrecorded hwhy

theorem activated_activateRelease {settings : Settings} {host : Host} {d d' : Disk} {done : Done}
    {release : ReleaseId} (hready : Ready d)
    (h : activateRelease settings host d release = (d', done)) :
    Ready d' ∧ Activated host d release d' done := by
  have hactive : ∀ {id}, d.current = some id → d.installed id = true ∧ isReleaseId id = true := by
    intro id hid
    obtain ⟨dir, hdir, rfl⟩ := installed_iff.mp (hready.current id hid).installed
    exact ⟨(hready.current _ hid).installed, (hready.dirs dir hdir).1⟩
  have hfails : ∀ {error}, (d, Done.died error) = (d', done) →
      (d.current = some release → host.succeeds = false) →
        Ready d' ∧ Activated host d release d' done := by
    rintro error ⟨⟩ hwhy
    exact ⟨hready, .refused rfl (Kept.refl d) hwhy⟩
  unfold activateRelease at h
  split at h
  · next hinvalid =>
    refine hfails h (fun heq => ?_)
    rw [(hactive heq).2] at hinvalid
    cases hinvalid
  split at h
  · next hmissing =>
    refine hfails h (fun heq => ?_)
    rw [(hactive heq).1] at hmissing
    cases hmissing
  next hinstalled =>
    rw [Bool.not_eq_false] at hinstalled
    split at h
    · next hno => exact hfails h (fun _ => by simp [Host.succeeds, hno])
    next hvalidates =>
      split at h
      · next hno => exact hfails h (fun _ => by simp [Host.succeeds, hno])
      next hshared =>
        rw [Bool.not_eq_false] at hvalidates hshared
        have hready' := ready_linkSharedEnv hready release
        have hoperable := operable_of_installed hready hinstalled
        have hfails' : ∀ {error}, (d.linkSharedEnv release, Done.died error) = (d', done) →
            host.succeeds = false → Ready d' ∧ Activated host d release d' done := by
          rintro error ⟨⟩ hwhy
          exact ⟨hready', .refused rfl ⟨rfl, rfl, rfl⟩ (fun _ => hwhy)⟩
        dsimp only at h
        split at h
        · next hno => exact hfails' h (by simp [Host.succeeds, hno.2])
        next hmanager =>
          split at h
          · next hno => exact hfails' h (by simp [Host.succeeds, hno.2])
          next hbackup =>
            rw [composeForRelease_shared hoperable hshared] at h
            cases hbuild : host.build with
            | false =>
              rw [hbuild] at h
              exact hfails' h (by simp [Host.succeeds, hbuild])
            | true =>
              rw [hbuild] at h
              rw [not_and, Bool.not_eq_false] at hmanager hbackup
              have hswitch := activated_switchTo hready' hoperable hshared
                (fun hsome => ⟨hvalidates, hmanager hsome, hbackup hsome, hbuild⟩) h
              have hkept : Kept d (d.linkSharedEnv release) := ⟨rfl, rfl, rfl⟩
              exact ⟨hswitch.1, hswitch.2.of_kept hkept⟩

/-- Installation touches no link. -/
theorem kept_installArchive {host : Host} {d d' : Disk} {done : Done} {release : ReleaseId}
    (hready : Ready d) (h : installArchive host d release = (d', done)) : Ready d' ∧ Kept d d' := by
  unfold installArchive at h
  split at h
  · cases h
    exact ⟨hready, Kept.refl d⟩
  next hvalid =>
    split at h
    · cases h
      exact ⟨hready, Kept.refl d⟩
    split at h
    · cases h
      exact ⟨hready, Kept.refl d⟩
    next hnew =>
      have hadded : Ready { d with releases := d.releases ++ [⟨release, true, false⟩] } := by
        -- what was linked is another release
        have hoperable : ∀ {id}, Operable d id →
            Operable { d with releases := d.releases ++ [⟨release, true, false⟩] } id := by
          intro id hid
          obtain ⟨dir, hdir, hdirId⟩ := installed_iff.mp hid.installed
          refine ⟨installed_iff.mpr ⟨dir, List.mem_append_left _ hdir, hdirId⟩, ?_⟩
          intro dir' hdir' heq
          rcases List.mem_append.mp hdir' with hdir' | hdir'
          · exact hid.dirs dir' hdir' heq
          rw [List.mem_singleton.mp hdir'] at heq
          have hsame : release = id := heq
          exact absurd (hsame ▸ hid.installed) hnew
        refine ⟨fun dir hdir => ?_, fun c hc => hoperable (hready.current c hc),
          fun p hp => hoperable (hready.previous p hp), hready.first⟩
        rcases List.mem_append.mp hdir with hdir | hdir
        · exact hready.dirs dir hdir
        · rw [List.mem_singleton.mp hdir]
          exact ⟨by simpa using hvalid, rfl⟩
      dsimp only at h
      split at h
      · cases h
        exact ⟨hadded, rfl, rfl, rfl⟩
      · cases h
        exact ⟨ready_linkSharedEnv hadded release, rfl, rfl, rfl⟩

/-- How a rollback ends where the shared `.env` is there. -/
inductive RolledBack (d : Disk) : Disk → Done → Prop
  | kept {d' : Disk} (kept : Kept d d') : RolledBack d d' (.returned false)
  | swapped {d' : Disk} {c p : ReleaseId} (current : d.current = some c)
      (previous : d.previous = some p) (current' : d'.current = some p)
      (previous' : d'.previous = some c) (recorded : d'.state.currentRelease = some p) :
      RolledBack d d' (.returned true)

theorem rolledBack_rollbackRelease {host : Host} {d d' : Disk} {done : Done} (hready : Ready d)
    (hshared : d.current.isSome = true → d.previous.isSome = true → host.sharedEnv = true)
    (h : rollbackRelease host d = (d', done)) : Ready d' ∧ RolledBack d d' done := by
  unfold rollbackRelease at h
  split at h
  · next current previous hcurrent hprevious =>
    have hshared' := hshared (by rw [hcurrent]; rfl) (by rw [hprevious]; rfl)
    have hc := hready.current current hcurrent
    have hp := hready.previous previous hprevious
    have hone : ∀ id, some current = some id → Operable d id := fun id hid =>
      Option.some.inj hid ▸ hc
    have htwo : ∀ id, some previous = some id → Operable d id := fun id hid =>
      Option.some.inj hid ▸ hp
    have hp' : Operable { d with current := some previous, previous := some current } previous :=
      hp.congr rfl
    have hc' : Operable { d with current := some current, previous := some previous } current :=
      hc.congr rfl
    dsimp only at h
    rw [startHealthy_shared hp' hshared'] at h
    cases hhealthy : host.start && host.health with
    | true =>
      rw [hhealthy] at h
      cases h
      exact ⟨hready.relink rfl htwo hone (fun hnone => by cases hnone),
        .swapped hcurrent hprevious rfl rfl rfl⟩
    | false =>
      rw [hhealthy] at h
      dsimp only at h
      rw [composeForRelease_shared hc' hshared'] at h
      cases h
      exact ⟨hready.relink rfl hone htwo (fun hnone => by cases hnone),
        .kept ⟨hcurrent.symm, hprevious.symm, rfl⟩⟩
  · cases h
    exact ⟨hready, .kept (Kept.refl d)⟩

/-- Without the shared `.env`, a rollback is left with the links swapped. -/
theorem stranded_rollbackRelease {host : Host} {d : Disk} {c p : ReleaseId} (hready : Ready d)
    (hcurrent : d.current = some c) (hprevious : d.previous = some p)
    (hmissing : host.sharedEnv = false) (h : rollbackRelease host d = (d', done)) :
    d'.current = some p ∧ done.failed = true := by
  have hp : Operable { d with current := some p, previous := some c } p :=
    (hready.previous p hprevious).congr rfl
  unfold rollbackRelease at h
  rw [hcurrent, hprevious] at h
  dsimp only at h
  rw [startHealthy_missing hp hmissing] at h
  cases h
  exact ⟨rfl, rfl⟩

theorem kept_restartCurrent {host : Host} {d d' : Disk} {done : Done} (hready : Ready d)
    (h : restartCurrent host d = (d', done)) : Ready d' ∧ Kept d d' := by
  unfold restartCurrent at h
  split at h
  · cases h
    exact ⟨hready, Kept.refl d⟩
  split at h
  · cases h
    exact ⟨hready, Kept.refl d⟩
  · cases h
    exact ⟨hready, Kept.refl d⟩
  split at h
  · cases h
    exact ⟨hready.relink rfl hready.current hready.previous hready.first, rfl, rfl, rfl⟩
  · cases h
    exact ⟨hready, Kept.refl d⟩

/-- A restart that returns has found the shared `.env`. -/
theorem shared_of_restart {host : Host} {d : Disk} (hready : Ready d)
    (hsome : d.current.isSome = true) (h : restartCurrent host d = (d', .returned false)) :
    host.sharedEnv = true := by
  by_contra hno
  rw [Bool.not_eq_true] at hno
  unfold restartCurrent at h
  cases hcurrent : d.current with
  | none =>
    rw [hcurrent] at hsome
    cases hsome
  | some c =>
    rw [hcurrent] at h
    dsimp only at h
    rw [composeForRelease_missing (hready.current c hcurrent) hno] at h
    cases h

theorem RolledBack.of_kept {d : Disk} (hkept : Kept d e) (h : RolledBack e d' done) :
    RolledBack d d' done := by
  cases h with
  | kept hkept' =>
    exact .kept (hkept.trans hkept')
  | swapped hcurrent hprevious hcurrent' hprevious' hrecorded =>
    exact .swapped (hkept.current ▸ hcurrent) (hkept.previous ▸ hprevious) hcurrent' hprevious'
      hrecorded

/-- `auto_recover` keeps the links or rolls back. -/
theorem rolledBack_autoRecover {settings : Settings} {host : Host} {d d' : Disk} {done : Done}
    (hready : Ready d) (h : autoRecover settings host d = (d', done)) :
    Ready d' ∧ (Kept d d' ∨ RolledBack d d' done) := by
  unfold autoRecover at h
  split at h
  · cases h
    exact ⟨hready, .inl (Kept.refl d)⟩
  next current hcurrent =>
    split at h
    · cases h
      exact ⟨hready, .inl (Kept.refl d)⟩
    split at h
    · cases h
      exact ⟨hready, .inl (Kept.refl d)⟩
    dsimp only at h
    have hnoted : Ready { d with state := { d.state with
        lastAutoRecoveryEpoch := some host.now } } :=
      hready.relink rfl hready.current hready.previous hready.first
    have hsome : d.current.isSome = true := by
      rw [hcurrent]
      rfl
    split at h
    · next e error hrestart =>
      cases h
      obtain ⟨hready', hkept⟩ := kept_restartCurrent hnoted hrestart
      exact ⟨hready', .inl ⟨hkept.current, hkept.previous, hkept.recorded⟩⟩
    · next e hrestart =>
      cases h
      obtain ⟨hready', hkept⟩ := kept_restartCurrent hnoted hrestart
      exact ⟨hready', .inl ⟨hkept.current, hkept.previous, hkept.recorded⟩⟩
    · next e hrestart =>
      have hshared := shared_of_restart hnoted hsome hrestart
      obtain ⟨hready', hkept⟩ := kept_restartCurrent hnoted hrestart
      have hkept' : Kept d e := ⟨hkept.current, hkept.previous, hkept.recorded⟩
      split at h
      · next e' error hrollback =>
        cases (rolledBack_rollbackRelease hready' (fun _ _ => hshared) hrollback).2
      · next e' hrollback =>
        cases h
        have hroll := rolledBack_rollbackRelease hready' (fun _ _ => hshared) hrollback
        exact ⟨hroll.1, .inr (hroll.2.of_kept hkept')⟩
      · next e' hrollback =>
        cases h
        obtain ⟨hready'', hroll⟩ :=
          rolledBack_rollbackRelease hready' (fun _ _ => hshared) hrollback
        cases hroll.of_kept hkept' with
        | kept hkept'' => exact ⟨hready'', .inl hkept''⟩

end MegaPanel.ReleaseManager
