import Mathlib.Data.List.ReduceOption
import MegaPanel.Lib.Sha256
import MegaPanel.Release.Identity

set_option autoImplicit false

/-! # Release retention

`prune_stale_site_releases` deletes releases that are older than 90 days, not among the three
newest and not referenced. It reads the site, then the builds, then the links and the
listing of the releases, and deletes one directory after the other. In between, candidate
builds run: each places its release, reusing a directory of the same hash, and records the
hash in its row only later, when it is ready.
-/

namespace MegaPanel.Release

open MegaPanel.Lib

/-! ## What a sweep deletes -/

/-- `_RETENTION_DAYS` -/
def retentionDays : Nat := 90

/-- `_KEEP_NEWEST` -/
def keepNewest : Nat := 3

/-- `_release_hash` of the retention sweep: whether `releases/<hash>` is a release. -/
def isRelease (root : Root) (hash : Hash) : Bool :=
  Sha256.isSha256 hash && matchesBuild (root.releases.get hash) hash

/-- `_linked_release_hash` -/
def linkedRelease (root : Root) : Entry → Option Hash
  | .link target => if isRelease root target then some target else none
  | _ => none

/-- The hashes that the site row protects. -/
def siteHashes (site : Site) : List Hash :=
  [site.buildHash, site.previousBuildHash].reduceOption.filter Sha256.isSha256

/-- The query of the sweep for the builds of its site. -/
def protectedBuilds (w : World) : List (BuildId × Build) :=
  w.builds.rows.filter (fun r =>
    r.2.scope.siteId = w.scope.siteId &&
      (r.2.status ∈ [BuildStatus.queued, .running, .ready] || r.2.firstPublishedAt.isSome))

/-- The hashes that the selected builds protect. -/
def buildHashes (builds : List (BuildId × Build)) : List Hash :=
  (builds.flatMap (fun r => [r.2.buildHash, r.2.previousBuildHash])).reduceOption.filter
    Sha256.isSha256

/-- The releases on disk, the newest first. -/
def listedReleases (root : Root) : List (Hash × Dir) :=
  (root.releases.rows.filter (fun r => isRelease root r.1)).insertionSort
    (fun a b => b.2.mtime < a.2.mtime ∨ (b.2.mtime = a.2.mtime ∧ b.1 ≤ a.1))

/-- The releases that `prune_site_releases` goes on to delete. -/
def pruneList (root : Root) (protectedHashes : List Hash) (now : Time) : List Hash :=
  let links := [linkedRelease root root.current, linkedRelease root root.previous].reduceOption
  let releases := listedReleases root
  let newest := (releases.take keepNewest).map Prod.fst
  (releases.filter (fun r =>
    !(decide (r.1 ∈ protectedHashes) || decide (r.1 ∈ links) || decide (r.1 ∈ newest)
      || decide (now ≤ r.2.mtime + days retentionDays)))).map Prod.fst

/-! ## Workers and sweeps -/

abbrev WorkerId := Nat
abbrev SweepId := Nat

/-- A candidate build in progress; `output` is the hash of the release it has placed. -/
structure Worker where
  build : BuildId
  output : Option Hash
  deriving DecidableEq

/-- A sweep in progress: the site has been read, or also the builds, or it is deleting;
`removing` says that the first directory of `todo` is partly deleted. -/
inductive Sweep
  | site (hashes : List Hash)
  | builds (hashes : List Hash) (rows : List (BuildId × Build))
  | deleting (todo : List Hash) (removing : Bool)
  deriving DecidableEq

structure State where
  world : World
  workers : Table WorkerId Worker
  sweeps : Table SweepId Sweep

inductive RetentionAction
  | history (a : Action)
  | begin (worker : WorkerId) (id : BuildId)
  | place (worker : WorkerId) (buildHash : Hash) (files : List (String × List UInt8)) (now : Time)
  | ready (worker : WorkerId)
  | failed (worker : WorkerId)
  | dropped (worker : WorkerId)
  | readSite (sweep : SweepId)
  | readBuilds (sweep : SweepId)
  | list (sweep : SweepId) (now : Time)
  | remove (sweep : SweepId)
  | removed (sweep : SweepId)
  | skip (sweep : SweepId)

/-- Whether a sweep deletes a release it has listed: it checks it once more. -/
def deletable (root : Root) (hash : Hash) : Bool :=
  isRelease root hash &&
    (root.releases.get hash).all (fun d => d.artifacts.all (fun a => a.2 ≠ .symlink))

/-- A directory whose deletion has begun. -/
def Dir.damaged (d : Dir) : Dir := { d with artifacts := [], marker := none }

/-- One step of the builds, the requests and the sweeps of a site. In `history`, the start
and the end of a build are left to its worker. -/
def retentionStep (s : State) : RetentionAction → Option State
  | .history (.start _) => none
  | .history (.finish ..) => none
  | .history a => (step s.world a).map (fun w => { s with world := w })
  | .begin k id =>
    match s.workers.get k with
    | some _ => none
    | none =>
      (moveStatus s.world id [.queued] .running).map (fun w =>
        { s with world := w, workers := s.workers.set k { build := id, output := none } })
  | .place k buildHash files now =>
    match s.workers.get k with
    | some { build := id, output := none } =>
      let root := placeRelease s.world.root buildHash (builtDir buildHash files now)
      some { s with
        world := { s.world with root := root }
        workers := s.workers.set k { build := id, output := some buildHash } }
    | _ => none
  | .ready k =>
    match s.workers.get k with
    | some { build := id, output := some buildHash } =>
      (readyBuild s.world id buildHash).map (fun w =>
        { s with world := w, workers := s.workers.erase k })
    | _ => none
  | .failed k =>
    match s.workers.get k with
    | none => none
    | some worker =>
      (moveStatus s.world worker.build [.running] .failed).map (fun w =>
        { s with world := w, workers := s.workers.erase k })
  | .dropped k => some { s with workers := s.workers.erase k }
  | .readSite k =>
    match s.sweeps.get k with
    | some _ => none
    | none => some { s with sweeps := s.sweeps.set k (.site (siteHashes s.world.site)) }
  | .readBuilds k =>
    match s.sweeps.get k with
    | some (.site hashes) =>
      some { s with sweeps := s.sweeps.set k (.builds hashes (protectedBuilds s.world)) }
    | _ => none
  | .list k now =>
    match s.sweeps.get k with
    | some (.builds hashes rows) =>
      let todo := pruneList s.world.root (hashes ++ buildHashes rows) now
      some { s with sweeps := s.sweeps.set k (.deleting todo false) }
    | _ => none
  | .remove k =>
    match s.sweeps.get k with
    | some (.deleting (hash :: todo) false) =>
      match s.world.root.releases.get hash with
      | none => none
      | some d =>
        if deletable s.world.root hash then
          let root := { s.world.root with
            releases := s.world.root.releases.set hash d.damaged }
          some { s with
            world := { s.world with root := root }
            sweeps := s.sweeps.set k (.deleting (hash :: todo) true) }
        else none
    | _ => none
  | .removed k =>
    match s.sweeps.get k with
    | some (.deleting (hash :: todo) true) =>
      let root := { s.world.root with releases := s.world.root.releases.erase hash }
      some { s with
        world := { s.world with root := root }
        sweeps := s.sweeps.set k (.deleting todo false) }
    | _ => none
  -- a failed check, or an error during the deletion
  | .skip k =>
    match s.sweeps.get k with
    | some (.deleting (_ :: todo) _) =>
      some { s with sweeps := s.sweeps.set k (.deleting todo false) }
    | _ => none

/-! ## Ready builds -/

variable {w t : World} {id : BuildId}

/-- A ready build of the site with that hash. -/
structure ReadyBuild (w : World) (id : BuildId) (build : Build) : Prop where
  row : w.builds.get id = some build
  site : build.scope.siteId = w.scope.siteId
  ready : build.status = .ready

/-- **Every ready build keeps its release.** -/
def ReadyKept (w : World) : Prop :=
  ∀ id build, ReadyBuild w id build →
    ∃ hash, build.buildHash = some hash ∧ (w.root.releases.get hash).isSome = true

/-- The step makes no build ready. -/
def NoNewReady (w t : World) : Prop :=
  t.scope = w.scope ∧ ∀ id build', t.builds.get id = some build' → build'.status = .ready →
    ∃ build, w.builds.get id = some build ∧ build.status = .ready ∧
      build.buildHash = build'.buildHash ∧ build.scope = build'.scope

theorem NoNewReady.refl (w : World) : NoNewReady w w :=
  ⟨rfl, fun _ build' hget hready => ⟨build', hget, hready, rfl, rfl⟩⟩

/-- A step that writes one row: one that was ready before, or is not ready now. -/
theorem NoNewReady.set {build : Build} (hscope : t.scope = w.scope)
    (hbuilds : t.builds = w.builds.set id build)
    (hrow : build.status = .ready → ∃ old, w.builds.get id = some old ∧ old.status = .ready ∧
      old.buildHash = build.buildHash ∧ old.scope = build.scope) : NoNewReady w t := by
  refine ⟨hscope, fun j build' hget hready => ?_⟩
  rw [hbuilds, Table.get_set_eq_some] at hget
  rcases hget with ⟨rfl, rfl⟩ | ⟨-, hget⟩
  · exact hrow hready
  · exact ⟨build', hget, hready, rfl, rfl⟩

/-- A ready build after such a step was one before. -/
theorem NoNewReady.before (h : NoNewReady w t) {build' : Build} (hready : ReadyBuild t id build') :
    ∃ build, ReadyBuild w id build ∧ build.buildHash = build'.buildHash := by
  obtain ⟨build, hget, hr, hhash, hscope⟩ := h.2 id build' hready.row hready.ready
  exact ⟨build, ⟨hget, by rw [hscope, hready.site, h.1], hr⟩, hhash⟩

/-! ## Requests in symlink mode -/

variable {root : Root} {a : Action}

/-- `current` and `previous` are links. -/
def NoDirs (root : Root) : Prop := root.current.isDir = false ∧ root.previous.isDir = false

theorem activate_noDirs (h : NoDirs root) (buildHash : Hash) :
    NoDirs (activate true root buildHash).1 ∧
      (activate true root buildHash).1.releases = root.releases := by
  obtain ⟨hcurrent, hprevious⟩ := h
  unfold activate
  split
  · unfold activateRelease
    cases hc : root.current with
    | absent => exact ⟨⟨rfl, hprevious⟩, rfl⟩
    | link target =>
      simp only [hprevious, Bool.false_eq_true, if_false, if_true]
      exact ⟨⟨rfl, rfl⟩, trivial⟩
    | dir d => rw [hc] at hcurrent; cases hcurrent
  · exact ⟨⟨hcurrent, hprevious⟩, rfl⟩

theorem restoreActivation_noDirs (h : NoDirs root) (candidate : Hash) (old : Option Hash) :
    NoDirs (restoreActivation true root candidate old).1 ∧
      (restoreActivation true root candidate old).1.releases = root.releases := by
  have hsame : NoDirs root ∧ root.releases = root.releases := ⟨h, rfl⟩
  unfold restoreActivation
  split
  · exact hsame
  cases old with
  | none =>
    unfold restoreFirst
    dsimp only
    split
    · exact hsame
    cases hc : root.current with
    | absent => exact hsame
    | link target =>
      dsimp only
      split
      · exact ⟨⟨rfl, h.2⟩, rfl⟩
      · exact hsame
    | dir d =>
      have hdir := h.1
      rw [hc] at hdir
      cases hdir
  | some old =>
    dsimp only
    split
    · exact hsame
    split
    · unfold restoreLinks
      split
      · exact ⟨⟨rfl, rfl⟩, rfl⟩
      · exact hsame
    unfold restoreDirs
    cases hc : root.current with
    | absent => exact hsame
    | link target => exact hsame
    | dir d =>
      have hdir := h.1
      rw [hc] at hdir
      cases hdir

/-- A request in symlink mode deletes no release. -/
theorem switchRelease_noDirs {env : RequestEnv} (h : NoDirs w.root) (hlinks : env.links = true)
    (candidate : Hash) (unavailable : String) (commit : World → World)
    (hcommit : ∀ w, (commit w).root = w.root) :
    NoDirs (switchRelease env w candidate unavailable commit).1.root ∧
      (switchRelease env w candidate unavailable commit).1.root.releases = w.root.releases := by
  have hactivate := activate_noDirs h candidate
  unfold switchRelease
  rw [hlinks]
  generalize activate true w.root candidate = activation at hactivate
  obtain ⟨root, ok⟩ := activation
  cases ok with
  | false => exact hactivate
  | true =>
    dsimp only
    split
    · rw [hcommit]
      exact hactivate
    · obtain ⟨hdirs, hreleases⟩ := restoreActivation_noDirs hactivate.1 candidate w.site.buildHash
      generalize restoreActivation true root candidate w.site.buildHash = restoration
        at hdirs hreleases
      obtain ⟨root', restored⟩ := restoration
      cases restored <;> exact ⟨hdirs, hreleases.trans hactivate.2⟩

theorem moveStatus_noNewReady {sources : List BuildStatus} {target : BuildStatus}
    (hstep : moveStatus w id sources target = some t) (htarget : target ≠ .ready) :
    NoNewReady w t ∧ t.root = w.root := by
  unfold moveStatus at hstep
  split at hstep
  · cases hstep
  split at hstep
  · cases hstep
    exact ⟨.set rfl rfl (fun hready => absurd hready htarget), rfl⟩
  · cases hstep

/-- **What the rows and requests do**: in symlink mode none of them makes a build ready or
deletes a release. -/
theorem history_step (h : NoDirs w.root) (hlinks : a.links = true) (hstart : ∀ id, a ≠ .start id)
    (hfinish : ∀ id buildHash files now, a ≠ .finish id buildHash files now)
    (hstep : step w a = some t) :
    NoNewReady w t ∧ NoDirs t.root ∧ t.root.releases = w.root.releases := by
  have hrows : NoNewReady w t ∧ t.root = w.root →
      NoNewReady w t ∧ NoDirs t.root ∧ t.root.releases = w.root.releases := by
    rintro ⟨hr, heq⟩
    exact ⟨hr, by rw [heq]; exact h, by rw [heq]⟩
  cases a with
  | queue id =>
    simp only [step, queueBuild] at hstep
    split at hstep
    · cases hstep
    · cases hstep
      exact hrows ⟨.set rfl rfl (fun hready => by cases hready), rfl⟩
  | start id => exact absurd rfl (hstart id)
  | finish id buildHash files now => exact absurd rfl (hfinish id buildHash files now)
  | fail id | retry id => exact hrows (moveStatus_noNewReady hstep (by decide))
  | publish env id =>
    cases hstep
    cases hchecks : publishChecks env w id with
    | error e =>
      have hsame : (publishProjectBuild env w id).1 = w := by
        simp only [publishProjectBuild, hchecks]
      exact hrows ⟨by rw [hsame]; exact NoNewReady.refl w, by rw [hsame]⟩
    | ok selected =>
      obtain ⟨build, buildHash⟩ := selected
      obtain ⟨hget, -, hready, -⟩ := publishChecks_ok hchecks
      have hdirs := switchRelease_noDirs h hlinks buildHash "Candidate release is unavailable"
        (publishCommit env.now id build buildHash) (fun _ => rfl)
      simp only [publishProjectBuild, hchecks]
      refine ⟨?_, hdirs⟩
      rcases switchRelease_cases env w buildHash "Candidate release is unavailable"
        (publishCommit env.now id build buildHash) with ⟨-, heq⟩ | ⟨-, root, failure, heq⟩
      · rw [heq]
        exact .set rfl rfl (fun _ => ⟨build, hget, hready, rfl, rfl⟩)
      · rw [heq]
        exact ⟨rfl, (NoNewReady.refl w).2⟩
  | rollback env buildHash =>
    cases hstep
    cases hchecks : rollbackChecks env w buildHash with
    | error e =>
      have hsame : (rollbackProjectBuild env w buildHash).1 = w := by
        simp only [rollbackProjectBuild, hchecks]
      exact hrows ⟨by rw [hsame]; exact NoNewReady.refl w, by rw [hsame]⟩
    | ok selected =>
      obtain ⟨id, target⟩ := selected
      obtain ⟨hget, hholds⟩ := rollbackChecks_ok hchecks
      have hdirs := switchRelease_noDirs h hlinks buildHash "Rollback release is unavailable"
        (rollbackCommit env.now id target buildHash) (fun _ => rfl)
      simp only [rollbackProjectBuild, hchecks]
      refine ⟨?_, hdirs⟩
      rcases switchRelease_cases env w buildHash "Rollback release is unavailable"
        (rollbackCommit env.now id target buildHash) with ⟨-, heq⟩ | ⟨-, root, failure, heq⟩
      · rw [heq]
        exact .set rfl rfl (fun _ => ⟨target, hget, hholds.ready, rfl, rfl⟩)
      · rw [heq]
        exact ⟨rfl, (NoNewReady.refl w).2⟩

/-! ## What a sweep lists -/

variable {hash : Hash}

/-- A sweep lists no release that a build it has read protects. -/
theorem not_mem_pruneList {hashes : List Hash} {rows : List (BuildId × Build)} {now : Time}
    {build : Build} (hrow : (id, build) ∈ rows) (hhash : build.buildHash = some hash) :
    hash ∉ pruneList root (hashes ++ buildHashes rows) now := by
  intro hmem
  simp only [pruneList, List.mem_map, List.mem_filter, Bool.not_eq_true', Bool.or_eq_false_iff,
    decide_eq_false_iff_not] at hmem
  obtain ⟨⟨h, d⟩, ⟨hlisted, ⟨⟨hprotected, -⟩, -⟩, -⟩, rfl⟩ := hmem
  have hsha : Sha256.isSha256 h = true := by
    rw [listedReleases, List.mem_insertionSort, List.mem_filter, isRelease,
      Bool.and_eq_true] at hlisted
    exact hlisted.2.1
  refine hprotected (List.mem_append_right _ ?_)
  simp only [buildHashes, List.mem_filter, List.reduceOption_mem_iff, List.mem_flatMap]
  exact ⟨⟨(id, build), hrow, by rw [hhash]; exact List.mem_cons_self ..⟩, hsha⟩

/-- The releases that sweeps are about to delete. -/
def Listed (s : State) (hash : Hash) : Prop :=
  ∃ k todo removing, s.sweeps.get k = some (.deleting todo removing) ∧ hash ∈ todo

/-! ## The condition -/

variable {s : State}

/-- Some sweep has the release on its list. -/
def listed (s : State) (hash : Hash) : Bool :=
  s.sweeps.rows.any (fun r => match r.2 with
    | .deleting todo _ => decide (hash ∈ todo)
    | _ => false)

theorem listed_iff : listed s hash = true ↔ Listed s hash := by
  simp only [listed, List.any_eq_true, Prod.exists, Table.mem_rows]
  constructor
  · rintro ⟨k, sweep, hget, hmatch⟩
    cases sweep with
    | site hashes | builds hashes rows => cases hmatch
    | deleting todo removing => exact ⟨k, todo, removing, hget, of_decide_eq_true hmatch⟩
  · rintro ⟨k, todo, removing, hget, hmem⟩
    exact ⟨k, _, hget, decide_eq_true hmem⟩

/-- The condition on a step: no build places a release that a sweep has listed; no sweep
lists the release of a build in progress, or of a build that has become ready since the
sweep read the rows; requests activate by links. -/
def OutOfReach (s : State) : RetentionAction → Prop
  | .place _ buildHash _ _ => listed s buildHash = false
  | .list k now =>
    match s.sweeps.get k with
    | some (.builds hashes rows) =>
      ∀ hash ∈ pruneList s.world.root (hashes ++ buildHashes rows) now,
        (∀ r ∈ s.workers.rows, r.2.output ≠ some hash) ∧
        ∀ r ∈ s.world.builds.rows, r.2.status = .ready → r.2.buildHash = some hash →
          r.2.scope.siteId = s.world.scope.siteId →
          (rows.any (fun seen => seen.1 = r.1 && seen.2.buildHash = some hash)) = true
    | _ => True
  | .history a => a.links = true
  | _ => True

instance (s : State) (a : RetentionAction) : Decidable (OutOfReach s a) := by
  unfold OutOfReach
  split
  · infer_instance
  · split <;> infer_instance
  · infer_instance
  · infer_instance

/-! ## The invariant -/

variable {k j : WorkerId} {worker : Worker} {buildHash : Hash}

/-- A release that is on disk and on no sweep's list. -/
def Out (s : State) (hash : Hash) : Prop :=
  (s.world.root.releases.get hash).isSome = true ∧ ¬ Listed s hash

/-- **The invariant**: the releases of the ready builds, and those of the builds in progress,
are out of the reach of all sweeps. -/
structure Safe (s : State) : Prop where
  noDirs : NoDirs s.world.root
  ready : ∀ id build, ReadyBuild s.world id build →
    ∃ hash, build.buildHash = some hash ∧ Out s hash
  output : ∀ k worker hash, s.workers.get k = some worker → worker.output = some hash → Out s hash

theorem Safe.kept (h : Safe s) : ReadyKept s.world := by
  intro id build hready
  obtain ⟨hash, hhash, hout⟩ := h.ready id build hready
  exact ⟨hash, hhash, hout.1⟩

/-- A step that lists no release, deletes none of those out of reach, makes no build ready
and gives no build a new release. -/
theorem Safe.mono {t : State} (h : Safe s) (hdirs : NoDirs t.world.root)
    (hrows : NoNewReady s.world t.world) (hout : ∀ hash, Out s hash → Out t hash)
    (houtput : ∀ k worker hash, t.workers.get k = some worker → worker.output = some hash →
      ∃ k' worker', s.workers.get k' = some worker' ∧ worker'.output = some hash) : Safe t where
  noDirs := hdirs
  ready := fun id build hready => by
    obtain ⟨old, hold, hhash⟩ := hrows.before hready
    obtain ⟨hash, hhash', ho⟩ := h.ready id old hold
    exact ⟨hash, hhash ▸ hhash', hout hash ho⟩
  output := fun k worker hash hget ho => by
    obtain ⟨k', worker', hget', ho'⟩ := houtput k worker hash hget ho
    exact hout hash (h.output k' worker' hash hget' ho')

/-- Sweeps whose lists only shrink. -/
theorem listed_set {t : State} {k : SweepId} {sweep : Sweep}
    (hsweeps : t.sweeps = s.sweeps.set k sweep)
    (hshrink : ∀ todo removing, sweep = .deleting todo removing → ∀ hash ∈ todo, Listed s hash)
    (h : Listed t hash) : Listed s hash := by
  obtain ⟨j, todo, removing, hget, hmem⟩ := h
  rw [hsweeps, Table.get_set_eq_some] at hget
  rcases hget with ⟨-, heq⟩ | ⟨-, hget⟩
  · exact hshrink todo removing heq.symm hash hmem
  · exact ⟨j, todo, removing, hget, hmem⟩

/-- Workers that have not placed more. -/
theorem output_set {t : Table WorkerId Worker}
    (hget : (t.set k { build := id, output := none }).get j = some worker)
    (ho : worker.output = some hash) :
    ∃ k' worker', t.get k' = some worker' ∧ worker'.output = some hash := by
  rw [Table.get_set_eq_some] at hget
  rcases hget with ⟨-, rfl⟩ | ⟨-, hget⟩
  · cases ho
  · exact ⟨j, worker, hget, ho⟩

theorem output_erase {t : Table WorkerId Worker} (hget : (t.erase k).get j = some worker)
    (ho : worker.output = some hash) :
    ∃ k' worker', t.get k' = some worker' ∧ worker'.output = some hash := by
  rw [Table.get_erase] at hget
  split_ifs at hget
  exact ⟨j, worker, hget, ho⟩

theorem placeRelease_get (root : Root) (buildHash : Hash) (staging : Dir) (hash : Hash) :
    (root.releases.get hash).isSome = true ∨ hash = buildHash →
      ((placeRelease root buildHash staging).releases.get hash).isSome = true := by
  intro h
  unfold placeRelease
  split
  · next hsome => rcases h with h | rfl <;> assumption
  · rw [Table.get_set]
    split
    · rfl
    · next hne => exact h.resolve_right hne

/-- A build places a release that no sweep has listed. -/
theorem Safe.place (h : Safe s) {staging : Dir} (hfree : ¬ Listed s buildHash) :
    Safe
      { s with
        world := { s.world with root := placeRelease s.world.root buildHash staging }
        workers := s.workers.set k { build := id, output := some buildHash } } := by
  obtain ⟨hcurrent, hprevious⟩ := placeRelease_entries s.world.root buildHash staging
  have hout : ∀ hash, Out s hash → Out
      { s with
        world := { s.world with root := placeRelease s.world.root buildHash staging }
        workers := s.workers.set k { build := id, output := some buildHash } } hash :=
    fun hash ho => ⟨placeRelease_get _ _ _ _ (.inl ho.1), ho.2⟩
  constructor
  · exact ⟨by rw [hcurrent]; exact h.noDirs.1, by rw [hprevious]; exact h.noDirs.2⟩
  · intro j build hready
    obtain ⟨hash, hhash, ho⟩ := h.ready j build ⟨hready.row, hready.site, hready.ready⟩
    exact ⟨hash, hhash, hout hash ho⟩
  · intro j worker hash hget ho
    rw [Table.get_set_eq_some] at hget
    rcases hget with ⟨-, rfl⟩ | ⟨-, hget⟩
    · cases ho
      exact ⟨placeRelease_get _ _ _ _ (.inr rfl), hfree⟩
    · exact hout hash (h.output j worker hash hget ho)

/-- A build becomes ready with the release it has placed. -/
theorem Safe.readied (h : Safe s)
    (hworker : s.workers.get k = some { build := id, output := some buildHash })
    (hready : readyBuild s.world id buildHash = some w) :
    Safe { s with world := w, workers := s.workers.erase k } := by
  unfold readyBuild at hready
  split at hready
  · cases hready
  · next build hget =>
    split at hready
    · cases hready
      constructor
      · exact h.noDirs
      · intro j row hrow
        have hrow' := hrow.row
        simp only [World.setBuild, Table.get_set_eq_some] at hrow'
        rcases hrow' with ⟨-, rfl⟩ | ⟨-, hold⟩
        · exact ⟨buildHash, rfl, h.output k _ buildHash hworker rfl⟩
        · exact h.ready j row ⟨hold, hrow.site, hrow.ready⟩
      · intro j worker hash hj ho
        obtain ⟨k', worker', hk', ho'⟩ := output_erase hj ho
        exact h.output k' worker' hash hk' ho'
    · cases hready

/-- A sweep makes its list. -/
theorem Safe.list (h : Safe s) {k : SweepId} {todo : List Hash}
    (houtput : ∀ hash ∈ todo, ∀ j worker, s.workers.get j = some worker →
      worker.output ≠ some hash) (hready : ∀ hash ∈ todo, ∀ id build, ReadyBuild s.world id build →
      build.buildHash ≠ some hash) :
    Safe { s with sweeps := s.sweeps.set k (.deleting todo false) } := by
  have hlisted : ∀ hash, hash ∉ todo → ¬ Listed s hash →
      ¬ Listed { s with sweeps := s.sweeps.set k (.deleting todo false) } hash := by
    rintro hash hnot hfree ⟨j, todo', removing, hget, hmem⟩
    rw [Table.get_set_eq_some] at hget
    rcases hget with ⟨-, heq⟩ | ⟨-, hget⟩
    · cases heq
      exact hnot hmem
    · exact hfree ⟨j, todo', removing, hget, hmem⟩
  refine ⟨h.noDirs, fun id build hr => ?_, fun j worker hash hget ho => ?_⟩
  · have hr' : ReadyBuild s.world id build := hr
    obtain ⟨hash, hhash, hout⟩ := h.ready id build hr'
    exact ⟨hash, hhash, hout.1, hlisted hash (fun hm => hready hash hm id build hr' hhash) hout.2⟩
  · have hout := h.output j worker hash hget ho
    exact ⟨hout.1, hlisted hash (fun hm => houtput hash hm j worker hget ho) hout.2⟩

theorem history_cases {t : State} (h : retentionStep s (.history a) = some t) :
    (∀ id, a ≠ .start id) ∧ (∀ id buildHash files now, a ≠ .finish id buildHash files now) ∧
      ∃ w, step s.world a = some w ∧ t = { s with world := w } := by
  cases a with
  | start id | finish id buildHash files now => cases h
  | queue id | fail id | retry id =>
    obtain ⟨w, hw, heq⟩ := Option.map_eq_some_iff.mp h
    exact ⟨by simp, by simp, w, hw, heq.symm⟩
  | publish env id | rollback env buildHash =>
    exact ⟨by simp, by simp, _, rfl, (Option.some.inj h).symm⟩

/-- **Every step keeps the invariant.** -/
theorem Safe.step {t : State} {a : RetentionAction} (h : Safe s) (hq : OutOfReach s a)
    (hstep : retentionStep s a = some t) : Safe t := by
  have hworkers : ∀ k worker hash, s.workers.get k = some worker → worker.output = some hash →
      ∃ k' worker', s.workers.get k' = some worker' ∧ worker'.output = some hash :=
    fun k worker hash hget ho => ⟨k, worker, hget, ho⟩
  -- a sweep that goes on over the same rows, with a list that is part of one
  have hsweep : ∀ (k : SweepId) (sweep : Sweep),
      (∀ todo removing, sweep = .deleting todo removing → ∀ hash ∈ todo, Listed s hash) →
      Safe { s with sweeps := s.sweeps.set k sweep } := by
    intro k sweep hshrink
    exact h.mono h.noDirs (NoNewReady.refl _)
      (fun hash ho => ⟨ho.1, fun hl => ho.2 (listed_set rfl hshrink hl)⟩) hworkers
  cases a with
  | history a =>
    obtain ⟨hstart, hfinish, w, hw, rfl⟩ := history_cases hstep
    obtain ⟨hrows, hdirs, hreleases⟩ := history_step h.noDirs hq hstart hfinish hw
    refine h.mono hdirs hrows (fun hash ho => ⟨?_, ho.2⟩) hworkers
    dsimp only
    rw [hreleases]
    exact ho.1
  | begin k id =>
    simp only [retentionStep] at hstep
    split at hstep
    · cases hstep
    obtain ⟨w, hw, rfl⟩ := Option.map_eq_some_iff.mp hstep
    obtain ⟨hrows, hroot⟩ := moveStatus_noNewReady hw (by decide)
    refine h.mono (hroot ▸ h.noDirs) hrows (fun hash ho => ⟨?_, ho.2⟩)
      (fun j worker hash hget ho => output_set hget ho)
    dsimp only
    rw [hroot]
    exact ho.1
  | place k buildHash files now =>
    simp only [retentionStep] at hstep
    split at hstep
    · cases hstep
      refine h.place (fun hl => ?_)
      rw [← listed_iff] at hl
      have hfree : listed s buildHash = false := hq
      rw [hl] at hfree
      cases hfree
    · cases hstep
  | ready k =>
    simp only [retentionStep] at hstep
    split at hstep
    · next id buildHash hworker =>
      obtain ⟨w, hw, rfl⟩ := Option.map_eq_some_iff.mp hstep
      exact h.readied hworker hw
    · cases hstep
  | failed k =>
    simp only [retentionStep] at hstep
    split at hstep
    · cases hstep
    obtain ⟨w, hw, rfl⟩ := Option.map_eq_some_iff.mp hstep
    obtain ⟨hrows, hroot⟩ := moveStatus_noNewReady hw (by decide)
    refine h.mono (hroot ▸ h.noDirs) hrows (fun hash ho => ⟨?_, ho.2⟩)
      (fun j worker hash hget ho => output_erase hget ho)
    dsimp only
    rw [hroot]
    exact ho.1
  | dropped k =>
    cases hstep
    exact h.mono h.noDirs (NoNewReady.refl _) (fun hash ho => ho)
      (fun j worker hash hget ho => output_erase hget ho)
  | readSite k =>
    simp only [retentionStep] at hstep
    split at hstep
    · cases hstep
    · cases hstep
      exact hsweep k _ (fun todo removing heq => by cases heq)
  | readBuilds k =>
    simp only [retentionStep] at hstep
    split at hstep
    · cases hstep
      exact hsweep k _ (fun todo removing heq => by cases heq)
    · cases hstep
  | list k now =>
    simp only [retentionStep] at hstep
    split at hstep
    · next hashes rows hget =>
      cases hstep
      simp only [OutOfReach, hget] at hq
      refine h.list (fun hash hmem j worker hj => ?_) (fun hash hmem id build hready hhash => ?_)
      · exact (hq hash hmem).1 (j, worker) (Table.mem_rows.mpr hj)
      · -- a build that the sweep has read as ready protects its release
        have hseen := (hq hash hmem).2 (id, build) (Table.mem_rows.mpr hready.row) hready.ready
          hhash hready.site
        obtain ⟨⟨id', build'⟩, hrow, hsame⟩ := List.any_eq_true.mp hseen
        rw [Bool.and_eq_true, decide_eq_true_eq, decide_eq_true_eq] at hsame
        exact not_mem_pruneList hrow hsame.2 hmem
    · cases hstep
  | remove k =>
    simp only [retentionStep] at hstep
    split at hstep
    · next hash todo hget =>
      split at hstep
      · cases hstep
      split at hstep
      · cases hstep
        refine h.mono h.noDirs ⟨rfl, (NoNewReady.refl _).2⟩ (fun hash' ho => ⟨?_, fun hl => ?_⟩)
          hworkers
        · dsimp only
          rw [Table.get_set]
          split
          · rfl
          · exact ho.1
        · refine ho.2 (listed_set rfl (fun todo' removing heq hash'' hmem => ?_) hl)
          cases heq
          exact ⟨k, _, _, hget, hmem⟩
      · cases hstep
    · cases hstep
  | removed k =>
    simp only [retentionStep] at hstep
    split at hstep
    · next hash todo hget =>
      cases hstep
      refine h.mono h.noDirs ⟨rfl, (NoNewReady.refl _).2⟩ (fun hash' ho => ⟨?_, fun hl => ?_⟩)
        hworkers
      · have hne : hash' ≠ hash := by
          rintro rfl
          exact ho.2 ⟨k, _, _, hget, List.mem_cons_self ..⟩
        dsimp only
        rw [Table.get_erase_ne _ hne]
        exact ho.1
      · refine ho.2 (listed_set rfl (fun todo' removing heq hash'' hmem => ?_) hl)
        cases heq
        exact ⟨k, _, _, hget, List.mem_cons_of_mem _ hmem⟩
    · cases hstep
  | skip k =>
    simp only [retentionStep] at hstep
    split at hstep
    · next hash todo removing hget =>
      cases hstep
      refine hsweep k _ (fun todo' removing' heq hash' hmem => ?_)
      cases heq
      exact ⟨k, _, _, hget, List.mem_cons_of_mem _ hmem⟩
    · cases hstep

/-! ## Runs -/

/-- Nothing is in progress. -/
structure State.Idle (s : State) : Prop where
  workers : s.workers.keys = []
  sweeps : s.sweeps.keys = []
  noDirs : NoDirs s.world.root

/-- **Ready builds keep their releases** in every run of builds, publications, rollbacks and
sweeps, in any order of their steps, in which the builds stay out of the reach of the
sweeps. -/
theorem ready_builds_kept {s t : State} {run : List RetentionAction} (hidle : s.Idle)
    (hkept : ReadyKept s.world) (hreach : Along retentionStep (fun s a _ => OutOfReach s a) s run)
    (hexec : exec retentionStep s run = some t) : ReadyKept t.world := by
  have hstart : Safe s := by
    refine ⟨hidle.noDirs, fun id build hready => ?_, fun k worker hash hget => ?_⟩
    · obtain ⟨hash, hhash, hsome⟩ := hkept id build hready
      refine ⟨hash, hhash, hsome, ?_⟩
      rintro ⟨k, todo, removing, hget, -⟩
      rw [Table.get_of_keys_nil hidle.sweeps] at hget
      cases hget
    · rw [Table.get_of_keys_nil hidle.workers] at hget
      cases hget
  have hinv : ∀ s a t, Safe s → OutOfReach s a → retentionStep s a = some t → Safe t :=
    fun _ _ _ h hq hstep => h.step hq hstep
  exact (exec_invariant hinv hstart hreach hexec).kept

/-! ## Two runs -/

def idleSite : State where
  world := newSite
  workers := Table.empty
  sweeps := Table.empty

theorem idleSite_idle : idleSite.Idle := ⟨rfl, rfl, rfl, rfl⟩

theorem idleSite_kept : ReadyKept idleSite.world := fun id build hready => by
  have hrow := hready.row
  cases hrow

/-- A hash of the right format. -/
def repeated (c : Char) : Hash := String.ofList (List.replicate 64 c)

/-- Build `id` from the queue to the placed release. -/
def placing (id : BuildId) (buildHash : Hash) (now : Time) : List RetentionAction :=
  [.history (.queue id), .begin id id, .place id buildHash [] now]

/-- A build fails after it has placed its release, and a hundred days later there are three
newer ones. -/
def oldRelease : List RetentionAction :=
  placing 0 (repeated 'a') 0 ++ [.failed 0]
    ++ placing 1 (repeated 'b') (days 100) ++ [.ready 1]
    ++ placing 2 (repeated 'c') (days 100) ++ [.ready 2]
    ++ placing 3 (repeated 'd') (days 100) ++ [.ready 3]

/-- The sweep deletes the old release, and then a build of the same content makes it anew. -/
def sweepThenBuild : List RetentionAction :=
  oldRelease ++ [.readSite 0, .readBuilds 0, .list 0 (days 100), .remove 0, .removed 0]
    ++ placing 4 (repeated 'a') (days 100) ++ [.ready 4]

theorem ready_builds_kept_anew :
    ∃ t, exec retentionStep idleSite sweepThenBuild = some t ∧ ReadyKept t.world := by
  obtain ⟨t, hexec⟩ := Option.isSome_iff_exists.mp
    (show (exec retentionStep idleSite sweepThenBuild).isSome = true by decide +kernel)
  exact ⟨t, hexec, ready_builds_kept idleSite_idle idleSite_kept (by decide +kernel) hexec⟩

/-- The build reuses the old release between the sweep's reading and its listing. -/
def buildDuringSweep : List RetentionAction :=
  oldRelease ++ [.readSite 0, .readBuilds 0] ++ placing 4 (repeated 'a') (days 100)
    ++ [.ready 4, .list 0 (days 100), .remove 0, .removed 0]

/-- Then build 4 is ready, and its release is gone. -/
theorem ready_builds_kept_reused :
    ¬ ∀ (s t : State) (run : List RetentionAction), s.Idle → ReadyKept s.world →
      exec retentionStep s run = some t → ReadyKept t.world := by
  intro h
  have hrun : (exec retentionStep idleSite buildDuringSweep).map (fun t =>
      (t.world.builds.get 4, (t.world.root.releases.get (repeated 'a')).isSome))
      = some (some
          { scope := siteScope
            status := .ready
            buildHash := some (repeated 'a')
            previousBuildHash := none
            firstPublishedAt := none
            activatedAt := none }, false) := by decide +kernel
  obtain ⟨t, hexec, hout⟩ := Option.map_eq_some_iff.mp hrun
  obtain ⟨hrow, hgone⟩ := Prod.mk.inj hout
  have hsite : (exec retentionStep idleSite buildDuringSweep).map (·.world.scope)
      = some siteScope := by decide +kernel
  rw [hexec, Option.map_some, Option.some.injEq] at hsite
  obtain ⟨hash, hhash, hsome⟩ := h idleSite t buildDuringSweep idleSite_idle idleSite_kept hexec 4
    _ ⟨hrow, by rw [hsite], rfl⟩
  cases hhash
  rw [hgone] at hsome
  cases hsome

end MegaPanel.Release
