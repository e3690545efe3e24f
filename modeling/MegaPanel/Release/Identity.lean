import MegaPanel.Release.Compensation

set_option autoImplicit false

/-! # Builds behind a hash

A build hash is the hash of the content, so two builds of the same content have the same
one. A rollback looks for its build by the hash, among the ready builds that have been
published, and fails when it finds two. Two are found exactly when a build was published
while another published build had the same hash.
-/

namespace MegaPanel.Release

open MegaPanel.Lib

/-! ## Published builds -/

variable {w : World} {buildHash : Hash} {id : BuildId}

/-- The row is one of those a rollback to the hash selects. -/
structure Build.Holds (build : Build) (scope : Scope) (buildHash : Hash) : Prop where
  scope : build.scope = scope
  hash : build.buildHash = some buildHash
  ready : build.status = .ready
  published : build.firstPublishedAt.isSome = true

def Published (w : World) (id : BuildId) (buildHash : Hash) : Prop :=
  ∃ build, w.builds.get id = some build ∧ build.Holds w.scope buildHash

theorem mem_rollbackMatches {build : Build} :
    (id, build) ∈ rollbackMatches w buildHash ↔
      w.builds.get id = some build ∧ build.Holds w.scope buildHash := by
  simp only [rollbackMatches, List.mem_filter, Table.mem_rows, Bool.and_eq_true,
    decide_eq_true_eq]
  constructor
  · rintro ⟨hget, ⟨⟨hscope, hhash⟩, hready⟩, hpublished⟩
    exact ⟨hget, hscope, hhash, hready, hpublished⟩
  · rintro ⟨hget, hscope, hhash, hready, hpublished⟩
    exact ⟨hget, ⟨⟨hscope, hhash⟩, hready⟩, hpublished⟩

theorem published_iff :
    Published w id buildHash ↔ ∃ build, (id, build) ∈ rollbackMatches w buildHash := by
  simp only [Published, mem_rollbackMatches]

/-- The query of a rollback has at most one result, for every hash. -/
def SoleMatches (w : World) : Prop := ∀ buildHash, (rollbackMatches w buildHash).length ≤ 1

theorem rollbackMatches_nodup (w : World) (buildHash : Hash) :
    (rollbackMatches w buildHash).Nodup := by
  refine List.Nodup.filter _ (List.Nodup.of_map Prod.fst ?_)
  rw [Table.rows_keys]
  exact w.builds.nodup

/-- The query has at most one result exactly when no two builds hold a hash. -/
theorem soleMatches_iff :
    SoleMatches w ↔
      ∀ id id' buildHash, Published w id buildHash → Published w id' buildHash → id = id' := by
  constructor
  · intro h id id' buildHash hid hid'
    obtain ⟨build, hmem⟩ := published_iff.mp hid
    obtain ⟨build', hmem'⟩ := published_iff.mp hid'
    have hone := h buildHash
    cases hrows : rollbackMatches w buildHash with
    | nil => rw [hrows] at hmem; cases hmem
    | cons r rest =>
      rw [hrows] at hmem hmem' hone
      have hrest : rest = [] :=
        List.length_eq_zero_iff.mp (Nat.le_zero.mp (Nat.le_of_succ_le_succ hone))
      subst hrest
      have heq := (List.mem_singleton.mp hmem).trans (List.mem_singleton.mp hmem').symm
      exact congrArg Prod.fst heq
  · intro h buildHash
    have hnodup := rollbackMatches_nodup w buildHash
    match hrows : rollbackMatches w buildHash with
    | [] => exact Nat.zero_le _
    | [_] => exact le_rfl
    | (id, build) :: (id', build') :: rest =>
      have hmem : (id, build) ∈ rollbackMatches w buildHash := by rw [hrows]; simp
      have hmem' : (id', build') ∈ rollbackMatches w buildHash := by rw [hrows]; simp
      have hid : id = id' :=
        h id id' buildHash (published_iff.mpr ⟨build, hmem⟩) (published_iff.mpr ⟨build', hmem'⟩)
      rw [mem_rollbackMatches] at hmem hmem'
      subst hid
      have hbuild : build = build' := Option.some.inj (hmem.1.symm.trans hmem'.1)
      rw [hrows, hbuild] at hnodup
      simp at hnodup

/-! ## What a step publishes -/

variable {w' t : World} {env : RequestEnv} {a : Action}

/-- Only a ready build has been published. -/
def PublishedReady (w : World) : Prop :=
  ∀ id build, w.builds.get id = some build → build.firstPublishedAt.isSome = true →
    build.status = .ready

/-- A step that writes one row, and no new publication into it. -/
theorem published_set {build : Build} (hscope : w'.scope = w.scope)
    (hbuilds : w'.builds = w.builds.set id build)
    (hrow : ∀ buildHash, build.Holds w.scope buildHash ↔ Published w id buildHash) (j : BuildId)
    (buildHash : Hash) : Published w' j buildHash ↔ Published w j buildHash := by
  unfold Published
  rw [hscope, hbuilds]
  by_cases hj : j = id
  · subst hj
    rw [Table.get_set_self]
    exact ⟨fun ⟨b, hb, hh⟩ => (hrow buildHash).mp (Option.some.inj hb ▸ hh),
      fun h => ⟨build, rfl, (hrow buildHash).mpr h⟩⟩
  · rw [Table.get_set_ne _ hj]

theorem not_published {build : Build} (hget : w.builds.get id = some build)
    (hready : build.status ≠ .ready) (buildHash : Hash) : ¬ Published w id buildHash := by
  rintro ⟨b, hb, hh⟩
  rw [hget] at hb
  cases hb
  exact hready hh.ready

/-- The switch goes through: the release is there and Caddy agrees. -/
def switches (env : RequestEnv) (w : World) (candidate : Hash) : Bool :=
  (activate env.links w.root candidate).2 && env.caddyOk

/-- A request commits over the activated directory, or changes the directory alone. -/
theorem switchRelease_cases (env : RequestEnv) (w : World) (candidate : Hash)
    (unavailable : String) (commit : World → World) :
    (switches env w candidate = true ∧ switchRelease env w candidate unavailable commit
      = (commit { w with root := (activate env.links w.root candidate).1 }, none)) ∨
    (switches env w candidate = false ∧ ∃ root failure,
      switchRelease env w candidate unavailable commit
        = ({ w with root := root }, some failure)) := by
  unfold switches switchRelease
  obtain ⟨root, ok⟩ := activate env.links w.root candidate
  cases ok with
  | false => exact .inr ⟨rfl, root, _, rfl⟩
  | true =>
    cases env.caddyOk with
    | true => exact .inl ⟨rfl, rfl⟩
    | false =>
      right
      dsimp only
      rw [if_neg Bool.false_ne_true]
      obtain ⟨root', restored⟩ := restoreActivation env.links root candidate w.site.buildHash
      cases restored with
      | false => exact ⟨rfl, root', _, rfl⟩
      | true => exact ⟨rfl, root', _, rfl⟩

/-- The build that a step publishes. -/
def publishedBy (w : World) : Action → Option (BuildId × Hash)
  | .publish env id =>
    match publishChecks env w id with
    | .error _ => none
    | .ok (_, buildHash) => if switches env w buildHash then some (id, buildHash) else none
  | _ => none

theorem publishChecks_ok {build : Build} (h : publishChecks env w id = .ok (build, buildHash)) :
    w.builds.get id = some build ∧ build.scope = w.scope ∧ build.status = .ready ∧
      build.buildHash = some buildHash := by
  unfold publishChecks at h
  split at h
  · cases h
  split at h
  · cases h
  · next b hget =>
    split_ifs at h with hok
    rw [not_or, not_not, not_not] at hok
    split at h
    · cases h
    · cases h
    · next hash hhash _ =>
      cases h
      exact ⟨hget, hok.1, hok.2, hhash⟩

theorem rollbackChecks_ok {target : Build} (h : rollbackChecks env w buildHash = .ok (id, target)) :
    w.builds.get id = some target ∧ target.Holds w.scope buildHash := by
  unfold rollbackChecks at h
  split at h
  · cases h
  split at h
  · cases h
  split at h
  · cases h
  · cases h
  · next r hrows _ =>
    cases h
    exact mem_rollbackMatches.mp (by rw [hrows]; exact List.mem_singleton.mpr rfl)
  · cases h

theorem PublishedReady.set {build : Build} (h : PublishedReady w)
    (hbuilds : w'.builds = w.builds.set id build)
    (hrow : build.firstPublishedAt.isSome = true → build.status = .ready) : PublishedReady w' := by
  intro j b hget hpublished
  rw [hbuilds, Table.get_set_eq_some] at hget
  rcases hget with ⟨-, rfl⟩ | ⟨-, hget⟩
  · exact hrow hpublished
  · exact h j b hget hpublished

/-- A status change among the states before `ready`. -/
theorem moveStatus_published {sources : List BuildStatus} {target : BuildStatus}
    (h : PublishedReady w) (hstep : moveStatus w id sources target = some t)
    (hsources : BuildStatus.ready ∉ sources) (htarget : target ≠ .ready) :
    (∀ j buildHash, Published t j buildHash ↔ Published w j buildHash) ∧ PublishedReady t := by
  unfold moveStatus at hstep
  split at hstep
  · cases hstep
  · next build hget =>
    split at hstep
    · next hmem =>
      cases hstep
      have hne : build.status ≠ .ready := fun hready => hsources (hready ▸ hmem)
      constructor
      · refine published_set rfl rfl (fun buildHash => iff_of_false ?_ (not_published hget hne _))
        exact fun hholds => htarget hholds.ready
      · refine h.set rfl (fun hpublished => absurd (h id build hget hpublished) hne)
    · cases hstep

/-- **What a step publishes**: at most the build that a successful publication selects. -/
theorem published_step (h : PublishedReady w) (hstep : step w a = some t) :
    (∀ j buildHash, Published t j buildHash ↔
      Published w j buildHash ∨ publishedBy w a = some (j, buildHash)) ∧ PublishedReady t := by
  have hno : ∀ {t : World} {a : Action}, publishedBy w a = none →
      (∀ j buildHash, Published t j buildHash ↔ Published w j buildHash) ∧ PublishedReady t →
      (∀ j buildHash, Published t j buildHash ↔
        Published w j buildHash ∨ publishedBy w a = some (j, buildHash)) ∧ PublishedReady t := by
    rintro t a hnone ⟨hp, hr⟩
    refine ⟨fun j buildHash => ?_, hr⟩
    rw [hp, hnone, or_iff_left (by simp)]
  cases a with
  | queue id =>
    refine hno rfl ?_
    simp only [step, queueBuild] at hstep
    split at hstep
    · cases hstep
    · next hget =>
      cases hstep
      constructor
      · refine published_set rfl rfl (fun buildHash => iff_of_false ?_ ?_)
        · exact fun hholds => by cases hholds.ready
        · rintro ⟨b, hb, -⟩
          rw [hget] at hb
          cases hb
      · exact h.set rfl (fun hpublished => by cases hpublished)
  | start id | fail id | retry id =>
    exact hno rfl (moveStatus_published h hstep (by decide) (by decide))
  | finish id buildHash files now =>
    refine hno rfl ?_
    simp only [step, readyBuild] at hstep
    split at hstep
    · cases hstep
    · next build hget =>
      split at hstep
      · next hrunning =>
        cases hstep
        have hget' : w.builds.get id = some build := hget
        have hne : build.status ≠ .ready := by rw [hrunning]; decide
        have hunpublished : ¬ build.firstPublishedAt.isSome = true :=
          fun hpublished => hne (h id build hget' hpublished)
        constructor
        · refine published_set rfl rfl
            (fun buildHash' => iff_of_false ?_ (not_published hget' hne _))
          exact fun hholds => hunpublished hholds.published
        · exact h.set rfl (fun _ => rfl)
      · cases hstep
  | publish env id =>
    cases hstep
    cases hchecks : publishChecks env w id with
    | error e =>
      refine hno (by simp only [publishedBy, hchecks]) ?_
      have hsame : (publishProjectBuild env w id).1 = w := by
        simp only [publishProjectBuild, hchecks]
      rw [hsame]
      exact ⟨fun _ _ => Iff.rfl, h⟩
    | ok selected =>
      obtain ⟨build, buildHash⟩ := selected
      obtain ⟨hget, hscope, hready, hhash⟩ := publishChecks_ok hchecks
      rcases switchRelease_cases env w buildHash "Candidate release is unavailable"
        (publishCommit env.now id build buildHash) with ⟨hsw, heq⟩ | ⟨hsw, root, failure, heq⟩
      · have hby : publishedBy w (.publish env id) = some (id, buildHash) := by
          simp only [publishedBy, hchecks, hsw, if_true]
        simp only [publishProjectBuild, hchecks, heq, hby]
        refine ⟨fun j hash => ?_, h.set rfl (fun _ => hready)⟩
        unfold Published
        show (∃ b, (w.builds.set id _).get j = some b ∧ b.Holds w.scope hash) ↔ _
        by_cases hj : j = id
        · subst hj
          rw [Table.get_set_self, hget]
          constructor
          · rintro ⟨b, hb, hholds⟩
            cases hb
            right
            have heqHash : some buildHash = some hash := hhash.symm.trans hholds.hash
            rw [Option.some.inj heqHash]
          · rintro (⟨b, hb, hholds⟩ | hsome)
            · cases hb
              exact ⟨_, rfl, hscope, hholds.hash, hready, rfl⟩
            · cases hsome
              exact ⟨_, rfl, hscope, hhash, hready, rfl⟩
        · rw [Table.get_set_ne _ hj, or_iff_left]
          exact fun hsome => hj (by cases hsome; rfl)
      · refine hno (by simp only [publishedBy, hchecks, hsw, Bool.false_eq_true, if_false]) ?_
        simp only [publishProjectBuild, hchecks, heq]
        exact ⟨fun _ _ => Iff.rfl, h⟩
  | rollback env buildHash =>
    cases hstep
    refine hno rfl ?_
    cases hchecks : rollbackChecks env w buildHash with
    | error e =>
      have hsame : (rollbackProjectBuild env w buildHash).1 = w := by
        simp only [rollbackProjectBuild, hchecks]
      rw [hsame]
      exact ⟨fun _ _ => Iff.rfl, h⟩
    | ok selected =>
      obtain ⟨id, target⟩ := selected
      obtain ⟨hget, hholds⟩ := rollbackChecks_ok hchecks
      simp only [rollbackProjectBuild, hchecks]
      rcases switchRelease_cases env w buildHash "Rollback release is unavailable"
        (rollbackCommit env.now id target buildHash) with ⟨-, heq⟩ | ⟨-, root, failure, heq⟩
      · rw [heq]
        constructor
        · refine published_set rfl rfl (fun hash => ?_)
          constructor
          · exact fun hh => ⟨target, hget, hh.scope, hh.hash, hh.ready, hh.published⟩
          · rintro ⟨b, hb, hh⟩
            rw [hget] at hb
            cases hb
            exact ⟨hh.scope, hh.hash, hh.ready, hh.published⟩
        · exact h.set rfl (fun _ => hholds.ready)
      · rw [heq]
        exact ⟨fun _ _ => Iff.rfl, h⟩

/-! ## Runs -/

variable {hashes : List Hash} {failed : Option Hash}

/-- A build is published while no other published build has its hash. -/
def SoleHolder (w : World) (a : Action) : Prop :=
  match publishedBy w a with
  | none => True
  | some (id, buildHash) => ∀ r ∈ rollbackMatches w buildHash, r.1 = id

instance (w : World) (a : Action) : Decidable (SoleHolder w a) := by
  unfold SoleHolder
  split <;> infer_instance

/-- **One step**: the query stays unambiguous exactly if the build published, if any, is the
only one to hold its hash. -/
theorem soleMatches_step (hready : PublishedReady w) (h : SoleMatches w)
    (hstep : step w a = some t) : SoleMatches t ↔ SoleHolder w a := by
  obtain ⟨hp, -⟩ := published_step hready hstep
  rw [soleMatches_iff] at h ⊢
  unfold SoleHolder
  cases hby : publishedBy w a with
  | none =>
    refine iff_of_true (fun id id' buildHash hid hid' => ?_) trivial
    rw [hp, hby, or_iff_left (by simp)] at hid hid'
    exact h id id' buildHash hid hid'
  | some published =>
    obtain ⟨id₀, hash₀⟩ := published
    simp only [hp, hby, Option.some.injEq, Prod.mk.injEq]
    constructor
    · rintro hall ⟨id, build⟩ hmem
      exact hall id id₀ hash₀ (.inl (published_iff.mpr ⟨build, hmem⟩)) (.inr ⟨rfl, rfl⟩)
    · intro hsole id id' buildHash hid hid'
      have hheld : ∀ j, Published w j hash₀ → j = id₀ := by
        intro j hj
        obtain ⟨build, hmem⟩ := published_iff.mp hj
        exact hsole (j, build) hmem
      rcases hid with hid | ⟨rfl, rfl⟩
      · rcases hid' with hid' | ⟨rfl, rfl⟩
        · exact h id id' buildHash hid hid'
        · exact hheld id hid
      · rcases hid' with hid' | ⟨rfl, -⟩
        · exact (hheld id' hid').symm
        · rfl

/-- The hashes published so far. -/
def notePublished (w : World) (a : Action) (hashes : List Hash) : List Hash :=
  match publishedBy w a with
  | none => hashes
  | some (_, buildHash) => buildHash :: hashes

/-- The state of a history: `hashes` are the published ones. -/
structure Recorded (w : World) (hashes : List Hash) : Prop where
  ready : PublishedReady w
  sole : SoleMatches w
  held : ∀ buildHash ∈ hashes, ∃ id, Published w id buildHash

theorem Recorded.step (h : Recorded w hashes) (hsole : SoleHolder w a)
    (hstep : Release.step w a = some t) : Recorded t (notePublished w a hashes) := by
  obtain ⟨hp, hready⟩ := published_step h.ready hstep
  refine ⟨hready, (soleMatches_step h.ready h.sole hstep).mpr hsole, fun buildHash hmem => ?_⟩
  have hold : buildHash ∈ hashes → ∃ id, Published t id buildHash := by
    intro hin
    obtain ⟨id, hid⟩ := h.held buildHash hin
    exact ⟨id, (hp id buildHash).mpr (.inl hid)⟩
  unfold notePublished at hmem
  cases hby : publishedBy w a with
  | none =>
    rw [hby] at hmem
    exact hold hmem
  | some published =>
    rw [hby] at hmem
    rcases List.mem_cons.mp hmem with rfl | hin
    · exact ⟨published.1, (hp _ _).mpr (.inr hby)⟩
    · exact hold hin

/-- The releases of the published builds are on disk. -/
def OnDisk (w : World) : Prop :=
  ∀ id buildHash, Published w id buildHash →
    matchesBuild (w.root.releases.get buildHash) buildHash = true

/-- With links, a step deletes no release. -/
theorem step_releases (h : Settled w failed) (hlinks : a.links = true) (hstep : step w a = some t)
    {b : Hash} (hb : matchesBuild (w.root.releases.get b) b = true) :
    matchesBuild (t.root.releases.get b) b = true := by
  have hswitch : ∀ {env : RequestEnv} {candidate : Hash} {unavailable : String}
      {commit : World → World}, env.links = true → SwitchesSite commit candidate →
      (switchRelease env w candidate unavailable commit).1.root.releases = w.root.releases := by
    intro env candidate unavailable commit hl hcommit
    unfold switchRelease
    rw [hl, h.activate_eq]
    cases hmatch : matchesBuild (w.root.releases.get candidate) candidate with
    | false => rfl
    | true =>
      simp only [if_true]
      cases env.caddyOk with
      | true =>
        simp only [if_true]
        rw [(hcommit _).2]
        rfl
      | false =>
        rw [h.restore_eq hmatch]
        rfl
  have hrows : ∀ t : World, t.site = w.site ∧ t.root = w.root →
      matchesBuild (t.root.releases.get b) b = true := fun t ht => by rw [ht.2]; exact hb
  cases a with
  | queue id =>
    simp only [step, queueBuild] at hstep
    split at hstep
    · cases hstep
    · cases hstep
      exact hb
  | start id | fail id | retry id => exact hrows t (moveStatus_eq hstep)
  | finish id buildHash files now =>
    simp only [step, readyBuild] at hstep
    split at hstep
    · cases hstep
    split at hstep
    · cases hstep
      exact placeRelease_keeps w.root _ _ hb
    · cases hstep
  | publish env id =>
    cases hstep
    rcases publish_cases env w id with ⟨-, heq⟩ | ⟨candidate, _, commit, -, hsw, heq⟩
    · rwa [heq]
    · rwa [heq, hswitch hlinks hsw]
  | rollback env buildHash =>
    cases hstep
    rcases rollback_cases env w buildHash with ⟨-, heq⟩ | ⟨candidate, _, commit, -, hsw, heq⟩
    · rwa [heq]
    · rwa [heq, hswitch hlinks hsw]

/-- A published build was activated, so its release is on disk. -/
theorem OnDisk.step (h : OnDisk w) (hready : PublishedReady w) (hsettled : Settled w failed)
    (hlinks : a.links = true) (hstep : Release.step w a = some t) : OnDisk t := by
  intro id buildHash hpublished
  refine step_releases hsettled hlinks hstep ?_
  rcases ((published_step hready hstep).1 id buildHash).mp hpublished with hold | hby
  · exact h id buildHash hold
  cases a with
  | publish env id' =>
    simp only [publishedBy] at hby
    split at hby
    · cases hby
    split at hby
    · next hsw =>
      cases hby
      have hl : env.links = true := hlinks
      rw [switches, hl, hsettled.activate_eq] at hsw
      split at hsw
      · next hmatch => exact hmatch
      · cases hsw
    · cases hby
  | queue id' | start id' | finish id' buildHash' files now | fail id' | retry id'
  | rollback env buildHash' => cases hby

theorem World.Unpublished.recorded (h : w.Unpublished) : Recorded w [] := by
  have hnone : ∀ id buildHash, ¬ Published w id buildHash := by
    rintro id buildHash ⟨build, hget, hholds⟩
    have hpublished := hholds.published
    rw [h.unpublished id build hget] at hpublished
    cases hpublished
  refine ⟨fun id build hget hpublished => ?_, ?_, fun _ hmem => by cases hmem⟩
  · rw [h.unpublished id build hget] at hpublished
    cases hpublished
  · exact soleMatches_iff.mpr (fun id id' buildHash hid => absurd hid (hnone id buildHash))

/-- A recorded hash that is not active resolves to a build. -/
theorem Recorded.resolves (h : Recorded w hashes) (hmem : buildHash ∈ hashes)
    (hactive : w.site.buildHash ≠ some buildHash) (hrejected : env.rejected = none)
    (hblocked : env.blocked = none) : ∃ target, rollbackChecks env w buildHash = .ok target := by
  obtain ⟨id, hid⟩ := h.held buildHash hmem
  obtain ⟨build, hrow⟩ := published_iff.mp hid
  have hone := h.sole buildHash
  match hrows : rollbackMatches w buildHash with
  | [] => rw [hrows] at hrow; cases hrow
  | [target] =>
    refine ⟨target, ?_⟩
    simp only [rollbackChecks, hrejected, hactive, if_false, hrows, hblocked]
  | _ :: _ :: _ =>
    rw [hrows] at hone
    exact absurd hone (by simp)

/-- **A hash identifies its build** along a history exactly when no build is published while
another published build has its hash. Then every hash published before that is not active
resolves to a build, and in symlink mode, with Caddy's consent, the rollback to it goes
through. -/
theorem hash_identifies_iff {w : World} (hstart : w.Unpublished) (run : List Action) :
    (Along step (fun _ _ t => SoleMatches t) w run ↔
      Along step (fun s a _ => SoleHolder s a) w run) ∧
    ∀ t hashes, exec (withGhost step notePublished) (w, []) run = some (t, hashes) →
      Along step (fun s a _ => SoleHolder s a) w run →
      ∀ buildHash ∈ hashes, t.site.buildHash ≠ some buildHash →
      ∀ env, env.rejected = none → env.blocked = none →
        (∃ target, rollbackChecks env t buildHash = .ok target) ∧
        ((∀ a ∈ run, a.links = true) → env.links = true → env.caddyOk = true →
          (rollbackProjectBuild env t buildHash).2 = none ∧
          (rollbackProjectBuild env t buildHash).1.site.buildHash = some buildHash) := by
  constructor
  · exact along_invariant_iff (fun s a t hready hstep => (published_step hready hstep).2)
      (fun s a t hready hsole hstep => soleMatches_step hready hsole hstep)
      hstart.recorded.ready hstart.recorded.sole
  · intro t hashes hexec hsole buildHash hmem hactive env hrejected hblocked
    have hrecorded : Recorded t hashes := by
      have hall : Along (withGhost step notePublished) (fun s a t => SoleHolder s.1 a)
          (w, []) run := (along_withGhost notePublished).mpr hsole
      refine exec_invariant (I := fun s => Recorded s.1 s.2) ?_ hstart.recorded hall hexec
      rintro ⟨w, hs⟩ a ⟨w', hs'⟩ h hq hstep
      obtain ⟨hw, hg⟩ := withGhost_eq_some.mp hstep
      dsimp only at hw hg h ⊢
      subst hg
      exact h.step hq hw
    obtain ⟨target, htarget⟩ := hrecorded.resolves hmem hactive hrejected hblocked
    refine ⟨⟨target, htarget⟩, fun hlinks henv hcaddy => ?_⟩
    obtain ⟨hready, ⟨failed, hsettled⟩, hdisk⟩ :
        PublishedReady t ∧ (∃ failed, Settled t failed) ∧ OnDisk t := by
      have hall : Along (withGhost step notePublished) (fun s a t => a.links = true) (w, []) run :=
        (along_withGhost notePublished).mpr (along_of_forall hlinks w)
      refine exec_invariant
        (I := fun s => PublishedReady s.1 ∧ (∃ failed, Settled s.1 failed) ∧ OnDisk s.1)
        ?_ ⟨hstart.recorded.ready, ⟨none, hstart.settled⟩, ?_⟩ hall hexec
      · rintro ⟨w, hs⟩ a ⟨w', hs'⟩ ⟨hr, ⟨failed, hset⟩, hd⟩ hl hstep
        obtain ⟨hw, -⟩ := withGhost_eq_some.mp hstep
        exact ⟨(published_step hr hw).2, ⟨_, hset.step hl hw⟩, hd.step hr hset hl hw⟩
      · rintro id h ⟨build, hget, hholds⟩
        have hpublished := hholds.published
        rw [hstart.unpublished id build hget] at hpublished
        cases hpublished
    obtain ⟨id, hid⟩ := hrecorded.held buildHash hmem
    have hswitches : switches env t buildHash = true := by
      rw [switches, henv, hsettled.activate_eq, if_pos (hdisk id buildHash hid), hcaddy]
      rfl
    obtain ⟨target, row⟩ := target
    rcases switchRelease_cases env t buildHash "Rollback release is unavailable"
      (rollbackCommit env.now target row buildHash) with ⟨-, heq⟩ | ⟨hno, -⟩
    · simp only [rollbackProjectBuild, htarget, heq]
      exact ⟨trivial, rfl⟩
    · rw [hswitches] at hno
      cases hno

/-- Three builds published in turn, then back to the first. -/
theorem hash_identifies_first :
    ∃ t hashes, exec (withGhost step notePublished) (newSite, []) twoPublished
        = some (t, hashes) ∧
      (rollbackProjectBuild (passing true) t "a").1.site.buildHash = some "a" := by
  have hrun : (exec (withGhost step notePublished) (newSite, []) twoPublished).map
      (fun r => (r.2, r.1.site.buildHash)) = some (["b", "a"], some "b") := by decide +kernel
  obtain ⟨⟨t, hashes⟩, hexec, hout⟩ := Option.map_eq_some_iff.mp hrun
  simp only [Prod.mk.injEq] at hout
  obtain ⟨hhashes, hactive⟩ := hout
  have hsole : Along step (fun s a _ => SoleHolder s a) newSite twoPublished := by decide +kernel
  have hback := (hash_identifies_iff newSite_unpublished twoPublished).2 t hashes hexec hsole "a"
    (by rw [hhashes]; decide) (by rw [hactive]; decide) (passing true) rfl rfl
  exact ⟨t, hashes, hexec, (hback.2 (by decide) rfl rfl).2⟩

/-- The content of `a` is built and published once more, then `b` again. -/
def sameContent : List Action :=
  twoPublished ++ buildActions 3 "a" ++ [.publish (passing true) 3, .publish (passing true) 1]

/-- Then the rollback to `a` finds two rows. -/
theorem hash_identifies_twice :
    ¬ ∀ (w t : World) (run : List Action), w.Unpublished → exec step w run = some t →
      SoleMatches t ∧ ∀ env buildHash,
        (rollbackProjectBuild env t buildHash).2 ≠ some .multipleResultsFound := by
  intro h
  have hrun : (exec step newSite sameContent).map
      (fun t => (rollbackProjectBuild (passing true) t "a").2)
      = some (some .multipleResultsFound) := by decide +kernel
  obtain ⟨t, hexec, hout⟩ := Option.map_eq_some_iff.mp hrun
  exact (h newSite t sameContent newSite_unpublished hexec).2 (passing true) "a" hout

end MegaPanel.Release
