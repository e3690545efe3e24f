import MegaPanel.Provenance.Snapshots
import MegaPanel.Publishing.Model
import MegaPanel.Release.Compensation

set_option autoImplicit false

/-! # Publications and the directory of the site

The link `current` should lead to the release that the row of the site names, and the rows of the
pages should be those of its build. One request keeps that: the switch, the answer of Caddy and the
commit follow each other, and the compensation undoes the switch (`restore_switched`). Two requests
do not, when one switches the links between the switch and the commit of the other. The property
holds in the runs in which a request switches the links only while no other one is between its
switch and its end, and the row of the site is still the one it has read (`publications_agree`).
-/

namespace MegaPanel.Publishing

open MegaPanel.Lib MegaPanel.Candidate
open MegaPanel.Provenance (Db Publication SiteRow publicationOf rollbackMatches projection
  projectPage archivePage reconcile flushPage selectedBuildProjection finishBuild)
open MegaPanel.Release (Hash Root Entry linkTo matchesBuild)

/-! ## The links -/

variable {root : Root} {old : Option Hash} {hash : Hash}

/-- The directory after a switch from the release `old`. -/
def switched (root : Root) (old : Option Hash) (hash : Hash) : Root where
  releases := root.releases
  current := .link hash
  previous := linkTo old

theorem activate_switched (hcurrent : root.current = linkTo old)
    (hfirst : old = none → root.previous = .absent)
    (hmatch : matchesBuild (root.releases.get hash) hash = true) :
    Release.activate true root hash = (switched root old hash, true) := by
  have hroot : Release.activateRelease true root hash = switched root old hash := by
    rw [Release.activateRelease, hcurrent]
    cases old with
    | none =>
      show { root with current := Entry.link hash } = switched root none hash
      rw [switched, linkTo, ← hfirst rfl]
    | some b =>
      have hreleases : (if root.previous.isDir then { root with previous := .absent }
          else root).releases = root.releases := by
        split
        · rfl
        · rfl
      dsimp only [linkTo]
      rw [if_pos rfl, hcurrent, linkTo] at *
      rw [hreleases]
      rfl
  rw [Release.activate, if_pos hmatch, hroot]
  exact Prod.ext rfl hmatch

theorem activate_missing (hmatch : matchesBuild (root.releases.get hash) hash ≠ true) :
    Release.activate true root hash = (root, false) := by
  rw [Release.activate, if_neg hmatch]

/-- **A compensation undoes the switch**, but for the link `previous`. -/
theorem restore_switched (hmatch : matchesBuild (root.releases.get hash) hash = true)
    (hold : ∀ b, old = some b → matchesBuild (root.releases.get b) b = true) :
    (Release.restoreActivation true (switched root old hash) hash old).1 =
      { root with current := linkTo old, previous := linkTo (old.map (fun _ => hash)) } := by
  have hsome : (root.releases.get hash).isSome = true := by
    cases hget : root.releases.get hash with
    | none => rw [hget] at hmatch; cases hmatch
    | some d => rfl
  have hcurrent : matchesBuild ((switched root old hash).resolve (switched root old hash).current)
      hash = true := hmatch
  unfold Release.restoreActivation
  rw [hcurrent]
  cases old with
  | none =>
    simp [Release.restoreFirst, switched, linkTo, hmatch, Release.linkPointsTo, hsome]
  | some b =>
    have hactive := hold b rfl
    have holdSome : (root.releases.get b).isSome = true := by
      cases hget : root.releases.get b with
      | none => rw [hget] at hactive; cases hactive
      | some d => rfl
    simp [switched, linkTo, Root.resolve, hactive, Entry.isSymlink, Release.restoreLinks, hmatch,
      Release.linkPointsTo, hsome, holdSome]

/-! ## The rows of the pages -/

variable {manifest : SiteManifest} {bySlug : List (String × Json)}
  {targets : List (String × SitePage)}

/-- The pages are those of the selected build; the others are archived. -/
def ShowsTargets (targets : List (String × SitePage)) (pages : Table String SitePage) : Prop :=
  (∀ e ∈ targets, pages.get e.1 = some e.2) ∧
    ∀ slug row, pages.get slug = some row → slug ∉ targets.map (·.1) →
      row.publishState = .archived

/-- The rows for the pages of a build. -/
def BuildTargets (db : Db) (build : Provenance.Build) (targets : List (String × SitePage)) : Prop :=
  ∃ manifest bySlug, selectedBuildProjection db build = .ok (manifest, bySlug) ∧
    projection manifest bySlug = .ok targets

/-- The pages are those of a build with this hash. -/
def Shows (db : Db) (hash : Hash) : Prop :=
  ∃ id build targets, db.builds.get id = some build ∧ build.buildHash = some hash ∧
    BuildTargets db build targets ∧ ShowsTargets targets db.pages

theorem dictGet_rows {κ ρ : Type} [DecidableEq κ] (t : Table κ ρ) (k : κ) :
    dictGet t.rows k = t.get k := by
  have hn : (t.rows.map (·.1)).Nodup := by
    rw [Table.rows_keys]
    exact t.nodup
  cases hget : t.get k with
  | none =>
    refine dictGet_eq_none.mpr (fun r hr heq => ?_)
    have hrow := Table.mem_rows.mp hr
    rw [heq, hget] at hrow
    cases hrow
  | some row =>
    have hrow := dictGet_map (fun r : κ × ρ => r.1) (fun r => r.2) hn (Table.mem_rows.mpr hget)
    rwa [List.map_id'] at hrow

/-- The flush of a row that nobody else has written. -/
theorem flushPage_self (copy current : SitePage) :
    flushPage copy current copy = { current with slug := copy.slug } := by
  simp [flushPage]

theorem projection_slug (h : projection manifest bySlug = .ok targets) (e : String × SitePage)
    (he : e ∈ targets) : e.2.slug = e.1 := by
  obtain ⟨page, _, hproject⟩ := mapM_mem h he
  split at hproject
  · cases hproject
    rfl
  · cases hproject
  · cases hproject

theorem projection_slugs (h : projection manifest bySlug = .ok targets) :
    targets.map (·.1) = manifest.pages.map PageManifest.slug := by
  have hall : List.Forall₂ (fun page e => e.1 = page.slug) manifest.pages targets := by
    refine (mapM_forall₂ h).imp (fun page e hproject => ?_)
    split at hproject
    · cases hproject
      rfl
    · cases hproject
    · cases hproject
  clear h
  generalize manifest.pages = pages at hall ⊢
  induction hall with
  | nil => rfl
  | cons hslug _ ih => rw [List.map_cons, List.map_cons, ih, hslug]

theorem mapRows_congr {κ ρ : Type} {t : Table κ ρ} {f g : κ → ρ → ρ}
    (h : ∀ k row, t.get k = some row → f k row = g k row) : t.mapRows f = t.mapRows g := by
  have hget : (fun k => (t.get k).map (f k)) = fun k => (t.get k).map (g k) := by
    funext k
    cases hrow : t.get k with
    | none => rfl
    | some row => rw [Option.map_some, Option.map_some, h k row hrow]
  simp only [Table.mapRows, hget]

/-- **A projection whose rows are still as they were read** leaves the pages of the build. -/
theorem reconcile_rows {pages : Table String SitePage}
    (hkeyed : ∀ slug row, pages.get slug = some row → row.slug = slug)
    (hslugs : ∀ e ∈ targets, e.2.slug = e.1) (hnodup : (targets.map (·.1)).Nodup) :
    ∃ pages', reconcile pages.rows targets pages = some pages' ∧ ShowsTargets targets pages' ∧
      ∀ slug row, pages'.get slug = some row → row.slug = slug := by
  obtain ⟨added, hadded⟩ : ∃ added, added = targets.filter (fun e => (pages.get e.1).isNone) :=
    ⟨_, rfl⟩
  obtain ⟨flushed, hflushed⟩ : ∃ flushed, flushed = pages.mapRows (fun slug row =>
      { (dictGet targets slug).getD (archivePage row) with slug := row.slug }) := ⟨_, rfl⟩
  have haddedNodup : (added.map (·.1)).Nodup := by
    rw [hadded]
    exact hnodup.sublist (List.filter_sublist.map _)
  have hnew : ∀ e, e ∈ added ↔ e ∈ targets ∧ pages.get e.1 = none := by
    intro e
    rw [hadded, List.mem_filter, Option.isNone_iff_eq_none]
  have hresult : reconcile pages.rows targets pages = some (flushed.insertAll added) := by
    simp only [reconcile, dictGet_rows, ← hadded]
    rw [if_pos ⟨haddedNodup, List.all_eq_true.mpr (fun e he =>
      Option.isNone_iff_eq_none.mpr ((hnew e).mp he).2)⟩]
    refine congrArg (fun t : Table String SitePage => some (t.insertAll added)) ?_
    rw [hflushed]
    refine mapRows_congr (fun slug row hrow => ?_)
    simp only [hrow, flushPage_self]
  have htarget : ∀ e ∈ targets, dictGet targets e.1 = some e.2 := by
    intro e he
    have hget := dictGet_map (fun e : String × SitePage => e.1) (fun e => e.2) hnodup he
    rwa [List.map_id'] at hget
  have hold : ∀ slug row, pages.get slug = some row → (flushed.insertAll added).get slug
      = some { (dictGet targets slug).getD (archivePage row) with slug := slug } := by
    intro slug row hrow
    have hnot : slug ∉ added.map (·.1) := by
      intro hmem
      obtain ⟨e, he, rfl⟩ := List.mem_map.mp hmem
      cases hrow.symm.trans ((hnew e).mp he).2
    rw [Table.get_insertAll_of_notMem hnot, hflushed, Table.get_mapRows, hrow, Option.map_some,
      hkeyed slug row hrow]
  refine ⟨_, hresult, ⟨fun e he => ?_, fun slug row hrow hnot => ?_⟩, fun slug row hrow => ?_⟩
  · cases hpage : pages.get e.1 with
    | none => exact Table.get_insertAll_of_mem haddedNodup ((hnew e).mpr ⟨he, hpage⟩) _
    | some row =>
      rw [hold e.1 row hpage, htarget e he, Option.getD_some, ← hslugs e he]
  · cases hpage : pages.get slug with
    | none =>
      obtain hflush | hmem := Table.get_insertAll_eq_some hrow
      · rw [hflushed, Table.get_mapRows, hpage] at hflush
        cases hflush
      · exact absurd (List.mem_map_of_mem ((hnew _).mp hmem).1) hnot
    | some old =>
      have hnone : dictGet targets slug = none :=
        dictGet_eq_none.mpr (fun e he heq => hnot (List.mem_map.mpr ⟨e, he, heq⟩))
      rw [hold slug old hpage, hnone] at hrow
      cases hrow
      rfl
  · cases hpage : pages.get slug with
    | none =>
      obtain hflush | hmem := Table.get_insertAll_eq_some hrow
      · rw [hflushed, Table.get_mapRows, hpage] at hflush
        cases hflush
      · exact hslugs _ ((hnew _).mp hmem).1
    | some old =>
      rw [hold slug old hpage] at hrow
      cases hrow
      rfl

/-! ## The rows of the builds -/

variable {db db' : Db} {id : BuildId} {firstPublishedAt : Option Time} {p : Publication}

/-- What a publication has selected. -/
structure Selects (db : Db) (hash : Hash) (p : Publication) : Prop where
  current : p.current.buildHash = some hash
  build : ∃ build, db.builds.get p.buildId = some build ∧ build.buildHash = some hash ∧
    BuildTargets db build p.targets

theorem publicationOf_spec {build : Provenance.Build}
    (h : publicationOf db id build hash firstPublishedAt = .ok p) :
    p.loaded = db.site ∧ p.buildId = id ∧ p.current.buildHash = some hash ∧
      BuildTargets db build p.targets := by
  rw [publicationOf] at h
  split at h
  · cases h
  · next manifest bySlug hselected =>
    cases htargets : projection manifest bySlug with
    | error raised =>
      rw [htargets] at h
      cases h
    | ok targets =>
      rw [htargets] at h
      cases h
      exact ⟨rfl, rfl, rfl, manifest, bySlug, hselected, htargets⟩

/-- What the rows of a site are: a page under its slug, and no page twice in a build. -/
structure WellFormed (db : Db) : Prop where
  keyed : ∀ slug row, db.pages.get slug = some row → row.slug = slug
  once : ∀ id build manifest bySlug, db.builds.get id = some build →
    selectedBuildProjection db build = .ok (manifest, bySlug) →
    (manifest.pages.map PageManifest.slug).Nodup

/-- The columns that a publication leaves as they are. -/
structure SameBuilds (db db' : Db) : Prop where
  siteId : db'.siteId = db.siteId
  tenantId : db'.tenantId = db.tenantId
  builds : ∀ id build, db.builds.get id = some build → ∃ build', db'.builds.get id = some build' ∧
    build'.buildHash = build.buildHash ∧ build'.manifestSnapshot = build.manifestSnapshot ∧
    build'.pageMetadata = build.pageMetadata
  back : ∀ id build', db'.builds.get id = some build' → ∃ build, db.builds.get id = some build ∧
    build'.manifestSnapshot = build.manifestSnapshot ∧ build'.pageMetadata = build.pageMetadata

theorem SameBuilds.projection (h : SameBuilds db db') {build build' : Provenance.Build}
    (hmanifest : build'.manifestSnapshot = build.manifestSnapshot)
    (hmetadata : build'.pageMetadata = build.pageMetadata) :
    selectedBuildProjection db' build' = selectedBuildProjection db build := by
  rw [selectedBuildProjection, selectedBuildProjection, hmanifest, hmetadata, h.siteId, h.tenantId]

theorem SameBuilds.selects (h : SameBuilds db db') (hp : Selects db hash p) :
    Selects db' hash p where
  current := hp.current
  build := by
    obtain ⟨build, hbuild, hhash, manifest, bySlug, hselected, htargets⟩ := hp.build
    obtain ⟨build', hbuild', hhash', hmanifest, hmetadata⟩ := h.builds _ build hbuild
    exact ⟨build', hbuild', hhash'.trans hhash, manifest, bySlug,
      (h.projection hmanifest hmetadata).trans hselected, htargets⟩

/-- **The commit of a publication that nobody has come in between** writes its rows. -/
theorem publish_rows (hdb : WellFormed db) (hp : Selects db hash p) (hloaded : p.loaded = db.site) :
    ∃ db', db.publish p db.pages.rows = some db' ∧ db'.site = p.current ∧ SameBuilds db db' ∧
      WellFormed db' ∧ Shows db' hash := by
  obtain ⟨build, hbuild, hhash, manifest, bySlug, hselected, htargets⟩ := hp.build
  have hnodup : (p.targets.map (·.1)).Nodup := by
    rw [projection_slugs htargets]
    exact hdb.once _ build manifest bySlug hbuild hselected
  obtain ⟨pages', hreconcile, hshows, hkeyed⟩ :=
    reconcile_rows hdb.keyed (projection_slug htargets) hnodup
  obtain ⟨db', hdb'⟩ : ∃ db', db' = { db with
    site := SiteRow.flush p.loaded p.current db.site
    pages := pages'
    builds := db.builds.modify p.buildId
      (fun build => { build with firstPublishedAt := p.firstPublishedAt }) } := ⟨_, rfl⟩
  have hpublish : db.publish p db.pages.rows = some db' := by
    rw [Db.publish, hreconcile, hdb']
    rfl
  have hsite : db'.site = p.current := by
    rw [hdb', hloaded]
    simp [SiteRow.flush]
  have hsame : SameBuilds db db' := by
    refine ⟨by rw [hdb'], by rw [hdb'], fun id b hb => ?_, fun id b' hb' => ?_⟩
    · rw [hdb']
      dsimp only
      rw [Table.get_modify]
      split
      · next heq =>
        rw [← heq, hb]
        exact ⟨_, rfl, rfl, rfl, rfl⟩
      · exact ⟨b, hb, rfl, rfl, rfl⟩
    · rw [hdb'] at hb'
      dsimp only at hb'
      rw [Table.get_modify] at hb'
      split at hb'
      · next heq =>
        obtain ⟨b, hb, rfl⟩ := Option.map_eq_some_iff.mp hb'
        exact ⟨b, heq ▸ hb, rfl, rfl⟩
      · exact ⟨b', hb', rfl, rfl⟩
  refine ⟨db', hpublish, hsite, hsame, ⟨?_, fun id b' m s hb' hsel => ?_⟩, ?_⟩
  · rw [hdb']
    exact hkeyed
  · obtain ⟨b, hb, hmanifest, hmetadata⟩ := hsame.back id b' hb'
    exact hdb.once id b m s hb ((hsame.projection hmanifest hmetadata).symm.trans hsel)
  · obtain ⟨build', hbuild', hhash', htargets'⟩ := (hsame.selects hp).build
    refine ⟨p.buildId, build', p.targets, hbuild', hhash', htargets', ?_⟩
    rw [hdb']
    exact hshows

/-! ## The property and the condition -/

/-- **The directory and the rows agree**: `current` leads to the release that the row of the site
names, and the pages are those of its build. -/
structure Agrees (db : Db) (root : Root) : Prop where
  current : root.current = linkTo db.site.buildHash
  release : ∀ h, db.site.buildHash = some h → matchesBuild (root.releases.get h) h = true
  first : db.site.buildHash = none → root.previous = .absent
  shows : ∀ h, db.site.buildHash = some h → Shows db h

/-- Before the requests. -/
structure Start (w : World) : Prop where
  requests : w.requests = Table.empty
  siteLock : w.siteLock = none
  rows : WellFormed w.db
  agrees : Agrees w.db w.root

/-- A request switches the links only while no other one is between its switch and its end, and the
row of the site is as it has read it. -/
def exclusive (w : World) : Action → Bool
  | .activate rid =>
    w.requests.rows.all (fun r => r.2.isSelected) &&
      match w.requests.get rid with
      | some (.selected _ p) => decide (p.loaded = w.db.site)
      | _ => true
  | _ => true

/-! ## The invariant -/

variable {w : World} {rid other : RequestId} {s s' : Session} {successes : List Hash}

/-- The state of the request that has switched the links. -/
inductive Switched (db : Db) (siteLock : Option RequestId) (rid : RequestId) (hash : Hash)
    (p : Publication) : Session → Prop
  | activated (hlock : siteLock = none) : Switched db siteLock rid hash p (.activated hash p)
  | agreed (hlock : siteLock = none) : Switched db siteLock rid hash p (.agreed hash p)
  | projecting (hlock : siteLock = none ∨ siteLock = some rid) :
      Switched db siteLock rid hash p (.projecting hash p db.pages.rows)

/-- Either no request has switched the links, or one has. -/
inductive Phase (w : World) : Prop
  | quiet (hall : ∀ rid s, w.requests.get rid = some s → s.isSelected = true)
      (hlock : w.siteLock = none) (hagrees : Agrees w.db w.root) : Phase w
  | window (rid : RequestId) (hash : Hash) (p : Publication) (s : Session) (root : Root)
      (hget : w.requests.get rid = some s) (hs : Switched w.db w.siteLock rid hash p s)
      (hothers : ∀ other s', other ≠ rid → w.requests.get other = some s' → s'.isSelected = true)
      (hp : Selects w.db hash p) (hloaded : p.loaded = w.db.site)
      (hmatch : matchesBuild (root.releases.get hash) hash = true) (hagrees : Agrees w.db root)
      (hroot : w.root = switched root w.db.site.buildHash hash) : Phase w

structure Sound (w : World) (successes : List Hash) : Prop where
  rows : WellFormed w.db
  selected : ∀ rid hash p, w.requests.get rid = some (.selected hash p) → Selects w.db hash p
  phase : Phase w
  last : ∀ h, successes.getLast? = some h → w.db.site.buildHash = some h

theorem Start.sound (h : Start w) : Sound w [] where
  rows := h.rows
  selected := fun rid hash p hget => by rw [h.requests] at hget; cases hget
  phase := .quiet (fun rid s hget => by rw [h.requests] at hget; cases hget) h.siteLock h.agrees
  last := fun _ hlast => by cases hlast

theorem get_endSession (h : (w.endSession rid).requests.get other = some s) :
    other ≠ rid ∧ w.requests.get other = some s := Table.get_erase_eq_some.mp h

theorem get_setSession (h : (w.setSession rid s).requests.get other = some s') :
    (other = rid ∧ s' = s) ∨ (other ≠ rid ∧ w.requests.get other = some s') := by
  rw [World.setSession, Table.get_set] at h
  split at h
  · next heq => exact .inl ⟨heq, (Option.some.inj h).symm⟩
  · next hne => exact .inr ⟨hne, h⟩

theorem Switched.not_selected {siteLock : Option RequestId}
    (h : Switched db siteLock rid hash p s) : s.isSelected = false := by
  cases h with
  | activated | agreed | projecting => rfl

/-- The request that has switched the links is the one of the window. -/
theorem Sound.window (h : Sound w successes) (hget : w.requests.get rid = some s)
    (hs : s.isSelected = false) :
    ∃ hash p root, Switched w.db w.siteLock rid hash p s ∧
      (∀ other s', other ≠ rid → w.requests.get other = some s' → s'.isSelected = true) ∧
      Selects w.db hash p ∧ p.loaded = w.db.site ∧
      matchesBuild (root.releases.get hash) hash = true ∧ Agrees w.db root ∧
      w.root = switched root w.db.site.buildHash hash := by
  cases h.phase with
  | quiet hall =>
    rw [hall rid s hget] at hs
    cases hs
  | window rid' hash p s' root hget' hs' hothers hp hloaded hmatch hagrees hroot =>
    have heq : rid = rid' := by
      by_contra hne
      rw [hothers rid s hne hget] at hs
      cases hs
    subst heq
    cases hget.symm.trans hget'
    exact ⟨hash, p, root, hs', hothers, hp, hloaded, hmatch, hagrees, hroot⟩

/-! ## Steps -/

variable {t : World} {a : Action}

/-- A request begins. -/
theorem Sound.begin (h : Sound w successes) {build : Provenance.Build}
    (hbuild : w.db.builds.get id = some build) (hhash : build.buildHash = some hash)
    (hbegin : w.begin rid id build hash firstPublishedAt = some t) : Sound t successes := by
  rw [World.begin] at hbegin
  split at hbegin
  · next hfree =>
    obtain ⟨p, hp, rfl⟩ := toOption_map_eq_some hbegin
    obtain ⟨_, hid, hcurrent, htargets⟩ := publicationOf_spec hp
    have hselects : Selects w.db hash p := ⟨hcurrent, build, hid ▸ hbuild, hhash, htargets⟩
    refine ⟨h.rows, fun other hash' p' hget => ?_, ?_, h.last⟩
    · rcases get_setSession hget with ⟨_, heq⟩ | ⟨_, hget⟩
      · cases heq
        exact hselects
      · exact h.selected other hash' p' hget
    · cases h.phase with
      | quiet hall hlock hagrees =>
        refine .quiet (fun other s hget => ?_) hlock hagrees
        rcases get_setSession hget with ⟨_, rfl⟩ | ⟨_, hget⟩
        · rfl
        · exact hall other s hget
      | window rid' hash' p' s root hget hs hothers hp' hloaded hmatch hagrees hroot =>
        have hne : rid' ≠ rid := by
          rintro rfl
          cases hfree.symm.trans hget
        refine .window rid' hash' p' s root ((Table.get_set_ne _ hne _).trans hget) hs
          (fun other s' hother hget' => ?_) hp' hloaded hmatch hagrees hroot
        rcases get_setSession hget' with ⟨_, rfl⟩ | ⟨_, hget'⟩
        · rfl
        · exact hothers other s' hother hget'
  · cases hbegin

/-- A request ends before it has switched the links. -/
theorem Sound.refuse (h : Sound w successes) (hget : w.requests.get rid = some (.selected hash p)) :
    Sound (w.endSession rid) successes := by
  refine ⟨h.rows, fun other hash' p' hget' => h.selected other hash' p' (get_endSession hget').2,
    ?_, h.last⟩
  cases h.phase with
  | quiet hall hlock hagrees =>
    refine .quiet (fun other s hget' => hall other s (get_endSession hget').2) ?_ hagrees
    rw [World.endSession, hlock]
    rfl
  | window rid' hash' p' s root hget' hs hothers hp' hloaded hmatch hagrees hroot =>
    have hne : rid' ≠ rid := by
      rintro rfl
      cases hget.symm.trans hget'
      cases hs.not_selected
    have hlock : (w.endSession rid).siteLock = w.siteLock := by
      rw [World.endSession]
      refine if_neg (fun hheld => ?_)
      cases hs with
      | activated hlock => cases hlock.symm.trans hheld
      | agreed hlock => cases hlock.symm.trans hheld
      | projecting hlock =>
        rcases hlock with hlock | hlock
        · cases hlock.symm.trans hheld
        · exact hne (Option.some.inj (hlock.symm.trans hheld))
    refine .window rid' hash' p' s root ((Table.get_erase_ne _ hne).trans hget') ?_
      (fun other s' hother hget'' => hothers other s' hother (get_endSession hget'').2) hp' hloaded
      hmatch hagrees hroot
    rw [hlock]
    exact hs

theorem Sound.activate (h : Sound w successes) (hget : w.requests.get rid = some (.selected hash p))
    (hexclusive : exclusive w (.activate rid) = true) (ht : step w (.activate rid) = some t) :
    Sound t successes := by
  simp only [exclusive, hget, Bool.and_eq_true, List.all_eq_true, decide_eq_true_eq] at hexclusive
  obtain ⟨hall, hloaded⟩ := hexclusive
  have hselected : ∀ other s, w.requests.get other = some s → s.isSelected = true :=
    fun other s hother => hall _ (Table.mem_rows.mpr hother)
  have hquiet : w.siteLock = none ∧ Agrees w.db w.root := by
    cases h.phase with
    | quiet _ hlock hagrees => exact ⟨hlock, hagrees⟩
    | window rid' _ _ s _ hget' hs =>
      have hnot := hs.not_selected
      rw [hselected rid' s hget'] at hnot
      cases hnot
  obtain ⟨hlock, hagrees⟩ := hquiet
  simp only [step, hget] at ht
  by_cases hmatch : matchesBuild (w.root.releases.get hash) hash = true
  · rw [activate_switched hagrees.current hagrees.first hmatch] at ht
    cases ht
    refine ⟨h.rows, fun other hash' p' hget' => ?_, ?_, h.last⟩
    · rcases get_setSession hget' with ⟨_, heq⟩ | ⟨_, hget'⟩
      · cases heq
      · exact h.selected other hash' p' hget'
    · refine .window rid hash p _ w.root (Table.get_set_self _ _ _) (.activated hlock)
        (fun other s hother hget' => ?_) (h.selected rid hash p hget) hloaded hmatch hagrees rfl
      rcases get_setSession hget' with ⟨heq, _⟩ | ⟨_, hget'⟩
      · exact absurd heq hother
      · exact hselected other s hget'
  · rw [activate_missing hmatch] at ht
    cases ht
    exact h.refuse hget

/-- The window goes on with the next state of its request. -/
theorem Sound.advance (h : Sound w successes)
    (hothers : ∀ other s', other ≠ rid → w.requests.get other = some s' → s'.isSelected = true)
    (hp : Selects w.db hash p) (hloaded : p.loaded = w.db.site)
    (hmatch : matchesBuild (root.releases.get hash) hash = true) (hagrees : Agrees w.db root)
    (hroot : w.root = switched root w.db.site.buildHash hash) (hdb : t.db = w.db)
    (hroot' : t.root = w.root) (hrequests : t.requests = w.requests.set rid s')
    (hs' : Switched w.db t.siteLock rid hash p s') : Sound t successes := by
  have hget' : ∀ other s, t.requests.get other = some s →
      (other = rid ∧ s = s') ∨ (other ≠ rid ∧ w.requests.get other = some s) := by
    intro other s hother
    rw [hrequests] at hother
    exact get_setSession hother
  refine ⟨hdb ▸ h.rows, fun other hash' p' hother => ?_, ?_, hdb ▸ h.last⟩
  · rw [hdb]
    rcases hget' other _ hother with ⟨_, heq⟩ | ⟨_, hother⟩
    · rw [← heq] at hs'
      cases hs'.not_selected
    · exact h.selected other hash' p' hother
  · refine .window rid hash p s' root ?_ (hdb ▸ hs') (fun other s hother hget => ?_) (hdb ▸ hp)
      (hdb ▸ hloaded) hmatch (hdb ▸ hagrees) (by rw [hroot', hdb]; exact hroot)
    · rw [hrequests, Table.get_set_self]
    · rcases hget' other s hget with ⟨heq, _⟩ | ⟨_, hget⟩
      · exact absurd heq hother
      · exact hothers other s hother hget

/-- The window is closed. -/
theorem Sound.close {successes' : List Hash} (h : Sound w successes)
    (hget : w.requests.get rid = some s) (hs : Switched w.db w.siteLock rid hash p s)
    (hothers : ∀ other s', other ≠ rid → w.requests.get other = some s' → s'.isSelected = true)
    (hsame : SameBuilds w.db t.db) (hrows : WellFormed t.db)
    (hrequests : t.requests = w.requests.erase rid)
    (hlock : t.siteLock = if w.siteLock = some rid then none else w.siteLock)
    (hagrees : Agrees t.db t.root)
    (hlast : ∀ h, successes'.getLast? = some h → t.db.site.buildHash = some h) :
    Sound t successes' := by
  have hget' : ∀ other s, t.requests.get other = some s →
      other ≠ rid ∧ w.requests.get other = some s := by
    intro other s hother
    rw [hrequests] at hother
    exact Table.get_erase_eq_some.mp hother
  refine ⟨hrows, fun other hash' p' hother => ?_, .quiet (fun other s hother => ?_) ?_ hagrees,
    hlast⟩
  · exact hsame.selects (h.selected other hash' p' (hget' other _ hother).2)
  · exact hothers other s (hget' other s hother).1 (hget' other s hother).2
  · rw [hlock]
    cases hs with
    | activated hlock => rw [hlock]; rfl
    | agreed hlock => rw [hlock]; rfl
    | projecting hlock =>
      rcases hlock with hlock | hlock
      · rw [hlock]; rfl
      · rw [if_pos hlock]

theorem SameBuilds.refl (db : Db) : SameBuilds db db :=
  ⟨rfl, rfl, fun _ build hb => ⟨build, hb, rfl, rfl, rfl⟩, fun _ build hb => ⟨build, hb, rfl, rfl⟩⟩

theorem Sound.caddy (h : Sound w successes) {ok : Bool} (ht : step w (.caddy rid ok) = some t) :
    Sound t successes := by
  simp only [step] at ht
  split at ht
  · next hash p hget =>
    obtain ⟨_, _, root, hs, hothers, hp, hloaded, hmatch, hagrees, hroot⟩ := h.window hget rfl
    cases hs with
    | activated hlock =>
      split at ht
      · cases ht
        exact h.advance hothers hp hloaded hmatch hagrees hroot rfl rfl rfl (.agreed hlock)
      cases ht
      refine h.close hget (.activated hlock) hothers (.refl _) h.rows rfl rfl ?_ h.last
      have hrestored := restore_switched hmatch hagrees.release
      change Agrees w.db (Release.restoreActivation true w.root hash p.loaded.buildHash).1
      rw [hroot, hloaded, hrestored]
      refine ⟨rfl, hagrees.release, fun hnone => ?_, hagrees.shows⟩
      rw [hnone]
      rfl
  · cases ht

theorem Sound.project (h : Sound w successes) (ht : step w (.project rid) = some t) :
    Sound t successes := by
  simp only [step] at ht
  split at ht
  · next hash p hget =>
    obtain ⟨_, _, root, hs, hothers, hp, hloaded, hmatch, hagrees, hroot⟩ := h.window hget rfl
    cases hs with
    | agreed hlock =>
      split at ht
      · cases ht
        exact h.advance hothers hp hloaded hmatch hagrees hroot rfl rfl rfl
          (.projecting (.inl hlock))
      · split at ht
        · cases ht
        · cases ht
          exact h.advance hothers hp hloaded hmatch hagrees hroot rfl rfl rfl
            (.projecting (.inr rfl))
  · cases ht

theorem Sound.commit (h : Sound w successes) (ht : step w (.commit rid) = some t) :
    Sound t (note w (.commit rid) successes) := by
  simp only [step] at ht
  split at ht
  · next hash p read hget =>
    obtain ⟨_, _, root, hs, hothers, hp, hloaded, hmatch, hagrees, hroot⟩ := h.window hget rfl
    cases hs with
    | projecting hlock =>
      obtain ⟨db', hpublish, hsite, hsame, hrows, hshows⟩ := publish_rows h.rows hp hloaded
      have hnote : note w (.commit rid) successes = successes ++ [hash] := by
        simp only [note, successOf, hget, hpublish]
        rfl
      rw [hpublish] at ht
      cases ht
      have hactive : db'.site.buildHash = some hash := by rw [hsite, hp.current]
      rw [hnote]
      refine h.close hget (.projecting hlock) hothers hsame hrows rfl rfl ⟨?_, ?_, ?_, ?_⟩ ?_
      · change w.root.current = linkTo db'.site.buildHash
        rw [hroot, hactive]
        rfl
      · intro b hb
        cases hactive.symm.trans hb
        change matchesBuild (w.root.releases.get hash) hash = true
        rw [hroot]
        exact hmatch
      · intro hnone
        cases hactive.symm.trans hnone
      · intro b hb
        cases hactive.symm.trans hb
        exact hshows
      · intro b hb
        rw [List.getLast?_append_of_ne_nil _ (by simp)] at hb
        cases hb
        exact hactive
  · cases ht

theorem note_of_none (h : successOf w a = none) : note w a successes = successes := by
  rw [note, h]
  exact List.append_nil _

theorem Sound.step (h : Sound w successes) (hexclusive : exclusive w a = true)
    (ht : Publishing.step w a = some t) : Sound t (note w a successes) := by
  cases a with
  | publish rid id now =>
    rw [note_of_none rfl]
    obtain ⟨build, hbuild, hbegin⟩ := Option.bind_eq_some_iff.mp ht
    split at hbegin
    · next hash _ hhash => exact h.begin hbuild hhash hbegin
    · cases hbegin
  | rollback rid hash =>
    rw [note_of_none rfl]
    simp only [Publishing.step] at ht
    split_ifs at ht
    split at ht
    · next id build hmatches =>
      have hmem : (id, build) ∈ rollbackMatches w.db hash := by rw [hmatches]; simp
      obtain ⟨hrow, hmatch⟩ := List.mem_filter.mp hmem
      simp only [Bool.and_eq_true, decide_eq_true_eq] at hmatch
      exact h.begin (Table.mem_rows.mp hrow) hmatch.1.1 ht
    · cases ht
  | refuse rid =>
    rw [note_of_none rfl]
    simp only [Publishing.step] at ht
    split at ht
    · next hash p hget =>
      cases ht
      exact h.refuse hget
    · cases ht
  | activate rid =>
    rw [note_of_none rfl]
    cases hget : w.requests.get rid with
    | none => simp [Publishing.step, hget] at ht
    | some s =>
      cases s with
      | selected hash p => exact h.activate hget hexclusive ht
      | activated hash p => simp [Publishing.step, hget] at ht
      | agreed hash p => simp [Publishing.step, hget] at ht
      | projecting hash p read => simp [Publishing.step, hget] at ht
  | caddy rid ok =>
    rw [note_of_none rfl]
    exact h.caddy ht
  | project rid =>
    rw [note_of_none rfl]
    exact h.project ht
  | commit rid => exact h.commit ht

/-! ## The theorem -/

/-- **Publications agree with the directory.** In every run of publications and rollbacks, with any
answers of Caddy, in which each request has the directory for itself from its switch to its end and
switches from the row that it has read: when all of them have finished, the link leads to the
release of the row, the pages are those of its build, and the last success was for it. -/
theorem publications_agree {w t : World} {successes : List Hash} {run : List Action}
    (hstart : Start w) (hexclusive : Along step (fun s a _ => exclusive s a = true) w run)
    (hrun : exec (withGhost step note) (w, []) run = some (t, successes))
    (hfinished : t.requests.keys = []) :
    Agrees t.db t.root ∧ ∀ h, successes.getLast? = some h → t.db.site.buildHash = some h := by
  have hkept : ∀ (s : World × List Hash) (a : Action) (u : World × List Hash), Sound s.1 s.2 →
      exclusive s.1 a = true → withGhost step note s a = some u → Sound u.1 u.2 := by
    rintro s a ⟨u, successes'⟩ hs hc hstep
    obtain ⟨hu, rfl⟩ := withGhost_eq_some.mp hstep
    exact hs.step hc hu
  have hcond := (along_withGhost note (Q := fun s a _ => exclusive s a = true)
    (g := ([] : List Hash))).mpr hexclusive
  have hsound : Sound t successes := exec_invariant hkept hstart.sound hcond hrun
  refine ⟨?_, hsound.last⟩
  cases hsound.phase with
  | quiet _ _ hagrees => exact hagrees
  | window rid _ _ _ _ hget => cases (Table.get_of_keys_nil hfinished rid).symm.trans hget

/-! ## One request after the other, and two at a time -/

def homePage : PageManifest := ⟨"/", .noindex, "\x7b\x7d"⟩

/-- A build of the home page. -/
def homeBuild (hash : Hash) (chars : Nat) : Provenance.Build where
  status := .ready
  inputSnapshot := ⟨⟨1, 1, "example.ru", [homePage]⟩, [], [], [], []⟩
  buildHash := some hash
  manifestSnapshot := ⟨1, 1, "example.ru", [homePage]⟩
  pageMetadata := some [.dict
    [("slug", .str "/"), ("path", .str "/"), ("index_state", .str "noindex"), ("thin", .bool true),
      ("content_chars", .int chars), ("hash", .str (String.ofList (List.replicate 64 'a'))),
      ("source_hash", .str (String.ofList (List.replicate 64 'b'))), ("promoted_at", .null)]]
  firstPublishedAt := none

/-- Two builds are ready, and nothing has been published. -/
def twoBuilds : World where
  db :=
    { siteId := 1
      projectId := 1
      tenantId := 1
      manifest := none
      site := ⟨none, none, .draft⟩
      pages := Table.empty
      drafts := fun _ => none
      promotions := []
      schedules := fun _ => none
      builds := (Table.empty.set 1 (homeBuild "a" 10)).set 2 (homeBuild "b" 20) }
  root :=
    { releases := (Table.empty.set "a" ⟨[], some "a", 0⟩).set "b" ⟨[], some "b", 0⟩
      current := .absent
      previous := .absent }
  requests := Table.empty
  siteLock := none

theorem twoBuilds_start : Start twoBuilds where
  requests := rfl
  siteLock := rfl
  rows :=
    { keyed := fun slug row h => by cases h
      once := by
        intro id build manifest bySlug hbuild hselected
        have hrow := Table.mem_rows.mpr hbuild
        have hpages : build.manifestSnapshot = ⟨1, 1, "example.ru", [homePage]⟩ := by
          rcases List.mem_pair.mp hrow with h | h
          · cases h; rfl
          · cases h; rfl
        simp only [selectedBuildProjection] at hselected
        split at hselected
        · cases hselected
        split at hselected
        · cases hselected
        split at hselected
        · cases hselected
        cases hselected
        rw [hpages]
        exact List.nodup_singleton _ }
  agrees :=
    { current := rfl
      release := fun h hb => by cases hb
      first := fun _ => rfl
      shows := fun h hb => by cases hb }

/-- The requests of the two builds, the second one refused by Caddy. -/
def inTurn : List Action :=
  [.publish 1 1 0, .activate 1, .caddy 1 true, .project 1, .commit 1,
    .publish 2 2 0, .activate 2, .caddy 2 false]

/-- Both requests switch the links before either has committed. -/
def crossed : List Action :=
  [.publish 1 1 0, .publish 2 2 0, .activate 1, .activate 2, .caddy 1 true, .caddy 2 true,
    .project 2, .commit 2, .project 1, .commit 1]

theorem publications_agree_inTurn :
    ∃ t successes, exec (withGhost step note) (twoBuilds, []) inTurn = some (t, successes) ∧
      t.db.site.buildHash = some "a" ∧ t.root.current = .link "a" ∧ Agrees t.db t.root := by
  have hend : (exec step twoBuilds inTurn).map (fun t =>
      (t.db.site.buildHash, t.root.current, t.requests.keys))
      = some (some "a", .link "a", []) := by decide +kernel
  obtain ⟨t, ht, hfacts⟩ := Option.map_eq_some_iff.mp hend
  simp only [Prod.mk.injEq] at hfacts
  obtain ⟨hactive, hcurrent, hfinished⟩ := hfacts
  obtain ⟨successes, hrun⟩ := exec_withGhost ht note []
  exact ⟨t, successes, hrun, hactive, hcurrent,
    (publications_agree twoBuilds_start (by decide +kernel) hrun hfinished).1⟩

/-- The link leads to the second release, and the row names the first one. -/
theorem publications_agree_crossed :
    Start twoBuilds ∧ ∃ t successes,
      exec (withGhost step note) (twoBuilds, []) crossed = some (t, successes) ∧
      t.requests.keys = [] ∧ t.db.site.buildHash = some "a" ∧ t.root.current = .link "b" ∧
      ¬ Agrees t.db t.root := by
  have hend : (exec step twoBuilds crossed).map (fun t =>
      (t.db.site.buildHash, t.root.current, t.requests.keys))
      = some (some "a", .link "b", []) := by decide +kernel
  obtain ⟨t, ht, hfacts⟩ := Option.map_eq_some_iff.mp hend
  simp only [Prod.mk.injEq] at hfacts
  obtain ⟨hactive, hcurrent, hfinished⟩ := hfacts
  obtain ⟨successes, hrun⟩ := exec_withGhost ht note []
  refine ⟨twoBuilds_start, t, successes, hrun, hfinished, hactive, hcurrent, fun hagrees => ?_⟩
  have hlink := hagrees.current
  rw [hcurrent, hactive] at hlink
  exact absurd (Entry.link.inj hlink) (by decide)

end MegaPanel.Publishing
