import MegaPanel.Provenance.Requests
import MegaPanel.Provenance.Snapshots

set_option autoImplicit false

/-! # The provenance of indexed pages

Everything between a promotion and the row of a page that it indexes is sound with respect to the
promotions stored (`Sound`): rows, builds and what requests in flight are about to write.
Promotions are never deleted, so nothing frozen goes stale. Two things are outside of it. The
flush of a publication joins columns of two projections when another one has committed in
between, and the draft of a promotion may have changed since it was checked. `index_provenance`
is about the runs in which neither happens.
-/

namespace MegaPanel.Provenance

open MegaPanel.Lib MegaPanel.Lib.Text MegaPanel.Candidate

/-! ## The property and the condition -/

/-- The draft of a promotion is applied with its content and has a current passing QA run. -/
def vetsRow (db : Db) (r : PromotionRow) : Bool :=
  (db.drafts r.draftId).any (vets · r.promotion.slug r.promotion.sourceHash)

/-- The history variable: the promotions that were created while their draft vetted them. -/
def note (w : World) (a : Action) (vetted : List Uuid) : List Uuid :=
  match a with
  | .commit rid _ =>
    match w.pending rid with
    | some (.writes rows _ _) =>
      vetted ++ (rows.filter (vetsRow w.db)).map (fun r => r.promotion.id)
    | _ => vetted
  | _ => vetted

/-- A published and indexed page has a promotion of its site and slug with the hash of its
manifest, which is also the hash in the row, and the promotion was vetted. -/
def rowProvenance (db : Db) (vetted : List Uuid) (row : SitePage) : Bool :=
  decide (row.publishState ≠ .published) || decide (row.indexState ≠ .indexed) ||
    row.manifest.any (fun page =>
      decide (row.indexSourceHash = some (draftManifestHash page)) &&
        db.promotions.any (fun r =>
          decide (r.promotion.siteId = db.siteId) && decide (r.promotion.slug = row.slug) &&
            decide (r.promotion.sourceHash = draftManifestHash page) &&
            decide (r.promotion.id ∈ vetted)))

def provenance (s : World × List Uuid) : Bool :=
  s.1.db.pages.rows.all (fun e => rowProvenance s.1.db s.2 e.2)

/-- The columns that say what is indexed are the same. -/
def sameIndex (row copy : SitePage) : Bool :=
  decide (row.indexState = copy.indexState) &&
    decide (row.indexSourceHash = copy.indexSourceHash) && decide (row.manifest = copy.manifest)

/-- Promotions are committed while their drafts still vet them, and a publication while the rows
it has read still say the same. -/
def undisturbed (w : World) (a : Action) : Bool :=
  match a with
  | .commit rid _ =>
    match w.pending rid with
    | some (.writes rows _ _) => rows.all (vetsRow w.db)
    | some (.projecting _ read) =>
      read.all (fun e => (w.db.pages.get e.1).any (sameIndex · e.2))
    | _ => true
  | _ => true

/-! ## What a step does -/

/-- What is known of a request in flight when it begins. -/
inductive Begun (db : Db) : Pending → Prop
  | promotion (row : PromotionRow) (hsite : row.promotion.siteId = db.siteId) :
      Begun db (.writes [row] none none)
  | candidate (rows : List PromotionRow) (manifest : Option SiteManifest)
      (batch : Option (IndexSchedule.ScheduleId × Nat))
      (hsite : ∀ r ∈ rows, r.promotion.siteId = db.siteId) :
      Begun db (.candidate rows manifest batch)
  | selected (p : Publication) (id : BuildId) (build : Build) (metadata : List Json)
      (bySlug : List (String × Json)) (hbuild : db.builds.get id = some build)
      (hmetadata : build.pageMetadata = some metadata)
      (hcheck : validatePageMetadataSnapshot (.list metadata)
        (some (build.manifestSnapshot.pages.map PageManifest.slug)) = .ok bySlug)
      (htargets : projection build.manifestSnapshot bySlug = .ok p.targets) :
      Begun db (.selected p)
  | stating (state : PagePublishState) (site : SiteRow) (read : List (String × SitePage)) :
      Begun db (.stating state site read)

inductive Move (w : World) : Action → World → Prop
  /-- Another route, or a schedule: nothing that is followed here changes. -/
  | outside (a : Action) (w' : World) (hsite : w'.db.siteId = w.db.siteId)
      (hpages : w'.db.pages = w.db.pages) (hpromotions : w'.db.promotions = w.db.promotions)
      (hbuilds : w'.db.builds = w.db.builds) (hpending : w'.pending = w.pending)
      (ha : ∀ rid id, a ≠ .commit rid id) : Move w a w'
  | begins (a : Action) (rid : RequestId) (p : Pending) (hp : Begun w.db p)
      (ha : ∀ rid id, a ≠ .commit rid id) : Move w a (w.setPending rid (some p))
  | freeze (rid : RequestId) (blockers : List String) (rows : List PromotionRow)
      (manifest : Option SiteManifest) (batch : Option (IndexSchedule.ScheduleId × Nat))
      (snapshot : Snapshot) (hp : w.pending rid = some (.candidate rows manifest batch))
      (hfreeze : freezeCandidateBuildInput w.db.siteId w.db.projectId manifest blockers
        ((w.db.promotions ++ rows).map (·.promotion)) (w.db.pages.rows.map (·.2)) = .ok snapshot) :
      Move w (.freeze rid blockers) (w.setPending rid (some (.writes rows (some snapshot) batch)))
  | commit (rid : RequestId) (buildId : BuildId) (p : Pending) (db : Db)
      (hp : w.pending rid = some p) (hdb : p.commit w.db buildId = some db) :
      Move w (.commit rid buildId) (w.close rid db)
  | move (id : BuildId) (target : IndexSchedule.BuildStatus) (build : Build)
      (hbuild : w.db.builds.get id = some build) :
      Move w (.move id target) { w with db := { w.db with
        builds := w.db.builds.set id { build with status := target } } }
  | finish (id : BuildId) (render : PageManifest → String) (htmlSitemap buildHash : String)
      (build build' : Build) (hbuild : w.db.builds.get id = some build)
      (hfinish : finishBuild w.db build render htmlSitemap buildHash = .ok build') :
      Move w (.finish id render htmlSitemap buildHash)
        { w with db := { w.db with builds := w.db.builds.set id build' } }
  | project (rid : RequestId) (p : Publication) (w' : World)
      (hp : w.pending rid = some (.selected p)) (hdb : w'.db = w.db)
      (hpending : w'.pending =
        (w.setPending rid (some (.projecting p w.db.pages.rows))).pending) :
      Move w (.project rid) w'
  | abort (rid : RequestId) : Move w (.abort rid) (w.close rid w.db)

theorem World.begin_eq_some {w w' : World} {rid : RequestId} {p : Option Pending}
    (h : w.begin rid p = some w') : ∃ q, p = some q ∧ w' = w.setPending rid (some q) := by
  simp only [World.begin] at h
  split at h
  · next q _ =>
    cases h
    exact ⟨q, rfl, rfl⟩
  · cases h

theorem createIndexPromotion_site {db : Db} {body : PromotionRequest} {draftId : PageDraft.DraftId}
    {id : Uuid} {now : DateTime} {row : PromotionRow}
    (h : createIndexPromotion db body draftId id now = .ok row) :
    row.promotion.siteId = db.siteId := by
  simp only [createIndexPromotion] at h
  split at h
  · cases h
  split at h
  · cases h
  split at h
  · cases h
  split at h
  · cases h
    rfl
  · cases h

theorem publicationOf_begun {db : Db} {id : BuildId} {build : Build} {buildHash : String}
    {firstPublishedAt : Option Time} {p : Publication} (hbuild : db.builds.get id = some build)
    (h : publicationOf db id build buildHash firstPublishedAt = .ok p) :
    Begun db (.selected p) := by
  simp only [publicationOf] at h
  split at h
  · cases h
  · next manifest bySlug hselected =>
    simp only [selectedBuildProjection] at hselected
    split at hselected
    · cases hselected
    split at hselected
    · cases hselected
    · next metadata hmetadata =>
      split at hselected
      · cases hselected
      · next hcheck =>
        cases hselected
        cases htargets : projection build.manifestSnapshot bySlug with
        | error raised =>
          rw [htargets] at h
          cases h
        | ok targets =>
          rw [htargets] at h
          cases h
          exact .selected _ id build metadata bySlug hbuild hmetadata hcheck htargets

theorem step_move {dumps : PageDraft.PageManifest → String} {w w' : World} {a : Action}
    (h : step dumps w a = some w') : Move w a w' := by
  cases a with
  | editManifest manifest | editDraft id draft =>
    cases h
    exact .outside _ _ rfl rfl rfl rfl rfl nofun
  | schedule id reason batchSize pages =>
    simp only [step] at h
    split at h
    · cases h
      exact .outside _ _ rfl rfl rfl rfl rfl nofun
    · cases h
  | promote rid body draftId id now =>
    obtain ⟨p, hp, rfl⟩ := World.begin_eq_some h
    obtain ⟨row, hrow, rfl⟩ := toOption_map_eq_some hp
    exact .begins _ rid _ (.promotion row (createIndexPromotion_site hrow)) nofun
  | sweep rid id batchNumber ids now =>
    simp only [step] at h
    split at h
    · next schedule manifest _ _ =>
      split at h
      · obtain ⟨p, hp, rfl⟩ := World.begin_eq_some h
        cases hp
        refine .begins _ rid _ (.candidate _ _ _ (fun r hr => ?_)) nofun
        obtain ⟨e, _, rfl⟩ := List.mem_map.mp hr
        rfl
      · cases h
    · cases h
  | materialize rid =>
    obtain ⟨p, hp, rfl⟩ := World.begin_eq_some h
    cases hp
    exact .begins _ rid _ (.candidate [] _ _ (fun r hr => by cases hr)) nofun
  | freeze rid authorBlockers =>
    simp only [step] at h
    split at h
    · next rows manifest batch hp =>
      split at h
      · next snapshot hfreeze =>
        cases h
        exact .freeze rid authorBlockers rows manifest batch snapshot hp hfreeze
      · cases h
    · cases h
  | commit rid buildId =>
    obtain ⟨p, hp, hcommit⟩ := Option.bind_eq_some_iff.mp h
    obtain ⟨db, hdb, rfl⟩ := Option.map_eq_some_iff.mp hcommit
    exact .commit rid buildId p db hp hdb
  | move id target =>
    simp only [step] at h
    split at h
    · next build hbuild =>
      split at h
      · cases h
        exact .move id target build hbuild
      · cases h
    · cases h
  | finish id render htmlSitemap buildHash =>
    simp only [step] at h
    split at h
    · next build hbuild =>
      split at h
      · split at h
        · next build' hfinish =>
          cases h
          exact .finish id render htmlSitemap buildHash build build' hbuild hfinish
        · cases h
      · cases h
    · cases h
  | publish rid id now =>
    simp only [step] at h
    split at h
    · next build hbuild =>
      split at h
      · obtain ⟨p, hp, rfl⟩ := World.begin_eq_some h
        obtain ⟨publication, hpublication, rfl⟩ := toOption_map_eq_some hp
        exact .begins _ rid _ (publicationOf_begun hbuild hpublication) nofun
      · cases h
    · cases h
  | rollback rid buildHash =>
    simp only [step] at h
    split_ifs at h
    split at h
    · next id build hmatches =>
      have hmem : (id, build) ∈ w.db.builds.rows := by
        have hmatch : (id, build) ∈ rollbackMatches w.db buildHash := by
          rw [hmatches]
          exact List.mem_singleton_self _
        exact (List.mem_filter.mp hmatch).1
      obtain ⟨p, hp, rfl⟩ := World.begin_eq_some h
      obtain ⟨publication, hpublication, rfl⟩ := toOption_map_eq_some hp
      exact .begins _ rid _ (publicationOf_begun (Table.mem_rows.mp hmem) hpublication) nofun
    · cases h
  | project rid =>
    simp only [step] at h
    split at h
    · next p hp =>
      split at h
      · cases h
        exact .project rid p _ hp rfl rfl
      · split at h
        · cases h
        · cases h
          exact .project rid p _ hp rfl rfl
    · cases h
  | setState rid state slugs =>
    obtain ⟨p, hp, rfl⟩ := World.begin_eq_some h
    cases hp
    exact .begins _ rid _ (.stating _ _ _) nofun
  | abort rid =>
    obtain ⟨p, _, rfl⟩ := Option.map_eq_some_iff.mp h
    exact .abort rid

/-! ## Soundness -/

/-- One of the promotions is for this site, slug and hash. -/
def StoredIn (siteId : SiteId) (promotions : List PromotionRow) (slug hash : String) : Prop :=
  ∃ r ∈ promotions, r.promotion.siteId = siteId ∧ r.promotion.slug = slug ∧
    r.promotion.sourceHash = hash

abbrev Db.Stored (db : Db) : String → String → Prop := StoredIn db.siteId db.promotions

theorem StoredIn.mono {siteId : SiteId} {promotions promotions' : List PromotionRow}
    (h : ∀ r ∈ promotions, r ∈ promotions') (slug hash : String)
    (hstored : StoredIn siteId promotions slug hash) : StoredIn siteId promotions' slug hash := by
  obtain ⟨r, hr, hr'⟩ := hstored
  exact ⟨r, h r hr, hr'⟩

def TargetsSound (S : String → String → Prop) (targets : List (String × SitePage)) : Prop :=
  ∀ e ∈ targets, e.2.slug = e.1 ∧ RowSound S e.2

def PagesSound (S : String → String → Prop) (pages : Table String SitePage) : Prop :=
  ∀ slug row, pages.get slug = some row → row.slug = slug ∧ RowSound S row

/-- What a request in flight is going to write is sound once its own promotions are stored. -/
def PendingSound (db : Db) : Pending → Prop
  | .candidate rows _ _ => ∀ r ∈ rows, r.promotion.siteId = db.siteId
  | .writes rows snapshot _ => (∀ r ∈ rows, r.promotion.siteId = db.siteId) ∧
      ∀ s, snapshot = some s → SnapshotSound (StoredIn db.siteId (db.promotions ++ rows)) s
  | .selected p => TargetsSound db.Stored p.targets
  | .projecting p _ => TargetsSound db.Stored p.targets
  | .stating .. => True

structure Sound (w : World) : Prop where
  pages : PagesSound w.db.Stored w.db.pages
  builds : ∀ id build, w.db.builds.get id = some build → BuildSound w.db.Stored build
  pending : ∀ rid p, w.pending rid = some p → PendingSound w.db p

theorem TargetsSound.mono {S S' : String → String → Prop}
    (hS : ∀ slug hash, S slug hash → S' slug hash) {targets : List (String × SitePage)}
    (h : TargetsSound S targets) : TargetsSound S' targets :=
  fun e he => ⟨(h e he).1, (h e he).2.mono hS⟩

theorem PagesSound.mono {S S' : String → String → Prop}
    (hS : ∀ slug hash, S slug hash → S' slug hash) {pages : Table String SitePage}
    (h : PagesSound S pages) : PagesSound S' pages :=
  fun slug row hrow => ⟨(h slug row hrow).1, (h slug row hrow).2.mono hS⟩

/-- More promotions do no harm. -/
theorem PendingSound.mono {db db' : Db} (hsite : db'.siteId = db.siteId)
    (hpromotions : ∀ r ∈ db.promotions, r ∈ db'.promotions) {p : Pending}
    (h : PendingSound db p) : PendingSound db' p := by
  have hS : ∀ slug hash, db.Stored slug hash → db'.Stored slug hash := by
    rw [Db.Stored, Db.Stored, hsite]
    exact StoredIn.mono hpromotions
  cases p with
  | candidate rows manifest batch => exact fun r hr => (h r hr).trans hsite.symm
  | writes rows snapshot batch =>
    refine ⟨fun r hr => (h.1 r hr).trans hsite.symm, fun s hs => (h.2 s hs).mono ?_⟩
    rw [hsite]
    refine StoredIn.mono (fun r hr => ?_)
    exact List.mem_append.mpr ((List.mem_append.mp hr).imp_left (hpromotions r))
  | selected p | projecting p read => exact TargetsSound.mono hS h
  | stating state site read => trivial

theorem Begun.sound {w : World} (h : Sound w) {p : Pending} (hp : Begun w.db p) :
    PendingSound w.db p := by
  cases hp with
  | promotion row hsite =>
    exact ⟨fun r hr => by rw [List.mem_singleton.mp hr]; exact hsite, nofun⟩
  | candidate rows manifest batch hsite => exact hsite
  | selected p id build metadata bySlug hbuild hmetadata hcheck htargets =>
    exact projection_sound ((h.builds id build hbuild).metadata metadata hmetadata) hcheck htargets
  | stating state site read => trivial

/-- **A flush over an undisturbed row** writes what the session holds. -/
theorem flushPage_sound {S : String → String → Prop} {copy current row : SitePage}
    (hsame : sameIndex row copy = true) (hslug : RowSound S { current with slug := row.slug }) :
    RowSound S (flushPage copy current row) := by
  simp only [sameIndex, Bool.and_eq_true, decide_eq_true_eq] at hsame
  obtain ⟨⟨hstate, hhash⟩, hmanifest⟩ := hsame
  intro hindexed
  simp only [flushPage, hstate, hhash, hmanifest, writeCol_stored] at hindexed ⊢
  exact hslug hindexed

theorem reconcile_sound {S : String → String → Prop} {read targets : List (String × SitePage)}
    {pages pages' : Table String SitePage} (h : reconcile read targets pages = some pages')
    (hpages : PagesSound S pages) (htargets : TargetsSound S targets)
    (hread : read.all (fun e => (pages.get e.1).any (sameIndex · e.2)) = true) :
    PagesSound S pages' := by
  simp only [reconcile] at h
  split at h
  · cases h
    intro slug row hrow
    rcases Table.get_insertAll_eq_some hrow with hold | hadded
    · rw [Table.get_mapRows] at hold
      obtain ⟨stored, hstored, rfl⟩ := Option.map_eq_some_iff.mp hold
      obtain ⟨hslug, hsound⟩ := hpages slug stored hstored
      cases hcopy : dictGet read slug with
      | none => exact ⟨hslug, hsound⟩
      | some copy =>
        have hsame := List.all_eq_true.mp hread _ (dictGet_eq_some hcopy)
        rw [hstored, Option.any_some] at hsame
        refine ⟨hslug, flushPage_sound hsame ?_⟩
        cases htarget : dictGet targets slug with
        | none => exact fun hindexed => by cases hindexed
        | some target =>
          obtain ⟨htargetSlug, htargetSound⟩ := htargets _ (dictGet_eq_some htarget)
          have hname : target.slug = stored.slug := htargetSlug.trans hslug.symm
          simp only [Option.getD_some, ← hname]
          exact htargetSound
    · exact htargets (slug, row) (List.mem_filter.mp hadded).1
  · cases h

/-- `publish_site` changes an index state to `noindex` or not at all. -/
theorem setState_sound {S : String → String → Prop} (state : PagePublishState)
    {copy row : SitePage} (h : RowSound S row) :
    RowSound S (flushPage copy (setPublishState state copy) row) := by
  intro hindexed
  simp only [flushPage, setPublishState, writeCol_clean] at hindexed ⊢
  refine h ?_
  by_cases hstate : state = .archived
  · rw [if_pos hstate, writeCol] at hindexed
    split at hindexed
    · exact hindexed
    · cases hindexed
  · rwa [if_neg hstate, writeCol_clean] at hindexed

theorem finishBuild_sound {S : String → String → Prop} {db : Db} {build build' : Build}
    {render : PageManifest → String} {htmlSitemap buildHash : String}
    (h : finishBuild db build render htmlSitemap buildHash = .ok build') (hb : BuildSound S build) :
    BuildSound S build' := by
  simp only [finishBuild] at h
  split at h
  · cases h
  split at h
  · cases h
  · next result hresult =>
    split at h
    · cases h
    · next metadata hmetadata =>
      cases h
      refine ⟨hb.input, fun metadata' hmetadata' => ?_⟩
      cases hmetadata'
      exact build_sound hresult hmetadata hb.input

/-- What is stored by the writes of promotions and a candidate. -/
theorem write_eq_some {db db' : Db} {rows : List PromotionRow} {snapshot : Option Snapshot}
    {batch : Option (IndexSchedule.ScheduleId × Nat)} {buildId : BuildId}
    (h : db.write rows snapshot batch buildId = some db') :
    db'.siteId = db.siteId ∧ db'.pages = db.pages ∧ db'.promotions = db.promotions ++ rows ∧
      ∀ id build, db'.builds.get id = some build →
        db.builds.get id = some build ∨ ∃ s, snapshot = some s ∧ build = queuedBuild s := by
  simp only [Db.write] at h
  split at h
  · have hframe : ∀ d : Db, (d.prepareBatch batch).siteId = d.siteId ∧
        (d.prepareBatch batch).pages = d.pages ∧
        (d.prepareBatch batch).promotions = d.promotions ∧
        (d.prepareBatch batch).builds = d.builds := by
      intro d
      cases batch <;> exact ⟨rfl, rfl, rfl, rfl⟩
    obtain ⟨hsite, hpages, hpromotions, hbuilds⟩ :=
      hframe { db with promotions := db.promotions ++ rows }
    simp only [Db.insertBuild] at h
    split at h
    · cases h
      exact ⟨hsite, hpages, hpromotions, fun id build hbuild => .inl (by rwa [hbuilds] at hbuild)⟩
    · next s =>
      split at h
      · cases h
      cases h
      refine ⟨hsite, hpages, hpromotions, fun id build hbuild => ?_⟩
      rw [hbuilds] at hbuild
      rcases Table.get_set_eq_some.mp hbuild with ⟨_, rfl⟩ | ⟨_, hold⟩
      · exact .inr ⟨s, rfl, rfl⟩
      · exact .inl hold
  · cases h

theorem setPending_cases {w : World} {rid rid' : RequestId} {p : Option Pending} {q : Pending}
    (h : (w.setPending rid p).pending rid' = some q) : p = some q ∨ w.pending rid' = some q := by
  simp only [World.setPending] at h
  by_cases heq : rid' = rid
  · rw [heq, Function.update_self] at h
    exact .inl h
  · rw [Function.update_of_ne heq] at h
    exact .inr h

/-- The requests that are still in flight after one of them is over. -/
theorem close_pending {w : World} {rid rid' : RequestId} {db : Db} {q : Pending}
    (h : (w.close rid db).pending rid' = some q) : w.pending rid' = some q :=
  (setPending_cases (w := w) (p := none) h).resolve_left nofun

/-- A commit keeps the site and the promotions, and leaves sound rows and builds. -/
theorem Sound.commit {w : World} (h : Sound w) {rid : RequestId} {buildId : BuildId} {p : Pending}
    {db : Db} (hp : w.pending rid = some p) (hdb : p.commit w.db buildId = some db)
    (hundisturbed : undisturbed w (.commit rid buildId) = true) : Sound (w.close rid db) := by
  have hpending := h.pending rid p hp
  simp only [undisturbed, hp] at hundisturbed
  cases p with
  | candidate rows manifest batch | selected publication => cases hdb
  | writes rows snapshot batch =>
    obtain ⟨hsite, hpages, hpromotions, hbuilds⟩ := write_eq_some hdb
    have hmore : ∀ r ∈ w.db.promotions, r ∈ db.promotions := fun r hr => by
      rw [hpromotions]
      exact List.mem_append_left _ hr
    have hS : ∀ slug hash, w.db.Stored slug hash → db.Stored slug hash := by
      rw [Db.Stored, Db.Stored, hsite]
      exact StoredIn.mono hmore
    refine ⟨?_, fun id build hbuild => ?_, fun rid' q hq => ?_⟩
    · show PagesSound db.Stored db.pages
      rw [hpages]
      exact h.pages.mono hS
    · rcases hbuilds id build hbuild with hold | ⟨s, hs, rfl⟩
      · exact (h.builds id build hold).mono hS
      · have hinput := hpending.2 s hs
        rw [← hpromotions, ← hsite] at hinput
        exact ⟨hinput, nofun⟩
    · exact (h.pending rid' q (close_pending hq)).mono hsite hmore
  | projecting publication read =>
    obtain ⟨pages, hpages, rfl⟩ := Option.map_eq_some_iff.mp hdb
    refine ⟨reconcile_sound hpages h.pages hpending hundisturbed, fun id build hbuild => ?_,
      fun rid' q hq => (h.pending rid' q (close_pending hq)).mono rfl (fun r hr => hr)⟩
    have hbuild' : (w.db.builds.modify publication.buildId _).get id = some build := hbuild
    rw [Table.get_modify] at hbuild'
    split at hbuild'
    · next heq =>
      obtain ⟨old, hold, rfl⟩ := Option.map_eq_some_iff.mp hbuild'
      exact ⟨(h.builds _ old hold).input, (h.builds _ old hold).metadata⟩
    · exact h.builds id build hbuild'
  | stating state site read =>
    cases hdb
    refine ⟨fun slug row hrow => ?_, h.builds,
      fun rid' q hq => (h.pending rid' q (close_pending hq)).mono rfl (fun r hr => hr)⟩
    obtain ⟨stored, hstored, rfl⟩ := Option.map_eq_some_iff.mp hrow
    obtain ⟨hslug, hsound⟩ := h.pages slug stored hstored
    dsimp only
    split
    · exact ⟨hslug, setState_sound state hsound⟩
    · exact ⟨hslug, hsound⟩

/-- **One step**: whatever is sound stays sound when the step is undisturbed. -/
theorem Sound.step {dumps : PageDraft.PageManifest → String} {w w' : World} {a : Action}
    (h : Sound w) (hundisturbed : undisturbed w a = true) (hstep : step dumps w a = some w') :
    Sound w' := by
  cases step_move hstep with
  | outside a w' hsite hpages hpromotions hbuilds hpending ha =>
    refine ⟨?_, fun id build hbuild => ?_, fun rid p hp => ?_⟩
    · rw [Db.Stored, hsite, hpages, hpromotions]
      exact h.pages
    · rw [Db.Stored, hsite, hpromotions]
      exact h.builds id build (hbuilds ▸ hbuild)
    · exact (h.pending rid p (hpending ▸ hp)).mono hsite (fun r hr => hpromotions ▸ hr)
  | begins a rid p hp ha =>
    refine ⟨h.pages, h.builds, fun rid' q hq => ?_⟩
    rcases setPending_cases hq with heq | hold
    · cases heq
      exact hp.sound h
    · exact h.pending rid' q hold
  | freeze rid blockers rows manifest batch snapshot hp hfreeze =>
    refine ⟨h.pages, h.builds, fun rid' q hq => ?_⟩
    rcases setPending_cases hq with heq | hold
    · cases heq
      have hrows := h.pending rid _ hp
      refine ⟨hrows, fun s hs => ?_⟩
      cases hs
      refine freeze_sound hfreeze (fun p hp hsite => ?_) (fun row hrow => ?_)
      · obtain ⟨r, hr, rfl⟩ := List.mem_map.mp hp
        exact ⟨r, hr, hsite, rfl, rfl⟩
      · obtain ⟨e, he, rfl⟩ := List.mem_map.mp hrow
        exact (h.pages e.1 e.2 (Table.mem_rows.mp he)).2.mono
          (StoredIn.mono (fun r hr => List.mem_append_left _ hr))
    · exact h.pending rid' q hold
  | commit rid buildId p db hp hdb => exact h.commit hp hdb hundisturbed
  | move id target build hbuild =>
    exact ⟨h.pages, Table.forall_set h.builds
      ⟨(h.builds id build hbuild).input, (h.builds id build hbuild).metadata⟩, h.pending⟩
  | finish id render htmlSitemap buildHash build build' hbuild hfinish =>
    exact ⟨h.pages,
      Table.forall_set h.builds (finishBuild_sound hfinish (h.builds id build hbuild)), h.pending⟩
  | project rid p w' hp hdb hpending =>
    refine ⟨hdb ▸ h.pages, fun id build hbuild => ?_, fun rid' q hq => ?_⟩
    · rw [hdb] at hbuild ⊢
      exact h.builds id build hbuild
    · rw [hpending] at hq
      rw [hdb]
      rcases setPending_cases hq with heq | hold
      · cases heq
        have htargets := h.pending rid _ hp
        exact htargets
      · exact h.pending rid' q hold
  | abort rid => exact ⟨h.pages, h.builds, fun rid' q hq => h.pending rid' q (close_pending hq)⟩

theorem Unindexed.sound {build : Build} (h : Unindexed build) (S : String → String → Prop) :
    BuildSound S build := by
  refine ⟨fun _ page hpage hindexed => absurd hindexed (h.input page hpage),
    fun metadata hmetadata bySlug hcheck page _ entries hentries hindexed => ?_⟩
  have hmem : Json.dict entries ∈ metadata :=
    checked_mem hcheck (dictGet_eq_some hentries)
  refine absurd ?_ (h.metadata metadata entries hmetadata hmem)
  rw [isIndexed] at hindexed
  cases hfield : field entries "index_state" <;> rw [hfield] at hindexed <;>
    simp_all [isText]

theorem Init.sound {w : World} (h : Init w) : Sound w where
  pages slug row hrow :=
    ⟨(h.pages slug row hrow).1, fun hindexed => absurd hindexed (h.pages slug row hrow).2⟩
  builds id build hbuild := (h.builds id build hbuild).sound _
  pending rid p hp := by
    rw [h.pending rid] at hp
    cases hp

/-! ## Vetted promotions -/

/-- Every stored promotion was created while its draft vetted it. -/
def AllVetted (s : World × List Uuid) : Prop :=
  ∀ r ∈ s.1.db.promotions, r.promotion.id ∈ s.2

theorem AllVetted.step {dumps : PageDraft.PageManifest → String} {s t : World × List Uuid}
    {a : Action} (h : AllVetted s) (hundisturbed : undisturbed s.1 a = true)
    (hstep : withGhost (Provenance.step dumps) note s a = some t) : AllVetted t := by
  obtain ⟨hst, hnote⟩ := withGhost_eq_some.mp hstep
  obtain ⟨w', vetted'⟩ := t
  dsimp only at hst hnote
  subst hnote
  have hkept : ∀ a, (∀ rid id, a ≠ .commit rid id) → note s.1 a s.2 = s.2 := by
    intro a ha
    cases a with
    | commit rid id => exact absurd rfl (ha rid id)
    | _ => rfl
  intro r hr
  cases step_move hst with
  | outside a w' hsite hpages hpromotions hbuilds hpending ha =>
    rw [hkept a ha]
    exact h r (hpromotions ▸ hr)
  | begins a rid p hp ha =>
    rw [hkept a ha]
    exact h r hr
  | commit rid buildId p db hp hdb =>
    simp only [undisturbed, hp] at hundisturbed
    simp only [note, hp]
    cases p with
    | candidate rows manifest batch => cases hdb
    | selected publication => cases hdb
    | writes rows snapshot batch =>
      obtain ⟨_, _, hpromotions, _⟩ := write_eq_some hdb
      have hr' : r ∈ s.1.db.promotions ++ rows := hpromotions ▸ hr
      rw [List.mem_append] at hr' ⊢
      refine hr'.imp (h r) (fun hrow => List.mem_map_of_mem (List.mem_filter.mpr ⟨hrow, ?_⟩))
      exact List.all_eq_true.mp hundisturbed r hrow
    | projecting publication read =>
      obtain ⟨pages, _, rfl⟩ := Option.map_eq_some_iff.mp hdb
      exact h r hr
    | stating state site read =>
      cases hdb
      exact h r hr
  | freeze rid blockers rows manifest batch snapshot hp hfreeze | move id target build hbuild
  | finish id render htmlSitemap buildHash build build' hbuild hfinish => exact h r hr
  | project rid p w' hp hdb hpending => exact h r (hdb ▸ hr)
  | abort rid => exact h r hr

/-! ## Every run -/

theorem provenance_of_sound {s : World × List Uuid} (h : Sound s.1) (hvetted : AllVetted s) :
    provenance s = true := by
  refine List.all_eq_true.mpr (fun e he => ?_)
  obtain ⟨hslug, hsound⟩ := h.pages e.1 e.2 (Table.mem_rows.mp he)
  rw [rowProvenance]
  by_cases hindexed : e.2.indexState = .indexed
  · obtain ⟨page, hpage, hhash, r, hr, hsite, hrslug, hrhash⟩ := hsound hindexed
    have hany : s.1.db.promotions.any (fun r =>
        decide (r.promotion.siteId = s.1.db.siteId) && decide (r.promotion.slug = e.2.slug) &&
          decide (r.promotion.sourceHash = draftManifestHash page) &&
          decide (r.promotion.id ∈ s.2)) = true :=
      List.any_eq_true.mpr ⟨r, hr, by simp [hsite, hrslug, hrhash, hvetted r hr]⟩
    rw [hpage, Option.any_some, hhash, hany]
    simp
  · simp [hindexed]

/-- **Index provenance.** In every run from a site without indexed pages in which promotions are
committed while their drafts vet them and publications while the rows they have read still say the
same, each published and indexed page has a vetted promotion of its slug with the hash of its
manifest, which is the hash in its row. -/
theorem index_provenance (dumps : PageDraft.PageManifest → String) {w : World} (h : Init w)
    {as : List Action} {t : World × List Uuid}
    (hundisturbed : Along (step dumps) (fun s a _ => undisturbed s a = true) w as)
    (hrun : exec (withGhost (step dumps) note) (w, []) as = some t) : provenance t = true := by
  have hinit : Sound (w, ([] : List Uuid)).1 ∧ AllVetted (w, []) :=
    ⟨h.sound, fun r hr => by
      have hr' : r ∈ w.db.promotions := hr
      rw [h.promotions] at hr'
      cases hr'⟩
  have hkept : ∀ (s : World × List Uuid) (a : Action) (u : World × List Uuid),
      (Sound s.1 ∧ AllVetted s) → undisturbed s.1 a = true →
        withGhost (step dumps) note s a = some u → Sound u.1 ∧ AllVetted u :=
    fun s a u hs hu hst => ⟨hs.1.step hu (withGhost_eq_some.mp hst).1, hs.2.step hu hst⟩
  obtain ⟨hsound, hvetted⟩ := exec_invariant (I := fun s => Sound s.1 ∧ AllVetted s)
    (G := fun s a _ => undisturbed s.1 a = true) hkept hinit
    ((along_withGhost note).mpr hundisturbed) hrun
  exact provenance_of_sound hsound hvetted

/-! ## A site with one page -/

def sitePage (json : String) : PageManifest := ⟨"/", .noindex, json⟩

def siteManifest (json : String) : SiteManifest := ⟨1, 1, "example.ru", [sitePage json]⟩

/-- A build of the page that is ready and indexes nothing. -/
def thinBuild (json : String) : Build where
  status := .ready
  inputSnapshot :=
    { manifest := siteManifest json
      indexStates := [("/", .noindex)]
      sourceHashes := [("/", draftManifestHash (sitePage json))]
      promotedAt := [("/", none)]
      indexPromotions := [] }
  buildHash := some json
  manifestSnapshot := siteManifest json
  pageMetadata := some [.dict
    [("slug", .str "/"), ("path", .str "/"), ("index_state", .str "noindex"),
      ("thin", .bool true), ("content_chars", .int 111),
      ("hash", .str (draftManifestHash (sitePage json))),
      ("source_hash", .str (draftManifestHash (sitePage json))), ("promoted_at", .null)]]
  firstPublishedAt := some 0

/-- An applied draft with a passing QA run. -/
def checkedDraft (json : String) : PageDraft.Draft where
  state := .applied
  pageManifest := some
    { slug := "/"
      titleTemplate := json
      h1Template := "Windows"
      metaDescriptionTemplate := "Windows repaired"
      uniqueCore := none
      blocks := []
      media := []
      blockMedia := []
      design := none
      author := none
      rest := "" }
  contentHash := some (draftManifestHash (sitePage json))
  qaRuns := [⟨some (draftManifestHash (sitePage json)), .pass, [], 0⟩]
  lastQaVerdict := some .pass
  qaOverride := none
  authorProfileRevisionId := none
  appliedBy := none
  failureMessage := none

/-- A site that has published the first of two builds twice. A page with a checked draft is not
built yet. -/
def thinSite : World where
  db :=
    { siteId := 1
      projectId := 1
      tenantId := 1
      manifest := some (siteManifest "c")
      site := ⟨some "a", some "a", .published⟩
      pages := Table.empty.set "/"
        ⟨"/", .published, .noindex, none, none, some (sitePage "a"), true, 111⟩
      drafts := fun _ => some (checkedDraft "c")
      promotions := []
      schedules := fun _ => none
      builds := (Table.empty.set 1 (thinBuild "a")).set 2 (thinBuild "b") }
  pending := fun _ => none
  siteLock := none

theorem thinBuild_unindexed (json : String) : Unindexed (thinBuild json) where
  input page hpage := by
    obtain rfl := List.mem_singleton.mp hpage
    exact (by decide : IndexState.noindex ≠ IndexState.indexed)
  metadata metadata entries hmetadata hentries := by
    cases hmetadata
    cases List.mem_singleton.mp hentries
    exact fun h => absurd (Json.str.inj h) (by decide)

theorem thinSite_init : Init thinSite where
  promotions := rfl
  pages slug row hrow := by
    have hrow' := Table.mem_rows.mpr hrow
    cases List.mem_singleton.mp hrow'
    exact ⟨rfl, by decide⟩
  builds id build hbuild := by
    have hbuild' := Table.mem_rows.mpr hbuild
    rcases List.mem_pair.mp hbuild' with h | h
    · cases h; exact thinBuild_unindexed _
    · cases h; exact thinBuild_unindexed _
  pending _ := rfl

/-- A document that is not thin. -/
def longChars : List Char :=
  "<head><link rel=\"canonical\" href=\"https://example.ru/\"></head><p>".toList
    ++ List.replicate 350 'a'

def longDocument : String := String.ofList longChars

theorem longDocument_toList : longDocument.toList = longChars := String.toList_ofList

theorem noon_date : Date.Valid ⟨2026, 5, 4⟩ := by decide

def noon : DateTime :=
  ⟨⟨2026, 5, 4⟩, ⟨12, 0, 0, 0⟩, some Offset.utc, noon_date, Clock.noon_valid⟩

/-- The page is promoted, and its build is started. -/
def promotedRun : List Action :=
  [.promote 1 ⟨"/", ⟨"Checked by the editor", by decide, by decide⟩, true⟩ 1 ⟨1, Uuid.one_lt⟩ noon,
    .commit 1 0, .materialize 1, .freeze 1 [], .commit 1 3, .move 3 .running]

def publishRun (id : BuildId) : List Action := [.publish 1 id 0, .project 1, .commit 1 0]

/-- The build of a home page that is indexed. -/
theorem build_indexed {html hash domain json slug : String} {site : SiteId} {tenant : TenantId}
    {contentChars : Nat} (hslug : stripSlashes slug = "") (hlong : isThin html = false)
    (hcanonical : contains html ("<link rel=\"canonical\" href=\"" ++ pageUrl domain slug ++ "\">")
      = true)
    (hrobots : contains html noindexMeta = false) (hlength : html.length = contentChars)
    (hhash : contentHash html = hash) :
    Candidate.build (fun _ => html) "" ⟨site, tenant, domain, [⟨slug, .noindex, json⟩]⟩
      [(slug, .indexed)] = .ok [⟨slug, "/", .indexed, false, contentChars, hash⟩] := by
  simp [Candidate.build, buildPage, hlong, hslug, validateReleaseArtifact, dictGet, hcanonical,
    hrobots, hlength, hhash]

/-- The report of the page with the long document. -/
def longReport : PageMeta :=
  ⟨"/", "/", .indexed, false, 415,
    "b388a3c7ad475bc125d2506596dc1b63c2d6e6b91e57c17ddeb9153ebfda3ca9"⟩

theorem build_longDocument :
    Candidate.build (fun _ => longDocument) "" (siteManifest "c") [("/", .indexed)]
      = .ok [longReport] := by
  have hslug : stripSlashes "/" = "" := by decide +kernel
  have hlong : isThin longDocument = false := by
    simp only [isThin, longDocument_toList]
    decide +kernel
  have hcanonical : contains longDocument
      ("<link rel=\"canonical\" href=\"" ++ pageUrl "example.ru" "/" ++ "\">") = true := by
    simp only [contains, longDocument_toList]
    decide +kernel
  have hrobots : contains longDocument noindexMeta = false := by
    simp only [contains, longDocument_toList]
    decide +kernel
  have hlength : longDocument.length = 415 := by
    rw [longDocument, String.length_ofList]
    decide +kernel
  have hhash : contentHash longDocument
      = "b388a3c7ad475bc125d2506596dc1b63c2d6e6b91e57c17ddeb9153ebfda3ca9" := by decide +kernel
  exact build_indexed hslug hlong hcanonical hrobots hlength hhash

/-- The end of a build with one page. -/
theorem finishBuild_onePage {db : Db} {build : Build} {render : PageManifest → String}
    {htmlSitemap buildHash sourceHash : String} {promotedAt : Option String} {report : PageMeta}
    (hscope : build.inputSnapshot.manifest.siteId = db.siteId ∧
      build.inputSnapshot.manifest.tenantId = db.tenantId)
    (hreport : Candidate.build render htmlSitemap build.inputSnapshot.manifest
      build.inputSnapshot.indexStates = .ok [report])
    (hsource : dictGet build.inputSnapshot.sourceHashes report.slug = some sourceHash)
    (hpromoted : dictGet build.inputSnapshot.promotedAt report.slug = some promotedAt) :
    finishBuild db build render htmlSitemap buildHash
      = .ok { build with
          status := .ready
          buildHash := some buildHash
          manifestSnapshot := build.inputSnapshot.manifest
          pageMetadata := some [entryJson report sourceHash promotedAt
            (dictGet build.inputSnapshot.indexPromotions report.slug)] } := by
  have hscope' : ¬ (build.inputSnapshot.manifest.siteId ≠ db.siteId ∨
      build.inputSnapshot.manifest.tenantId ≠ db.tenantId) := by
    rw [not_or, not_not, not_not]
    exact hscope
  simp only [finishBuild, if_neg hscope', hreport, pageMetadataFromCandidateResult, List.mapM_cons,
    List.mapM_nil, pageMetadataItem, hsource, hpromoted]
  rfl

theorem withGhost_finish {dumps : PageDraft.PageManifest → String} {s : World × List Uuid}
    {id : BuildId} {render : PageManifest → String} {htmlSitemap buildHash : String}
    {build build' : Build} (hbuild : s.1.db.builds.get id = some build)
    (hstatus : build.status = .running)
    (hfinish : finishBuild s.1.db build render htmlSitemap buildHash = .ok build') :
    withGhost (step dumps) note s (.finish id render htmlSitemap buildHash)
      = some ({ s.1 with db := { s.1.db with builds := s.1.db.builds.set id build' } }, s.2) := by
  simp only [withGhost, step, hbuild, if_pos hstatus, hfinish, Option.map_some]
  rfl

/-- The site when the build of the promoted page runs. -/
def promotedSite : World × List Uuid :=
  (exec (withGhost (step (·.titleTemplate)) note) (thinSite, []) promotedRun).get (by decide +kernel)

theorem exec_promotedRun :
    exec (withGhost (step (·.titleTemplate)) note) (thinSite, []) promotedRun = some promotedSite :=
  (Option.some_get _).symm

def runningBuild : Build := (promotedSite.1.db.builds.get 3).get (by decide +kernel)

/-- The site when the page is built. -/
def builtSite : World × List Uuid :=
  ({ promotedSite.1 with
      db := { promotedSite.1.db with
        builds := promotedSite.1.db.builds.set 3
          { runningBuild with
            status := .ready
            buildHash := some "c"
            manifestSnapshot := runningBuild.inputSnapshot.manifest
            pageMetadata := some [entryJson longReport (draftManifestHash (sitePage "c"))
              (some noon.isoformat)
              (dictGet runningBuild.inputSnapshot.indexPromotions longReport.slug)] } } },
    promotedSite.2)

/-- The end of the build of the promoted page. -/
def finishLong : Action := .finish 3 (fun _ => longDocument) "" "c"

theorem step_finishLong : withGhost (step (·.titleTemplate)) note promotedSite finishLong
    = some builtSite := by
  have hbuild : promotedSite.1.db.builds.get 3 = some runningBuild := (Option.some_get _).symm
  have hstatus : runningBuild.status = .running := by decide +kernel
  have hmanifest : runningBuild.inputSnapshot.manifest = siteManifest "c" := by decide +kernel
  have hstates : runningBuild.inputSnapshot.indexStates = [("/", .indexed)] := by decide +kernel
  have hscope : runningBuild.inputSnapshot.manifest.siteId = promotedSite.1.db.siteId ∧
      runningBuild.inputSnapshot.manifest.tenantId = promotedSite.1.db.tenantId := by
    decide +kernel
  have hsource : dictGet runningBuild.inputSnapshot.sourceHashes longReport.slug
      = some (draftManifestHash (sitePage "c")) := by decide +kernel
  have hpromoted : dictGet runningBuild.inputSnapshot.promotedAt longReport.slug
      = some (some noon.isoformat) := by decide +kernel
  have hreport : Candidate.build (fun _ => longDocument) "" runningBuild.inputSnapshot.manifest
      runningBuild.inputSnapshot.indexStates = .ok [longReport] := by
    rw [hmanifest, hstates]
    exact build_longDocument
  exact withGhost_finish hbuild hstatus (finishBuild_onePage hscope hreport hsource hpromoted)

theorem exec_finishLong (as : List Action) :
    exec (withGhost (step (·.titleTemplate)) note) (thinSite, []) (promotedRun ++ finishLong :: as)
      = exec (withGhost (step (·.titleTemplate)) note) builtSite as := by
  rw [exec_append, exec_promotedRun, Option.bind_some, exec_cons, step_finishLong, Option.bind_some]

/-- A page that is promoted, built and published is indexed, with its provenance. -/
theorem index_provenance_promoted : ∃ t : World × List Uuid,
    exec (withGhost (step (·.titleTemplate)) note) (thinSite, [])
      (promotedRun ++ finishLong :: publishRun 3) = some t ∧
    (t.1.db.pages.get "/").map (·.indexState) = some .indexed ∧ provenance t = true := by
  have hindexed : (exec (withGhost (step (·.titleTemplate)) note) builtSite
      (publishRun 3)).any (fun t =>
        decide ((t.1.db.pages.get "/").map (·.indexState) = some .indexed)) = true := by
    decide +kernel
  obtain ⟨t, ht, hstate⟩ := Option.any_eq_true _ _ |>.mp hindexed
  have hrun := (exec_finishLong (publishRun 3)).trans ht
  have hpromoted : Along (withGhost (step (·.titleTemplate)) note)
      (fun s a _ => undisturbed s.1 a = true) (thinSite, []) promotedRun := by decide +kernel
  have hpublished : Along (withGhost (step (·.titleTemplate)) note)
      (fun s a _ => undisturbed s.1 a = true) builtSite (publishRun 3) := by decide +kernel
  have hundisturbed : Along (withGhost (step (·.titleTemplate)) note)
      (fun s a _ => undisturbed s.1 a = true) (thinSite, [])
      (promotedRun ++ finishLong :: publishRun 3) := (along_append exec_promotedRun).mpr
    ⟨hpromoted, fun u hu => ⟨rfl, Option.some.inj (step_finishLong.symm.trans hu) ▸ hpublished⟩⟩
  exact ⟨t, hrun, of_decide_eq_true hstate, index_provenance (·.titleTemplate) thinSite_init
    ((along_withGhost note).mp hundisturbed) hrun⟩

/-- The first build is published once more. Before that request reads the row of the page, the
second build is published, and after it the third one with its promoted page. The row keeps the
index state and the hash of the third build and gets the manifest of the first. -/
theorem index_provenance_tornRow :
    (exec (withGhost (step (·.titleTemplate)) note) (thinSite, [])
      (promotedRun ++ finishLong ::
        (.publish 2 1 0 :: publishRun 2 ++ .project 2 :: publishRun 3 ++ [.commit 2 0]))).map
          provenance = some false := by
  rw [exec_finishLong]
  decide +kernel

end MegaPanel.Provenance
