import MegaPanel.Lib.Run
import MegaPanel.Provenance.Model

set_option autoImplicit false

/-! # Requests

The transactions that promote pages, freeze candidates, publish builds and roll back to them. A
request is cut where it reads: promotions and batches of a schedule are checked first, a
candidate is frozen next, and the rows are written at the commit. A publication selects its build
(`publish`, `rollback`), and after the release is active and Caddy has agreed it writes the site
row and reads the rows of the pages (`project`); the flush of these rows follows with the commit.

* `project` flushes the site row before it reads, so it waits for another publication that has
  written the row and not committed (`siteLock`). A publication that leaves the row as it was
  loaded does not write it and waits for nobody.
* Nothing locks the rows of the pages between the read and the flush, and the flush writes the
  columns that differ from what was read.
* The other routes may change the site's manifest and the drafts at any time. Which release is
  active on disk does not matter here; a publication that fails before its commit ends with
  `abort`.
-/

namespace MegaPanel.Provenance

open MegaPanel.Lib MegaPanel.Candidate
open MegaPanel.IndexSchedule (BuildStatus ScheduleId)
open MegaPanel.PageDraft (Draft DraftId)

abbrev RequestId := Nat

/-! ## What a request holds -/

/-- A publication or a rollback: the site row as it was loaded and as it is to be, the build with
its new `first_published_at`, and the rows for its pages. -/
structure Publication where
  loaded : SiteRow
  current : SiteRow
  buildId : BuildId
  firstPublishedAt : Option Time
  targets : List (String × SitePage)

inductive Pending
  /-- A candidate that is not frozen yet, with the promotions of its batch. -/
  | candidate (rows : List PromotionRow) (manifest : Option SiteManifest)
      (batch : Option (ScheduleId × Nat))
  /-- Promotions, and perhaps a frozen candidate. -/
  | writes (rows : List PromotionRow) (snapshot : Option Snapshot)
      (batch : Option (ScheduleId × Nat))
  | selected (publication : Publication)
  | projecting (publication : Publication) (read : List (String × SitePage))
  /-- `publish_site` -/
  | stating (state : PagePublishState) (site : SiteRow) (read : List (String × SitePage))

structure World where
  db : Db
  pending : RequestId → Option Pending
  siteLock : Option RequestId

inductive Action
  | editManifest (manifest : Option SiteManifest)
  | editDraft (id : DraftId) (draft : Draft)
  | schedule (id : ScheduleId) (reason : RequestReason) (batchSize : Nat)
      (pages : List (String × DraftId))
  | promote (rid : RequestId) (body : PromotionRequest) (draftId : DraftId) (id : Uuid)
      (now : DateTime)
  | sweep (rid : RequestId) (id : ScheduleId) (batchNumber : Nat) (ids : Nat → Uuid)
      (now : DateTime)
  | materialize (rid : RequestId)
  | freeze (rid : RequestId) (authorBlockers : List String)
  | commit (rid : RequestId) (buildId : BuildId)
  | move (id : BuildId) (target : BuildStatus)
  | finish (id : BuildId) (render : PageManifest → String) (htmlSitemap buildHash : String)
  | publish (rid : RequestId) (id : BuildId) (now : Time)
  | rollback (rid : RequestId) (buildHash : String)
  | project (rid : RequestId)
  | setState (rid : RequestId) (state : PagePublishState) (slugs : List String)
  | abort (rid : RequestId)

/-! ## Parts of the steps -/

def World.setPending (w : World) (rid : RequestId) (p : Option Pending) : World :=
  { w with pending := Function.update w.pending rid p }

/-- A request that is over holds nothing. -/
def World.close (w : World) (rid : RequestId) (db : Db) : World where
  db := db
  pending := Function.update w.pending rid none
  siteLock := if w.siteLock = some rid then none else w.siteLock

/-- Start, failure and retry of a build. -/
def moves : BuildStatus → BuildStatus → Bool
  | .queued, .running => true
  | .queued, .failed => true
  | .running, .failed => true
  | .failed, .queued => true
  | _, _ => false

/-- What publication and rollback make of the build they have selected. -/
def publicationOf (db : Db) (id : BuildId) (build : Build) (buildHash : String)
    (firstPublishedAt : Option Time) : Except Raised Publication :=
  match selectedBuildProjection db build with
  | .error raised => .error raised
  | .ok (manifest, bySlug) =>
    (projection manifest bySlug).map (fun targets =>
      { loaded := db.site
        current :=
          { buildHash := some buildHash
            previousBuildHash := db.site.buildHash
            publishState := .published }
        buildId := id
        firstPublishedAt := firstPublishedAt
        targets := targets })

/-- The query of `rollback_project_build`. -/
def rollbackMatches (db : Db) (buildHash : String) : List (BuildId × Build) :=
  db.builds.rows.filter (fun r => decide (r.2.buildHash = some buildHash)
    && decide (r.2.status = .ready) && r.2.firstPublishedAt.isSome)

def Db.prepareBatch (db : Db) : Option (ScheduleId × Nat) → Db
  | none => db
  | some (id, batchNumber) =>
    { db with
      schedules := Function.update db.schedules id
        ((db.schedules id).map (·.prepare batchNumber)) }

/-- Insert a candidate, if there is one; its identifier is new. -/
def Db.insertBuild (db : Db) (id : BuildId) : Option Snapshot → Option Db
  | none => some db
  | some snapshot =>
    match db.builds.get id with
    | some _ => none
    | none => some { db with builds := db.builds.set id (queuedBuild snapshot) }

/-- The writes of promotions and a candidate. A second promotion with one identifier violates
the primary key. -/
def Db.write (db : Db) (rows : List PromotionRow) (snapshot : Option Snapshot)
    (batch : Option (ScheduleId × Nat)) (buildId : BuildId) : Option Db :=
  if ((db.promotions ++ rows).map (·.promotion.id)).Nodup then
    ({ db with promotions := db.promotions ++ rows }.prepareBatch batch).insertBuild buildId snapshot
  else none

/-- The writes of a publication. -/
def Db.publish (db : Db) (p : Publication) (read : List (String × SitePage)) : Option Db :=
  (reconcile read p.targets db.pages).map (fun pages =>
    { db with
      site := SiteRow.flush p.loaded p.current db.site
      pages := pages
      builds := db.builds.modify p.buildId
        (fun build => { build with firstPublishedAt := p.firstPublishedAt }) })

/-- The writes of `publish_site`. -/
def Db.setState (db : Db) (state : PagePublishState) (site : SiteRow)
    (read : List (String × SitePage)) : Db :=
  { db with
    site := SiteRow.flush site { site with publishState := state } db.site
    pages := db.pages.mapRows (fun slug row =>
      match dictGet read slug with
      | some copy => flushPage copy (setPublishState state copy) row
      | none => row) }

/-- The transaction of a request that is through with its reads. -/
def Pending.commit (db : Db) (buildId : BuildId) : Pending → Option Db
  | .writes rows snapshot batch => db.write rows snapshot batch buildId
  | .projecting publication read => db.publish publication read
  | .stating state site read => some (db.setState state site read)
  | _ => none

/-- What a request reads first. -/
def World.begin (w : World) (rid : RequestId) (p : Option Pending) : Option World :=
  match w.pending rid, p with
  | none, some p => some (w.setPending rid (some p))
  | _, _ => none

/-! ## Steps -/

def step (dumps : PageDraft.PageManifest → String) (w : World) : Action → Option World
  | .editManifest manifest => some { w with db := { w.db with manifest := manifest } }
  | .editDraft id draft =>
    some { w with db := { w.db with drafts := Function.update w.db.drafts id (some draft) } }
  | .schedule id reason batchSize pages =>
    match w.db.schedules id, createIndexSchedule dumps w.db reason batchSize pages with
    | none, some schedule =>
      some { w with
        db := { w.db with schedules := Function.update w.db.schedules id (some schedule) } }
    | _, _ => none
  | .promote rid body draftId id now =>
    w.begin rid ((createIndexPromotion w.db body draftId id now).toOption.map
      (fun row => .writes [row] none none))
  | .sweep rid id batchNumber ids now =>
    match w.db.schedules id, w.db.manifest with
    | some schedule, some manifest =>
      let items := schedule.batch batchNumber
      if items ≠ [] ∧ items.all (itemCurrent dumps w.db manifest) = true then
        w.begin rid (some (.candidate (batchPromotions w.db schedule items ids now)
          (some manifest) (some (id, batchNumber))))
      else none
    | _, _ => none
  | .materialize rid => w.begin rid (some (.candidate [] w.db.manifest none))
  | .freeze rid authorBlockers =>
    match w.pending rid with
    | some (.candidate rows manifest batch) =>
      match freezeCandidateBuildInput w.db.siteId w.db.projectId manifest authorBlockers
        ((w.db.promotions ++ rows).map (·.promotion)) (w.db.pages.rows.map (·.2)) with
      | .ok snapshot => some (w.setPending rid (some (.writes rows (some snapshot) batch)))
      | .error _ => none
    | _ => none
  | .commit rid buildId =>
    (w.pending rid).bind (fun p => (p.commit w.db buildId).map (w.close rid))
  | .move id target =>
    match w.db.builds.get id with
    | some build =>
      if moves build.status target then
        some { w with db := { w.db with
          builds := w.db.builds.set id { build with status := target } } }
      else none
    | none => none
  | .finish id render htmlSitemap buildHash =>
    match w.db.builds.get id with
    | some build =>
      if build.status = .running then
        match finishBuild w.db build render htmlSitemap buildHash with
        | .ok build' =>
          some { w with db := { w.db with builds := w.db.builds.set id build' } }
        | .error _ => none
      else none
    | none => none
  | .publish rid id now =>
    match w.db.builds.get id with
    | some build =>
      match decide (build.status = .ready), build.buildHash with
      | true, some buildHash =>
        w.begin rid ((publicationOf w.db id build buildHash
          (some (build.firstPublishedAt.getD now))).toOption.map .selected)
      | _, _ => none
    | none => none
  | .rollback rid buildHash =>
    if w.db.site.buildHash = some buildHash then none
    else
      match rollbackMatches w.db buildHash with
      | [(id, build)] =>
        w.begin rid ((publicationOf w.db id build buildHash
          build.firstPublishedAt).toOption.map .selected)
      | _ => none
  | .project rid =>
    match w.pending rid with
    | some (.selected p) =>
      let w' := w.setPending rid (some (.projecting p w.db.pages.rows))
      if p.current = p.loaded then some w'
      else
        match w.siteLock with
        | some _ => none
        | none => some { w' with siteLock := some rid }
    | _ => none
  | .setState rid state slugs =>
    w.begin rid (some (.stating state w.db.site
      (w.db.pages.rows.filter (fun r => decide (r.1 ∈ slugs)))))
  | .abort rid => (w.pending rid).map (fun _ => w.close rid w.db)

/-- A build that indexes no page, whatever becomes of it. -/
structure Unindexed (build : Build) : Prop where
  input : ∀ page ∈ build.inputSnapshot.manifest.pages,
    (dictGet build.inputSnapshot.indexStates page.slug).getD page.indexState ≠ .indexed
  metadata : ∀ metadata entries, build.pageMetadata = some metadata → .dict entries ∈ metadata →
    field entries "index_state" ≠ .str "indexed"

/-- A site without promotions and without indexed pages, with nothing in progress. -/
structure Init (w : World) : Prop where
  promotions : w.db.promotions = []
  pages : ∀ slug row, w.db.pages.get slug = some row →
    row.slug = slug ∧ row.indexState ≠ .indexed
  builds : ∀ id build, w.db.builds.get id = some build → Unindexed build
  pending : ∀ rid, w.pending rid = none

end MegaPanel.Provenance
