import MegaPanel.Lib.Run
import MegaPanel.Release.Files

set_option autoImplicit false

/-! # Builds and their publication

The rows of one site and its builds, and the requests that publish a build or roll back to
an earlier one (`api/v1/projects.py`). A candidate build goes from `queued` over `running`
to `ready` or `failed`, and a failed one may be retried. Publishing and rolling back switch
the release on disk first, then ask Caddy, and write the rows only if Caddy agrees.
-/

namespace MegaPanel.Release

open MegaPanel.Lib

/-! ## Rows -/

/-- `site_builds.status` -/
inductive BuildStatus
  | queued
  | running
  | ready
  | failed
  deriving DecidableEq

/-- The project, the tenant and the site that a build belongs to. -/
structure Scope where
  projectId : Option ProjectId
  tenantId : TenantId
  siteId : SiteId
  deriving DecidableEq

structure Build where
  scope : Scope
  status : BuildStatus
  buildHash : Option Hash
  previousBuildHash : Option Hash
  firstPublishedAt : Option Time
  activatedAt : Option Time
  deriving DecidableEq

structure Site where
  buildHash : Option Hash
  previousBuildHash : Option Hash
  integrityHash : Option String
  published : Bool
  deriving DecidableEq

/-- One site: its scope, its row, the build table and its directory. -/
structure World where
  scope : Scope
  site : Site
  builds : Table BuildId Build
  root : Root

/-! ## Candidate builds -/

def World.setBuild (w : World) (id : BuildId) (build : Build) : World :=
  { w with builds := w.builds.set id build }

/-- Insert a candidate. -/
def queueBuild (w : World) (id : BuildId) : Option World :=
  match w.builds.get id with
  | some _ => none
  | none =>
    some (w.setBuild id
      { scope := w.scope
        status := .queued
        buildHash := none
        previousBuildHash := w.site.buildHash
        firstPublishedAt := none
        activatedAt := none })

/-- Change the status of a build in one of the states `sources`; all other columns stay. -/
def moveStatus (w : World) (id : BuildId) (sources : List BuildStatus) (target : BuildStatus) :
    Option World :=
  match w.builds.get id with
  | none => none
  | some build =>
    if build.status ∈ sources then some (w.setBuild id { build with status := target }) else none

/-- The last transaction of a successful `run_queued_candidate_build`. -/
def readyBuild (w : World) (id : BuildId) (buildHash : Hash) : Option World :=
  match w.builds.get id with
  | none => none
  | some build =>
    if build.status = .running then
      some (w.setBuild id { build with status := .ready, buildHash := some buildHash })
    else none

/-! ## Requests -/

/-- What a request meets: the error of the checks before the build is selected, if any, that
of the release gates after it, whether links can be made, Caddy's answer and the time. -/
structure RequestEnv where
  rejected : Option HttpError
  blocked : Option HttpError
  links : Bool
  caddyOk : Bool
  now : Time

inductive Failure
  | http (e : HttpError)
  /-- `scalar_one_or_none` found more than one row. -/
  | multipleResultsFound
  deriving DecidableEq

/-- What `publish_project_build` and `rollback_project_build` do with the selected build. -/
def switchRelease (env : RequestEnv) (w : World) (candidate : Hash) (unavailable : String)
    (commit : World → World) : World × Option Failure :=
  match activate env.links w.root candidate with
  | (root, false) => ({ w with root := root }, some (.http ⟨409, unavailable⟩))
  | (root, true) =>
    if env.caddyOk then (commit { w with root := root }, none)
    else
      match restoreActivation env.links root candidate w.site.buildHash with
      | (root, true) =>
        ({ w with root := root },
          some (.http ⟨503, if w.site.buildHash.isNone then
            "Caddy configuration failed; candidate activation reverted"
            else "Caddy configuration failed; previous release restored"⟩))
      | (root, false) =>
        ({ w with root := root },
          some (.http
            ⟨503, "Caddy configuration failed; release activation recovery is unverified"⟩))

/-- The site row after a switch to `buildHash`. -/
def Site.switched (site : Site) (buildHash : Hash) : Site :=
  { site with
    buildHash := some buildHash
    previousBuildHash := site.buildHash
    published := true }

/-- The rows that a publication writes. -/
def publishCommit (now : Time) (id : BuildId) (build : Build) (buildHash : Hash) (w : World) :
    World :=
  { w with
    site := w.site.switched buildHash
    builds := w.builds.set id
      { build with
        firstPublishedAt := some (build.firstPublishedAt.getD now)
        activatedAt := some now } }

/-- The checks of `publish_project_build`, and the build they select. -/
def publishChecks (env : RequestEnv) (w : World) (id : BuildId) :
    Except Failure (Build × Hash) :=
  match env.rejected with
  | some e => .error (.http e)
  | none =>
    match w.builds.get id with
    | none => .error (.http ⟨409, "Select a ready candidate build"⟩)
    | some build =>
      if build.scope ≠ w.scope ∨ build.status ≠ .ready then
        .error (.http ⟨409, "Select a ready candidate build"⟩)
      else
        match build.buildHash, env.blocked with
        | none, _ => .error (.http ⟨409, "Select a ready candidate build"⟩)
        | some _, some e => .error (.http e)
        | some buildHash, none => .ok (build, buildHash)

/-- `publish_project_build` -/
def publishProjectBuild (env : RequestEnv) (w : World) (id : BuildId) :
    World × Option Failure :=
  match publishChecks env w id with
  | .error e => (w, some e)
  | .ok (build, buildHash) =>
    switchRelease env w buildHash "Candidate release is unavailable"
      (publishCommit env.now id build buildHash)

/-- The rows that the query of `rollback_project_build` selects. -/
def rollbackMatches (w : World) (buildHash : Hash) : List (BuildId × Build) :=
  w.builds.rows.filter (fun r =>
    r.2.scope = w.scope && r.2.buildHash = some buildHash && r.2.status = .ready
      && r.2.firstPublishedAt.isSome)

/-- The rows that a rollback writes. -/
def rollbackCommit (now : Time) (id : BuildId) (target : Build) (buildHash : Hash) (w : World) :
    World :=
  { w with
    site := w.site.switched buildHash
    builds := w.builds.set id { target with activatedAt := some now } }

/-- The checks of `rollback_project_build`, and the row they select. -/
def rollbackChecks (env : RequestEnv) (w : World) (buildHash : Hash) :
    Except Failure (BuildId × Build) :=
  match env.rejected with
  | some e => .error (.http e)
  | none =>
    if w.site.buildHash = some buildHash then
      .error (.http ⟨409, "Selected build is already active"⟩)
    else
      match rollbackMatches w buildHash, env.blocked with
      | [], _ => .error (.http ⟨404, "Previously published immutable build hash not found"⟩)
      | [_], some e => .error (.http e)
      | [target], none => .ok target
      | _ :: _ :: _, _ => .error .multipleResultsFound

/-- `rollback_project_build` -/
def rollbackProjectBuild (env : RequestEnv) (w : World) (buildHash : Hash) :
    World × Option Failure :=
  match rollbackChecks env w buildHash with
  | .error e => (w, some e)
  | .ok (id, target) =>
    switchRelease env w buildHash "Rollback release is unavailable"
      (rollbackCommit env.now id target buildHash)

/-! ## Histories -/

/-- A step of a site's history. `finish` is a build that has come to its end: its release is
placed, and the row is ready. -/
inductive Action
  | queue (id : BuildId)
  | start (id : BuildId)
  | finish (id : BuildId) (buildHash : Hash) (files : List (String × List UInt8)) (now : Time)
  | fail (id : BuildId)
  | retry (id : BuildId)
  | publish (env : RequestEnv) (id : BuildId)
  | rollback (env : RequestEnv) (buildHash : Hash)

def step (w : World) : Action → Option World
  | .queue id => queueBuild w id
  | .start id => moveStatus w id [.queued] .running
  | .finish id buildHash files now =>
    readyBuild { w with root := placeRelease w.root buildHash (builtDir buildHash files now) }
      id buildHash
  | .fail id => moveStatus w id [.queued, .running] .failed
  | .retry id => moveStatus w id [.failed] .queued
  | .publish env id => some (publishProjectBuild env w id).1
  | .rollback env buildHash => some (rollbackProjectBuild env w buildHash).1

/-- A site that has never been published. -/
structure World.Unpublished (w : World) : Prop where
  active : w.site.buildHash = none
  previous : w.site.previousBuildHash = none
  noCurrent : w.root.current = .absent
  noPrevious : w.root.previous = .absent
  unpublished : ∀ id build, w.builds.get id = some build → build.firstPublishedAt = none

/-! ## A site to run histories on -/

def siteScope : Scope := { projectId := some 1, tenantId := 1, siteId := 1 }

/-- A site without builds. -/
def newSite : World where
  scope := siteScope
  site := { buildHash := none, previousBuildHash := none, integrityHash := none, published := false }
  builds := Table.empty
  root := { releases := Table.empty, current := .absent, previous := .absent }

theorem newSite_unpublished : newSite.Unpublished where
  active := rfl
  previous := rfl
  noCurrent := rfl
  noPrevious := rfl
  unpublished := fun _ _ h => by cases h

/-- A request that passes its checks, in symlink mode. -/
def passing (caddyOk : Bool) : RequestEnv where
  rejected := none
  blocked := none
  links := true
  caddyOk := caddyOk
  now := 0

/-- A build with one file, from the queue to the end. -/
def buildActions (id : BuildId) (buildHash : Hash) : List Action :=
  [.queue id, .start id, .finish id buildHash [("index.html", buildHash.toUTF8.data.toList)] 0]

end MegaPanel.Release
