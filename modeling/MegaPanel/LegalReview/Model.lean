import MegaPanel.Basic
import MegaPanel.IndexSchedule.Model
import MegaPanel.Lib.DateTime
import MegaPanel.Lib.JsonValue
import MegaPanel.Lib.Run
import MegaPanel.Lib.Sha256
import MegaPanel.Lib.Table
import MegaPanel.Lib.UnitOfWork

set_option autoImplicit false

/-! # Legal reviews of the builds of one site

`review_project_build_legal`, `publish_project_build` and `rollback_project_build`
(`api/v1/projects.py`) as they run beside each other. A review reads its build, and writes the
column `legal_review` when it commits. A publication or rollback reads its build, evaluates the gates
(`services/release_gate.py`), switches the links, asks Caddy, and writes the site and the times of the
build when it commits. Nothing is locked between the read and the commit.

A request that a gate refuses leaves no trace and is not a step; the gates that do not concern the
legal review are not modelled. A commit stands for the flush before it as well, since both writers
of a build update its row and the second one waits for the first. The manifest of a ready build has
been validated, so its `legal` is a dictionary.
-/

namespace MegaPanel.LegalReview

open MegaPanel.Lib
open MegaPanel.IndexSchedule (BuildStatus)

abbrev RequestId := Nat

/-! ## Rows -/

inductive Decision
  | approved
  | rejected
  deriving DecidableEq

def Decision.text : Decision → String
  | .approved => "approved"
  | .rejected => "rejected"

/-- `site_builds.legal_review` -/
structure Review where
  state : String
  legalSnapshotHash : String
  evidenceRef : String
  reason : Option String
  replacementGuidance : Option String
  reviewedAt : String
  reviewedBy : UserId
  deriving DecidableEq

/-- `SiteBuild`; `legal` is that of the manifest snapshot. -/
structure Build where
  status : BuildStatus
  buildHash : Option String
  legal : List (String × Json)
  legalReview : Option Review
  firstPublishedAt : Option Time
  activatedAt : Option Time
  deriving DecidableEq

structure SiteRow where
  buildHash : Option String
  previousBuildHash : Option String
  deriving DecidableEq

/-! ## The review gate -/

def optionalText : Option String → Json
  | some text => .str text
  | none => .null

/-- `legal_snapshot_hash` -/
def legalSnapshotHash (build : Build) : String :=
  Sha256.sha256Hex (Json.dumpsCompact
    (.dict [("build_hash", optionalText build.buildHash), ("legal", .dict build.legal)]))

/-- Whether `legal_review_status` has no blockers. -/
def legalReviewPasses (build : Build) : Bool :=
  match build.legalReview with
  | none => false
  | some review =>
    decide (review.state = "approved")
      && decide (review.legalSnapshotHash = legalSnapshotHash build)
      && decide (Text.strip review.evidenceRef ≠ "") && decide (review.reviewedAt ≠ "")

/-! ## Requests -/

/-- `BuildLegalReviewIn` -/
structure BuildLegalReviewIn where
  decision : Decision
  evidenceRef : String
  reason : Option String
  replacementGuidance : Option String

def inBounds (low high : Nat) (text : String) : Bool :=
  decide (low ≤ text.length) && decide (text.length ≤ high)

/-- The bounds of the fields, and `require_rejection_context`. -/
def BuildLegalReviewIn.isValid (body : BuildLegalReviewIn) : Bool :=
  inBounds 3 255 body.evidenceRef && body.reason.all (inBounds 3 2000)
    && body.replacementGuidance.all (inBounds 3 2000)
    && (decide (body.decision ≠ .rejected)
      || (decide (Text.strip (body.reason.getD "") ≠ "")
        && decide (Text.strip (body.replacementGuidance.getD "") ≠ "")))

/-- What `review_project_build_legal` writes. -/
def BuildLegalReviewIn.review (body : BuildLegalReviewIn) (build : Build) (user : UserId)
    (now : DateTime) : Review where
  state := body.decision.text
  legalSnapshotHash := legalSnapshotHash build
  evidenceRef := Text.strip body.evidenceRef
  reason := body.reason.map Text.strip
  replacementGuidance := body.replacementGuidance.map Text.strip
  reviewedAt := now.isoformat
  reviewedBy := user

/-- The part of a publication that has been reached. -/
inductive Phase
  /-- The gates have been passed. -/
  | selected
  /-- The links have been switched, and Caddy is asked. -/
  | activated
  /-- Caddy agrees. -/
  | agreed
  deriving DecidableEq

/-- A publication or rollback, with the rows as it has read them and the times it is to write. -/
structure Publication where
  id : BuildId
  build : Build
  site : SiteRow
  firstPublishedAt : Option Time

/-- A request between its read and its end. -/
inductive Session
  | reviewing (id : BuildId) (build : Build) (review : Review)
  | publishing (p : Publication) (phase : Phase)

structure World where
  builds : Table BuildId Build
  site : SiteRow
  requests : Table RequestId Session

def World.setSession (w : World) (rid : RequestId) (s : Session) : World :=
  { w with requests := w.requests.set rid s }

def World.endSession (w : World) (rid : RequestId) : World :=
  { w with requests := w.requests.erase rid }

/-! ## Steps -/

inductive Action
  /-- A candidate is built. -/
  | build (id : BuildId) (buildHash : String) (legal : List (String × Json))
  | review (rid : RequestId) (id : BuildId) (body : BuildLegalReviewIn) (user : UserId)
      (now : DateTime)
  | commitReview (rid : RequestId)
  | publish (rid : RequestId) (id : BuildId) (now : Time)
  | rollback (rid : RequestId) (buildHash : String)
  | activate (rid : RequestId) (ok : Bool)
  | caddy (rid : RequestId) (ok : Bool)
  | commit (rid : RequestId) (now : Time)

/-- The builds that match a rollback. -/
def rollbackMatches (w : World) (hash : String) : List (BuildId × Build) :=
  w.builds.rows.filter (fun r =>
    r.2.buildHash = some hash && r.2.status = .ready && r.2.firstPublishedAt.isSome)

/-- A publication or rollback that has read its build evaluates the gate. -/
def World.begin (w : World) (rid : RequestId) (id : BuildId) (build : Build)
    (firstPublishedAt : Option Time) : Option World :=
  if w.requests.get rid = none ∧ legalReviewPasses build = true then
    some (w.setSession rid (.publishing ⟨id, build, w.site, firstPublishedAt⟩ .selected))
  else none

/-- The row of a build after the commit of a review. -/
def Build.flushReview (loaded : Build) (review : Review) (stored : Build) : Build :=
  { stored with legalReview := writeCol loaded.legalReview (some review) stored.legalReview }

/-- The row of a build after the commit of a publication. -/
def Publication.flushBuild (p : Publication) (now : Time) (stored : Build) : Build := { stored with
  firstPublishedAt := writeCol p.build.firstPublishedAt p.firstPublishedAt stored.firstPublishedAt
  activatedAt := writeCol p.build.activatedAt (some now) stored.activatedAt }

/-- The row of the site after the commit of a publication. -/
def Publication.flushSite (p : Publication) (stored : SiteRow) : SiteRow where
  buildHash := writeCol p.site.buildHash p.build.buildHash stored.buildHash
  previousBuildHash := writeCol p.site.previousBuildHash p.site.buildHash stored.previousBuildHash

def step (w : World) : Action → Option World
  | .build id hash legal =>
    if w.builds.get id = none then
      some { w with builds := w.builds.set id ⟨.ready, some hash, legal, none, none, none⟩ }
    else none
  | .review rid id body user now =>
    if w.requests.get rid = none ∧ body.isValid = true then
      (w.builds.get id).bind (fun build =>
        if build.status = .ready then
          some (w.setSession rid (.reviewing id build (body.review build user now)))
        else none)
    else none
  | .commitReview rid =>
    match w.requests.get rid with
    | some (.reviewing id loaded review) =>
      some (World.endSession
        { w with builds := w.builds.modify id (loaded.flushReview review) } rid)
    | _ => none
  | .publish rid id now =>
    (w.builds.get id).bind (fun build =>
      if build.status = .ready ∧ build.buildHash.any (fun hash => hash ≠ "") = true then
        w.begin rid id build (some (build.firstPublishedAt.getD now))
      else none)
  | .rollback rid hash =>
    if w.site.buildHash = some hash then none
    else
      match rollbackMatches w hash with
      | [(id, build)] => w.begin rid id build build.firstPublishedAt
      | _ => none
  | .activate rid ok =>
    match w.requests.get rid with
    | some (.publishing p .selected) =>
      some (if ok then w.setSession rid (.publishing p .activated) else w.endSession rid)
    | _ => none
  | .caddy rid ok =>
    match w.requests.get rid with
    | some (.publishing p .activated) =>
      some (if ok then w.setSession rid (.publishing p .agreed) else w.endSession rid)
    | _ => none
  | .commit rid now =>
    match w.requests.get rid with
    | some (.publishing p .agreed) =>
      some (World.endSession { w with
        builds := w.builds.modify p.id (p.flushBuild now)
        site := p.flushSite w.site } rid)
    | _ => none

end MegaPanel.LegalReview
