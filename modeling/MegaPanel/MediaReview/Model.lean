import MegaPanel.MediaReview.Assets
import MegaPanel.IndexSchedule.Model

set_option autoImplicit false

/-! # Media from the upload to the publication

The requests that bring media into a manifest, decide about it, build it and publish it
(`api/v1/media.py`, `api/v1/projects.py`), one after another. A request that is refused leaves
everything as it is and is not a step. The build job takes one step from `queued` to its end.

The checks that have nothing to do with media are inputs: what `apply_page_draft` reads of the plan,
the facts and the design, and the blockers of the other release gates. The links and Caddy agree.
The revisions of an author profile are written by routes that are not modelled, in any way.
-/

namespace MegaPanel.MediaReview

open MegaPanel.Lib
open MegaPanel.SiteManifest (QaOverride)
open MegaPanel.PageDraft (AssetId RevisionId DraftId PageMedia PageManifest Author Draft Edit Origin
  QaResult ApplyContext newDraft)
open MegaPanel.IndexSchedule (BuildStatus)

/-! ## Rows -/

/-- `AuthorProfileRevision`: `intact` says whether the stored hash is that of the profile, and
`rest` is the JSON text of the profile. -/
structure AuthorRevision where
  projectId : ProjectId
  tenantId : TenantId
  approved : Bool
  intact : Bool
  name : String
  portraitAssetId : AssetId
  rest : String

structure Site where
  manifest : Manifest
  buildHash : Option String
  previousBuildHash : Option String

/-- The project with its site; the branding is `none` when the stored one does not validate. -/
structure Project where
  tenantId : TenantId
  branding : Option Branding
  version : Nat
  site : Option Site

/-- `SiteBuild` -/
structure Build where
  projectId : ProjectId
  tenantId : TenantId
  status : BuildStatus
  /-- `input_snapshot["manifest"]` -/
  inputManifest : Manifest
  manifestSnapshot : Manifest
  buildHash : Option String
  firstPublishedAt : Option Time

structure Db where
  assets : Table AssetId MediaAsset
  /-- The latest first. -/
  decisions : List ReviewDecision
  authors : Table RevisionId AuthorRevision
  projects : Table ProjectId Project
  drafts : Table DraftId (ProjectId × Draft)
  builds : Table BuildId Build

/-! ## Uploads and decisions -/

/-- The accepted form of `upload_media`, and the bytes of the stored file. -/
structure Upload where
  tenantId : TenantId
  path : String
  bytes : List UInt8
  licenseExpiresAt : Option Date

/-- `upload_media` -/
def uploadMedia (today : Date) (form : Upload) : Except HttpError MediaAsset :=
  if form.licenseExpiresAt.any (fun date => date.ordinal < today.ordinal) then
    .error ⟨422, "License has expired"⟩
  else
    .ok
      { tenantId := form.tenantId
        path := form.path
        contentType := "image/webp"
        provenance :=
          { kind := "manual_upload"
            rightsConfirmed := true
            licenseExpiresAt := form.licenseExpiresAt.map (fun d => String.ofList d.isoformat) }
        storedSha256 := Sha256.hexdigest form.bytes }

/-- `MediaReviewDecisionIn` -/
structure MediaReviewDecisionIn where
  decision : Decision
  reason : Option String
  manualReplacementGuidance : Option String

/-- `validate_rejection` -/
def MediaReviewDecisionIn.isValid (body : MediaReviewDecisionIn) : Bool :=
  body.decision = .approved ||
    (Text.strip (body.reason.getD "") ≠ "" &&
      Text.strip (body.manualReplacementGuidance.getD "") ≠ "")

/-- `create_media_review_decision` -/
def createMediaReviewDecision (db : Db) (assetId : AssetId) (body : MediaReviewDecisionIn) :
    Except HttpError ReviewDecision :=
  match db.assets.get assetId with
  | none => .error ⟨404, "Media not found"⟩
  | some asset =>
    if !body.isValid then .error ⟨422, "Rejected media requires a reason"⟩
    else if Sha256.isSha256 asset.storedSha256 then
      .ok
        { tenantId := asset.tenantId
          assetId := assetId
          storedSha256 := asset.storedSha256
          decision := body.decision
          reason := body.reason.map Text.strip
          manualReplacementGuidance := body.manualReplacementGuidance.map Text.strip }
    else .error ⟨409, "Media asset hash is unavailable"⟩

/-! ## Branding -/

/-- `_verified_branding_reference` -/
def verifiedBrandingReference (db : Db) (env : Env) (tenantId : TenantId) (assetId : AssetId)
    (expectedSha256 : String) : Except HttpError Unit :=
  match findAsset db.assets tenantId assetId with
  | none => .error ⟨422, "Branding media asset is unavailable"⟩
  | some asset =>
    if asset.contentType ≠ "image/webp" then
      .error ⟨422, "Branding media must be a WebP image"⟩
    else
      let checked : Except Blocker Unit := do
        let storedSha256 ← verifiedMediaHash env.today asset
        let _ ← assetPath env asset
        if storedSha256 ≠ expectedSha256 then
          throw (.valueError "Branding media asset changed")
        ensureMediaReviewAllowsUse db.decisions tenantId assetId storedSha256
      match checked with
      | .ok _ => .ok ()
      | .error e => .error ⟨422, "Branding media blocker: " ++ e.detail⟩

/-- `ProjectBrandingUpdate`: a field is `none` when the body does not set it. -/
structure BrandingUpdate where
  version : Nat
  logo : Option (Option PageMedia)
  favicon : Option (Option Favicon)

/-- `branding if branding.logo or branding.favicon else None` -/
def Branding.shown (branding : Branding) : Option Branding :=
  if branding.logo.isSome || branding.favicon.isSome then some branding else none

/-- `update_project_branding` -/
def updateProjectBranding (db : Db) (env : Env) (project : Project) (body : BrandingUpdate) :
    Except HttpError Project :=
  if body.version ≠ project.version then .error ⟨409, "Project changed; reload it"⟩
  else if body.logo.isNone && body.favicon.isNone then
    .error ⟨422, "Select a branding field to update"⟩
  else
    match project.branding with
    | none => .error ⟨409, "Project branding is invalid"⟩
    | some current => do
      let branding : Branding :=
        ⟨body.logo.getD current.logo, body.favicon.getD current.favicon⟩
      if let some (some logo) := body.logo then
        verifiedBrandingReference db env project.tenantId logo.assetId logo.storedSha256
      if let some (some favicon) := body.favicon then
        verifiedBrandingReference db env project.tenantId favicon.assetId favicon.storedSha256
      return { project with
        branding := some branding
        site := project.site.map (fun site =>
          { site with manifest := { site.manifest with branding := branding.shown } })
        version := project.version + 1 }

/-! ## Drafts -/

/-- `_approved_author_snapshot_or_409` -/
def approvedAuthorSnapshot (db : Db) (env : Env) (projectId : ProjectId) (tenantId : TenantId)
    (revisionId : RevisionId) : Except HttpError Author :=
  match (db.authors.get revisionId).filter (fun revision =>
      revision.tenantId = tenantId && revision.projectId = projectId && revision.approved) with
  | none => .error ⟨409, "Approved author profile revision is unavailable"⟩
  | some revision =>
    if !revision.intact then .error ⟨409, "Author profile integrity check failed"⟩
    else
      match findAsset db.assets tenantId revision.portraitAssetId with
      | none => .error ⟨409, "Author portrait is unavailable"⟩
      | some asset =>
        let checked : Except Blocker String := do
          let _ ← assetPath env asset
          let storedSha256 ← verifiedMediaHash env.today asset
          ensureMediaReviewAllowsUse db.decisions tenantId revision.portraitAssetId storedSha256
          return storedSha256
        match checked with
        | .ok storedSha256 =>
          .ok ⟨revisionId,
            ⟨revision.portraitAssetId, storedSha256, "Портрет " ++ revision.name⟩,
            revision.rest⟩
        | .error e => .error ⟨409, "Author portrait blocker: " ++ e.detail⟩

/-- What `attach_draft_media` and `attach_draft_block_media` find under the id of an asset. -/
def attachableMedia (db : Db) (env : Env) (tenantId : TenantId) (assetId : AssetId) :
    Except HttpError (AssetId × String) :=
  match findAsset db.assets tenantId assetId with
  | none => .error ⟨404, "Media asset not found"⟩
  | some asset =>
    let checked : Except Blocker String := do
      let _ ← assetPath env asset
      let storedSha256 ← verifiedMediaHash env.today asset
      ensureMediaReviewAllowsUse db.decisions tenantId assetId storedSha256
      return storedSha256
    match checked with
    | .ok storedSha256 => .ok (assetId, storedSha256)
    | .error (.http e) => .error e
    | .error (.valueError text) => .error ⟨422, text⟩

/-- The bodies of the three routes that attach something to a draft. -/
inductive Attachment
  | media (assetId : AssetId) (alt : String)
  | blockMedia (blockId : String) (assetId : AssetId) (alt : String)
  | author (revisionId : RevisionId)

def Attachment.edit (db : Db) (env : Env) (projectId : ProjectId) (tenantId : TenantId) :
    Attachment → Edit
  | .media assetId alt => .media (attachableMedia db env tenantId assetId) alt
  | .blockMedia blockId assetId alt =>
    .blockMedia blockId (attachableMedia db env tenantId assetId) alt
  | .author revisionId =>
    .author revisionId (approvedAuthorSnapshot db env projectId tenantId revisionId)

/-- What `apply_page_draft` reads that has nothing to do with media. -/
structure ApplySources where
  plan : Option Bool
  factsConfirmed : Bool
  domainSet : Bool
  designHash : Option String

def applyContext (db : Db) (env : Env) (projectId : ProjectId) (project : Project) (draft : Draft)
    (sources : ApplySources) : ApplyContext where
  brandingValid := project.branding.isSome
  plan := sources.plan
  factsConfirmed := sources.factsConfirmed
  domainSet := sources.domainSet
  author :=
    match draft.pageManifest.bind (·.author) with
    | some author => approvedAuthorSnapshot db env projectId project.tenantId author.revisionId
    | none => .error ⟨409, "Approved author profile revision is unavailable"⟩
  designHash := sources.designHash
  site := project.site.map (fun site => (site.manifest.design, site.manifest.pages))

/-- The site after `apply_page_draft`. -/
def appliedSite (project : Project) (ctx : ApplyContext) (page : PageManifest) : Site :=
  match project.site with
  | some site => { site with
      manifest := { site.manifest with
        design := site.manifest.design.or page.design
        pages := ctx.sitePages page } }
  | none =>
    { manifest :=
        { branding := project.branding.bind Branding.shown
          design := page.design
          pages := ctx.sitePages page }
      buildHash := none
      previousBuildHash := none }

/-! ## Builds -/

/-- `_manifest_author_compliance_blockers`, as whether there is none. -/
def authorsComply (db : Db) (env : Env) (projectId : ProjectId) (tenantId : TenantId)
    (manifest : Manifest) : Bool :=
  manifest.pages.all (fun page =>
    match page.author with
    | none => true
    | some author =>
      match approvedAuthorSnapshot db env projectId tenantId author.revisionId with
      | .ok snapshot => decide (snapshot = author)
      | .error _ => false)

/-- `create_project_build` -/
def createProjectBuild (db : Db) (env : Env) (projectId : ProjectId) (project : Project) :
    Except HttpError Build :=
  match project.site with
  | none => .error ⟨409, "Apply a page draft before building"⟩
  | some site =>
    if !authorsComply db env projectId project.tenantId site.manifest then
      .error ⟨409, "Author profile is unavailable"⟩
    else
      .ok
        { projectId := projectId
          tenantId := project.tenantId
          status := .queued
          inputManifest := site.manifest
          manifestSnapshot := site.manifest
          buildHash := none
          firstPublishedAt := none }

/-- `run_queued_candidate_build`; `rendered` is the hash of the release, if it can be rendered. -/
def runQueuedCandidateBuild (db : Db) (env : Env) (build : Build) (rendered : Option String) :
    Build :=
  match buildAssetsForManifest db.assets db.decisions env build.tenantId build.inputManifest,
      rendered with
  | .ok _, some hash => { build with
      status := .ready
      buildHash := some hash
      manifestSnapshot := build.inputManifest }
  | _, _ => { build with status := .failed }

/-! ## Publications and rollbacks -/

/-- The build of a publication: it is ready and belongs to the project. -/
def publishableBuild (db : Db) (projectId : ProjectId) (project : Project) (id : BuildId) :
    Option Build :=
  (db.builds.get id).filter (fun build =>
    build.projectId = projectId && build.tenantId = project.tenantId && build.status = .ready
      && build.buildHash.any (fun hash => hash ≠ ""))

/-- The builds that match a rollback. -/
def rollbackTargets (db : Db) (projectId : ProjectId) (project : Project) (hash : String) :
    List (BuildId × Build) :=
  db.builds.rows.filter (fun r =>
    r.2.projectId = projectId && r.2.tenantId = project.tenantId && r.2.buildHash = some hash
      && r.2.status = .ready && r.2.firstPublishedAt.isSome)

/-- The media gate and the other gates. -/
def gatePasses (db : Db) (env : Env) (project : Project) (build : Build)
    (otherBlockers : List String) : Bool :=
  (otherBlockers ++ manifestMediaComplianceBlockers db.assets env project.tenantId
    build.manifestSnapshot).isEmpty

/-- The site row and the build row are written. -/
def Db.activate (db : Db) (projectId : ProjectId) (project : Project) (site : Site) (id : BuildId)
    (build : Build) (now : Time) : Db := { db with
  projects := db.projects.set projectId { project with
    site := some { site with
      previousBuildHash := site.buildHash
      buildHash := build.buildHash } }
  builds := db.builds.set id { build with
    firstPublishedAt := some (build.firstPublishedAt.getD now) } }

/-! ## Steps -/

inductive Action
  | upload (id : AssetId) (today : Date) (form : Upload)
  | decide (assetId : AssetId) (body : MediaReviewDecisionIn)
  | updateBranding (projectId : ProjectId) (env : Env) (body : BrandingUpdate)
  | reviseAuthor (id : RevisionId) (revision : AuthorRevision)
  | generate (id : DraftId) (projectId : ProjectId) (page : PageManifest) (origin : Origin)
  | attach (id : DraftId) (env : Env) (attachment : Attachment)
  | runQa (id : DraftId) (result : QaResult)
  | submitReview (id : DraftId)
  | applyDraft (id : DraftId) (env : Env) (sources : ApplySources)
      (override : Option QaOverride) (user : UserId)
  | createBuild (id : BuildId) (projectId : ProjectId) (env : Env)
  | retryBuild (id : BuildId)
  | runBuild (id : BuildId) (env : Env) (rendered : Option String)
  | publish (projectId : ProjectId) (id : BuildId) (env : Env) (otherBlockers : List String)
      (now : Time)
  | rollback (projectId : ProjectId) (hash : String) (env : Env) (otherBlockers : List String)
      (now : Time)

/-- What a publication or a rollback selects. -/
structure Selection where
  projectId : ProjectId
  project : Project
  site : Site
  id : BuildId
  build : Build
  env : Env
  otherBlockers : List String
  now : Time

/-- The selection of a request; none when it is refused before the gates. -/
def selection (db : Db) : Action → Option Selection
  | .publish projectId id env otherBlockers now =>
    (db.projects.get projectId).bind (fun project =>
      project.site.bind (fun site =>
        (publishableBuild db projectId project id).map (fun build =>
          ⟨projectId, project, site, id, build, env, otherBlockers, now⟩)))
  | .rollback projectId hash env otherBlockers now =>
    (db.projects.get projectId).bind (fun project =>
      project.site.bind (fun site =>
        if site.buildHash = some hash then none
        else
          match rollbackTargets db projectId project hash with
          | [(id, build)] =>
            some ⟨projectId, project, site, id, build, env, otherBlockers, now⟩
          | _ => none))
  | _ => none

/-- `publish_project_build` and `rollback_project_build`, after the selection. -/
def Db.publishSelected (db : Db) (sel : Selection) : Option Db :=
  if gatePasses db sel.env sel.project sel.build sel.otherBlockers then
    some (db.activate sel.projectId sel.project sel.site sel.id sel.build sel.now)
  else none

/-- A draft after one of its routes. -/
def Db.withDraft (db : Db) (id : DraftId) (f : ProjectId → Draft → Except PageDraft.Refusal Draft) :
    Option Db :=
  (db.drafts.get id).bind (fun row =>
    (f row.1 row.2).toOption.map (fun draft =>
      { db with drafts := db.drafts.set id (row.1, draft) }))

def step (dumps : PageManifest → String) (db : Db) : Action → Option Db
  | .upload id today form =>
    if db.assets.get id = none then
      (uploadMedia today form).toOption.map (fun asset =>
        { db with assets := db.assets.set id asset })
    else none
  | .decide assetId body =>
    (createMediaReviewDecision db assetId body).toOption.map (fun decision =>
      { db with decisions := decision :: db.decisions })
  | .updateBranding projectId env body =>
    (db.projects.get projectId).bind (fun project =>
      (updateProjectBranding db env project body).toOption.map (fun project =>
        { db with projects := db.projects.set projectId project }))
  | .reviseAuthor id revision => some { db with authors := db.authors.set id revision }
  | .generate id projectId page origin =>
    if (db.drafts.get id).isNone then
      (newDraft dumps page origin).toOption.map (fun draft =>
        { db with drafts := db.drafts.set id (projectId, draft) })
    else none
  | .attach id env attachment =>
    db.withDraft id (fun projectId draft =>
      match db.projects.get projectId with
      | none => .error (.http ⟨404, "Project not found"⟩)
      | some project =>
        draft.edit dumps (attachment.edit db env projectId project.tenantId))
  | .runQa id result => db.withDraft id (fun _ draft => draft.runQa result)
  | .submitReview id => db.withDraft id (fun _ draft => draft.submitReview)
  | .applyDraft id env sources override user =>
    (db.drafts.get id).bind (fun row =>
      (db.projects.get row.1).bind (fun project =>
        let ctx := applyContext db env row.1 project row.2 sources
        (row.2.applyChecks override ctx).toOption.map (fun page => { db with
          drafts := db.drafts.set id (row.1, row.2.markApplied override user)
          projects := db.projects.set row.1 { project with
            site := some (appliedSite project ctx page) } })))
  | .createBuild id projectId env =>
    if (db.builds.get id).isNone then
      (db.projects.get projectId).bind (fun project =>
        (createProjectBuild db env projectId project).toOption.map (fun build =>
          { db with builds := db.builds.set id build }))
    else none
  | .retryBuild id =>
    (db.builds.get id).bind (fun build =>
      if build.status = .failed then
        some { db with builds := db.builds.set id { build with status := .queued } }
      else none)
  | .runBuild id env rendered =>
    (db.builds.get id).bind (fun build =>
      if build.status = .queued then
        some { db with
          builds := db.builds.set id (runQueuedCandidateBuild db env build rendered) }
      else none)
  | .publish projectId id env otherBlockers now =>
    (selection db (.publish projectId id env otherBlockers now)).bind db.publishSelected
  | .rollback projectId hash env otherBlockers now =>
    (selection db (.rollback projectId hash env otherBlockers now)).bind db.publishSelected

end MegaPanel.MediaReview
