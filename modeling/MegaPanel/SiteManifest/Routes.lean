import MegaPanel.SiteManifest.Model
import MegaPanel.Lib.UnitOfWork

set_option autoImplicit false

/-! # Routes that write the manifest

`apply_page_draft`, `update_project_branding` and `update_webhook_settings`. Each of them
reads the project or the site, edits a part of the manifest it has read and writes the whole
manifest back. A request is cut at its database reads: `start` is the part up to the read of
the site row, `readSite` that read with the checks after it, `commit` the writes. Nothing is
locked in between, and nothing is compared at the commit.

The row locks that flushes take before the commit exclude some of the interleavings of the
parts; none of them covers the read of the manifest that is edited.
-/

namespace MegaPanel.SiteManifest

open MegaPanel.Lib

/-! ## Requests -/

/-- `ProjectBrandingUpdate`: a field is `none` when the body does not mention it.
`assetBlocker` is what `_verified_branding_reference` raises for the fields written, if
anything. -/
structure BrandingUpdate where
  version : Nat
  logo : Option (Option BrandLogo)
  favicon : Option (Option BrandFavicon)
  assetBlocker : Option String
  deriving DecidableEq

/-- `WebhookSettingsIn`: what `validate_webhook_target` answers for the URL, and the
encrypted secret. -/
structure WebhookSettings where
  targetUrl : Except String String
  secretEnc : String

inductive Request
  | apply (id : DraftId) (override : Option QaOverride) (user : UserId)
  | branding (body : BrandingUpdate)
  | webhook (body : WebhookSettings)

/-- What a request holds in memory after its first reads; `loaded` is the project's branding
as it was read. -/
inductive Work
  | apply (id : DraftId) (draft : Draft) (override : Option QaOverride) (user : UserId)
      (loaded : Branding)
  | branding (branding loaded : Branding) (projectVersion : Nat)
  | webhook (targetUrl secretEnc : String)

/-- The site as a request knows it: `project.site_id` was null, or was not and the row has
not been read, or has been. -/
inductive SiteCopy
  | absent
  | unread
  | read (site : Site)

/-- A request that has not committed. -/
structure Pending where
  work : Work
  copy : SiteCopy

/-! ## Applying a draft -/

/-- The checks of `apply_page_draft` before it looks at the site. -/
def applyChecks (draft : Draft) (override : Option QaOverride) : Except HttpError Unit :=
  if draft.state ≠ .review then .error ⟨409, "Submit the draft for review first"⟩
  else if !draft.currentQa then
    .error ⟨409, "Run QA for the current draft content before apply"⟩
  else if draft.lastQaVerdict = some .block then .error ⟨409, "Resolve blocking QA findings"⟩
  else if draft.lastQaVerdict = some .warn ∧ override = none then
    .error ⟨409, "Provide an audited warning override"⟩
  else if draft.lastQaVerdict = none then .error ⟨409, "Run QA before apply"⟩
  else
    match draft.sources.plan with
    | none => .error ⟨404, "Page plan not found"⟩
    | some false => .error ⟨409, "Approve the page plan first"⟩
    | some true =>
      if !draft.sources.factsConfirmed then
        .error ⟨409, "Plan fact revision is unavailable"⟩
      else if !draft.sources.domainSet then
        .error ⟨409, "Set a project domain before apply"⟩
      else
        match draft.sources.authorBlocker with
        | some blocker => .error ⟨409, blocker⟩
        | none =>
          match draft.page.design with
          | some design =>
            if design.profileHash ≠ draft.sources.designHash then
              .error ⟨409, "Design profile changed; regenerate this PageDraft"⟩
            else .ok ()
          | none => .ok ()

/-- The site's design and the page's design have different profiles. -/
def designsDiffer (manifest : Manifest) (page : Page) : Bool :=
  match manifest.design, page.design with
  | some a, some b => a.profileHash ≠ b.profileHash
  | _, _ => false

/-- The page takes the place of the pages with its slug. -/
def replacePage (pages : List Page) (page : Page) : List Page :=
  pages.filter (fun existing => existing.slug ≠ page.slug) ++ [page]

/-- The manifest `apply_page_draft` writes back to an existing site. -/
def applyToManifest (draft : Draft) (manifest : Manifest) : Manifest :=
  let firstDesign := manifest.design.isNone && draft.page.design.isSome
  { design := if firstDesign then draft.page.design else manifest.design
    cssVars := if firstDesign then draft.sources.kitCssVars else manifest.cssVars
    branding := manifest.branding
    pages := replacePage manifest.pages draft.page
    legal := draft.sources.legal
    contacts := (publicContacts draft.sources.contacts).merge
      (manifest.contacts.filter (fun key => decide (key ∈ protectedContactFields)))
    context := manifest.context.merge draft.sources.context
    version := manifest.version + 1 }

/-- The site `apply_page_draft` inserts for a project that has none. -/
def createdSite (draft : Draft) (projectBranding : Branding) : Site where
  version := 1
  manifest :=
    { design := draft.page.design
      cssVars := draft.sources.kitCssVars
      branding := projectBranding.shown
      pages := [draft.page]
      legal := draft.sources.legal
      contacts := publicContacts draft.sources.contacts
      context := draft.sources.context
      version := 1 }

/-! ## Branding and webhook -/

/-- `current.model_copy(update={field: getattr(body, field) for field in fields})` -/
def BrandingUpdate.apply (body : BrandingUpdate) (current : Branding) : Branding where
  logo := body.logo.getD current.logo
  favicon := body.favicon.getD current.favicon

def setBranding (branding : Branding) (manifest : Manifest) : Manifest :=
  { manifest with branding := branding.shown, version := manifest.version + 1 }

def setWebhook (targetUrl secretEnc : String) (manifest : Manifest) : Manifest :=
  { manifest with
    contacts := ((manifest.contacts.set "webhook_url" targetUrl).set
      "webhook_secret_enc" secretEnc).pop "webhook_secret" }

/-! ## The parts of a request -/

/-- The copy of a request that has just read the project. -/
def siteCopy (db : Db) : SiteCopy := if db.site.isSome then .unread else .absent

def start (db : Db) : Request → Except HttpError Pending
  | .apply id override user =>
    match db.project.branding with
    | none => .error ⟨409, "Project branding is invalid"⟩
    | some loaded =>
      match db.drafts id with
      | none => .error ⟨404, "Page draft not found"⟩
      | some draft =>
        match applyChecks draft override with
        | .error e => .error e
        | .ok _ =>
          .ok { work := .apply id draft override user loaded, copy := siteCopy db }
  | .branding body =>
    if body.version ≠ db.project.version then .error ⟨409, "Project changed; reload it"⟩
    else if body.logo = none ∧ body.favicon = none then
      .error ⟨422, "Select a branding field to update"⟩
    else
      match db.project.branding with
      | none => .error ⟨409, "Project branding is invalid"⟩
      | some loaded =>
        match body.assetBlocker with
        | some blocker => .error ⟨422, blocker⟩
        | none =>
          .ok { work := .branding (body.apply loaded) loaded db.project.version
                copy := siteCopy db }
  | .webhook body =>
    match body.targetUrl with
    | .error e => .error ⟨400, e⟩
    | .ok targetUrl =>
      match db.site with
      | none => .error ⟨404, "Site not found"⟩
      | some site =>
        .ok { work := .webhook targetUrl body.secretEnc, copy := .read site }

/-- `_project_site_or_409`, and the check on the design of the manifest found. -/
def readSite (db : Db) (pending : Pending) : Except HttpError Pending :=
  match db.site with
  | none => .error ⟨409, "Project site link is invalid"⟩
  | some site =>
    match pending.work with
    | .apply _ draft _ _ _ =>
      if designsDiffer site.manifest draft.page then
        .error ⟨409, "Applied site uses another approved design profile"⟩
      else .ok { pending with copy := .read site }
    | _ => .ok { pending with copy := .read site }

/-- The site row a request writes; `copy` is the row it has read. -/
def writtenSite : Work → Site → Site
  | .apply _ draft _ _ _, copy =>
    { manifest := applyToManifest draft copy.manifest, version := copy.version + 1 }
  | .branding branding _ _, copy =>
    { manifest := setBranding branding copy.manifest, version := copy.version + 1 }
  | .webhook targetUrl secretEnc, copy =>
    { copy with manifest := setWebhook targetUrl secretEnc copy.manifest }

def Draft.markApplied (draft : Draft) (override : Option QaOverride) (user : UserId) : Draft :=
  { draft with
    state := .applied
    appliedBy := some user
    qaOverride := override.or draft.qaOverride }

/-- The rows other than the site that a request writes. -/
def writeOthers (db : Db) : Work → Db
  | .apply id _ override user _ =>
    { db with
      drafts := Function.update db.drafts id
        ((db.drafts id).map (·.markApplied override user)) }
  | .branding branding loaded projectVersion =>
    { db with
      project :=
        { branding := writeCol (some loaded) (some branding) db.project.branding
          version := projectVersion + 1 } }
  | .webhook _ _ => db

/-- The transaction of a request that is through with its reads; `none` when it fails. An
`UPDATE` of the site writes the manifest whatever is stored now (the column is always
dirty: the version, or the encrypted secret, differs from the one read). The insertion of a second
site violates the unique constraint on the project. -/
def commit (db : Db) (pending : Pending) : Option Db :=
  let others := writeOthers db pending.work
  match pending.copy with
  | .unread => none
  | .read copy => db.site.map (fun _ => { others with site := some (writtenSite pending.work copy) })
  | .absent =>
    match pending.work with
    | .apply _ draft _ _ loaded =>
      if db.site.isSome then none
      else some { others with site := some (createdSite draft loaded) }
    | .branding .. => some others
    | .webhook .. => none

end MegaPanel.SiteManifest
