import MegaPanel.Basic
import MegaPanel.Candidate.Metadata
import MegaPanel.Lib.Dict

set_option autoImplicit false

/-! # The input of a candidate build

Before a candidate build is queued, `_freeze_candidate_build_input` (`api/v1/projects.py`)
decides for every page of the manifest whether it may be indexed, and stores the decisions.
`SiteBuilder.build` (`site_panel_ssg/builder.py`) renders the pages later and takes the index
state back where a page came out thin. `_page_metadata_from_candidate_result` joins the two.

The rendered text of a page is a parameter: `render page` is the document as it stands when
its thinness is measured. A stored page manifest is its JSON text together with the two fields
that are read from it.
-/

namespace MegaPanel.Candidate

open MegaPanel.Lib MegaPanel.Lib.Text

/-! ## Rows -/

structure PageManifest where
  slug : String
  indexState : IndexState
  /-- `json.dumps(page.model_dump(mode="json"), ...)` -/
  json : String
  deriving DecidableEq

structure SiteManifest where
  siteId : SiteId
  tenantId : TenantId
  domain : String
  pages : List PageManifest
  deriving DecidableEq

def draftManifestHash (page : PageManifest) : String := Sha256.sha256Hex page.json

def scheduleReasonPrefix : String := "План постепенной индексации: "

/-- The reasons that get into a promotion: a request body has 10 to 2000 characters, and it
is stripped before it is stored, behind a prefix when a schedule stores it. -/
def AdmittedReason (reason : String) : Prop :=
  ∃ body : String, 10 ≤ body.length ∧ body.length ≤ 2000 ∧
    (reason = strip body ∨ reason = scheduleReasonPrefix ++ strip body)

/-- A row of `page_index_promotions`. Both writers take the two hashes from one draft. -/
structure PageIndexPromotion where
  id : Uuid
  siteId : SiteId
  projectId : ProjectId
  slug : String
  sourceHash : String
  qaSourceHash : String
  reason : String
  decidedAt : DateTime
  qa_source : qaSourceHash = sourceHash
  admitted : AdmittedReason reason

inductive PagePublishState
  | draft
  | published
  | archived
  deriving DecidableEq

/-- A row of `site_pages`; `manifest` is `none` when it does not validate. -/
structure SitePage where
  slug : String
  publishState : PagePublishState
  indexState : IndexState
  indexSourceHash : Option String
  promotedAt : Option DateTime
  manifest : Option PageManifest
  thin : Bool
  contentChars : Nat

/-! ## The decisions -/

/-- What is decided about one page. -/
structure PageDecision where
  slug : String
  indexState : IndexState
  sourceHash : String
  promotedAt : Option DateTime
  promotion : Option PageIndexPromotion

def legacyCurrent (previous : Option SitePage) (sourceHash : String) : Except Raised Bool :=
  match previous with
  | none => .ok false
  | some row =>
    if row.indexState = .indexed ∧ row.indexSourceHash = none then
      match row.manifest with
      | none => .error (.validationError "PageManifest")
      | some page => .ok (draftManifestHash page = sourceHash)
    else .ok false

def currentPromotion (previous : Option SitePage) (sourceHash : String) : Bool :=
  match previous with
  | none => false
  | some row => row.indexState = .indexed && row.indexSourceHash = some sourceHash

/-- The page with the promotion found for it, the row that projects it now, and whether that
row was indexed before promotions existed. -/
def pageDecision (page : PageManifest) (promotion : Option PageIndexPromotion)
    (previous : Option SitePage) (legacy : Bool) : PageDecision :=
  let sourceHash := draftManifestHash page
  if promotion.isSome || legacy || currentPromotion previous sourceHash then
    { slug := page.slug
      indexState := .indexed
      sourceHash := sourceHash
      promotedAt :=
        match promotion with
        | some p => some p.decidedAt
        | none => previous.bind (·.promotedAt)
      promotion := promotion }
  else
    { slug := page.slug
      indexState := .noindex
      sourceHash := sourceHash
      promotedAt := none
      promotion := none }

/-- The loop body of `_candidate_index_states`. -/
def decidePage (approved : String × String → Option PageIndexPromotion)
    (existing : String → Option SitePage) (page : PageManifest) : Except Raised PageDecision :=
  let sourceHash := draftManifestHash page
  let previous := existing page.slug
  match legacyCurrent previous sourceHash with
  | .error raised => .error raised
  | .ok legacy => .ok (pageDecision page (approved (page.slug, sourceHash)) previous legacy)

/-- The promotions of the site, the latest first. -/
def sitePromotions (siteId : SiteId) (projectId : ProjectId)
    (promotions : List PageIndexPromotion) : List PageIndexPromotion :=
  (promotions.filter (fun p => p.projectId = projectId && p.siteId = siteId)).mergeSort
    (fun p q => q.decidedAt.instant ≤ p.decidedAt.instant)

/-- `{(promotion.slug, promotion.source_hash): promotion ...}` -/
def approvedPromotion (siteId : SiteId) (projectId : ProjectId)
    (promotions : List PageIndexPromotion) (key : String × String) : Option PageIndexPromotion :=
  dictGet ((sitePromotions siteId projectId promotions).map
    (fun p => ((p.slug, p.sourceHash), p))) key

/-- `{row.slug: row ...}` -/
def existingPage (rows : List SitePage) (slug : String) : Option SitePage :=
  dictGet (rows.map (fun row => (row.slug, row))) slug

def candidateIndexStates (siteId : SiteId) (projectId : ProjectId) (manifest : SiteManifest)
    (promotions : List PageIndexPromotion) (rows : List SitePage) :
    Except Raised (List PageDecision) :=
  manifest.pages.mapM
    (decidePage (approvedPromotion siteId projectId promotions) (existingPage rows))

/-! ## The snapshot -/

/-- The frozen input, with its dictionaries as lists of assignments. -/
structure Snapshot where
  manifest : SiteManifest
  indexStates : List (String × IndexState)
  sourceHashes : List (String × String)
  promotedAt : List (String × Option String)
  indexPromotions : List (String × FrozenPromotion)

def serializeIndexPromotion (p : PageIndexPromotion) : FrozenPromotion where
  id := p.id.str
  slug := p.slug
  sourceHash := p.sourceHash
  qaSourceHash := p.qaSourceHash
  reason := p.reason
  decidedAt := p.decidedAt.isoformat

def snapshotOf (manifest : SiteManifest) (decisions : List PageDecision) : Snapshot where
  manifest := manifest
  indexStates := decisions.map (fun d => (d.slug, d.indexState))
  sourceHashes := decisions.map (fun d => (d.slug, d.sourceHash))
  promotedAt := decisions.map (fun d => (d.slug, d.promotedAt.map DateTime.isoformat))
  indexPromotions := decisions.filterMap
    (fun d => (d.promotion.map serializeIndexPromotion).map (fun p => (d.slug, p)))

/-- `_freeze_candidate_build_input`: the stored manifest (`none` when it does not validate),
the blockers found on its authors, and the rows the decisions are read from. -/
def freezeCandidateBuildInput (siteId : SiteId) (projectId : ProjectId)
    (siteManifest : Option SiteManifest) (authorBlockers : List String)
    (promotions : List PageIndexPromotion) (rows : List SitePage) : Except Raised Snapshot :=
  match siteManifest with
  | none => .error (.validationError "SiteManifest")
  | some manifest =>
    if authorBlockers ≠ [] then .error (.httpError 409 authorBlockers)
    else
      match candidateIndexStates siteId projectId manifest promotions rows with
      | .error raised => .error raised
      | .ok decisions => .ok (snapshotOf manifest decisions)

/-! ## The build -/

/-- `re.sub(r"<[^>]+>", " ", html)`; the flag tells that a tag is being passed over. -/
def stripTags : Bool → List Char → List Char
  | _, [] => []
  | true, c :: cs => if c = '>' then stripTags false cs else stripTags true cs
  | false, c :: cs =>
    if c = '<' ∧ cs.head? ≠ some '>' ∧ '>' ∈ cs then ' ' :: stripTags true cs
    else c :: stripTags false cs

/-- `re.sub(r"\s+", " ", text)`; the flag tells that the last character was white space. -/
def collapseSpace : Bool → List Char → List Char
  | _, [] => []
  | space, c :: cs =>
    if isSpace c then (if space then collapseSpace true cs else ' ' :: collapseSpace true cs)
    else c :: collapseSpace false cs

/-- `THIN_CONTENT_MIN_CHARS` -/
def thinContentMinChars : Nat := 350

def isThin (html : String) : Bool :=
  (stripBy isSpace (collapseSpace false (stripTags false html.toList))).length < thinContentMinChars

def contentHash (html : String) : String := Sha256.sha256Hex html

def noindexMeta : String := "<meta name=\"robots\" content=\"noindex, follow\">"

/-- `html.replace("</head>", ...)` for a page that is not to be indexed. -/
def insertNoindex (html : String) : String :=
  String.ofList (replace "</head>".toList ("  " ++ noindexMeta ++ "\n</head>").toList html.toList)

/-- `text in html` -/
def contains (html text : String) : Bool := html.toList.tails.any (text.toList.isPrefixOf ·)

def pageUrl (domain slug : String) : String :=
  let host := stripSlashes (strip domain)
  let path := stripSlashes slug
  if path = "" then "https://" ++ host ++ "/" else "https://" ++ host ++ "/" ++ path ++ "/"

/-- One turn of the page loop: the report and the file written. -/
def buildPage (render : PageManifest → String) (indexStates : List (String × IndexState))
    (page : PageManifest) : PageMeta × String :=
  let html := render page
  let thin := isThin html
  let slug := stripSlashes page.slug
  let state := if thin then .noindex else (dictGet indexStates page.slug).getD page.indexState
  let html := if state ≠ .indexed then insertNoindex html else html
  ({ slug := page.slug
     path := if slug = "" then "/" else "/" ++ slug ++ "/"
     indexState := state
     thin := thin
     contentChars := html.length
     hash := contentHash html }, html)

/-- The page part of `_validate_release_artifacts`, on the files by stripped slug. -/
def validateReleaseArtifact (domain : String) (files : List (String × String)) (item : PageMeta) :
    Except Raised Unit :=
  let html := (dictGet files (stripSlashes item.slug)).getD ""
  let canonical := "<link rel=\"canonical\" href=\"" ++ pageUrl domain item.slug ++ "\">"
  if !contains html canonical then
    .error (.valueError "Page canonical does not match its release path")
  else if item.indexState = .indexed && contains html noindexMeta then
    .error (.valueError "Indexed page artifact contains noindex")
  else if item.indexState ≠ .indexed && !contains html noindexMeta then
    .error (.valueError "Noindex page artifact is missing robots policy")
  else .ok ()

/-- `SiteBuilder.build`: the page reports of the result. `htmlSitemap` is the text of
`sitemap/index.html`, written after the pages. `sitemap.xml` is written from the same reports,
so its comparison with them cannot fail. -/
def build (render : PageManifest → String) (htmlSitemap : String) (manifest : SiteManifest)
    (indexStates : List (String × IndexState)) : Except Raised (List PageMeta) :=
  let built := manifest.pages.map (buildPage render indexStates)
  let files := built.map (fun b => (stripSlashes b.1.slug, b.2)) ++ [("sitemap", htmlSitemap)]
  match built.mapM (fun b => validateReleaseArtifact manifest.domain files b.1) with
  | .error raised => .error raised
  | .ok _ => .ok (built.map (·.1))

/-! ## The stored metadata -/

def pageMetadataItem (snapshot : Snapshot) (item : PageMeta) : Except Raised Json :=
  match dictGet snapshot.sourceHashes item.slug, dictGet snapshot.promotedAt item.slug with
  | some sourceHash, some promotedAt =>
    .ok (entryJson item sourceHash promotedAt (dictGet snapshot.indexPromotions item.slug))
  | _, _ => .error (.keyError item.slug)

def pageMetadataFromCandidateResult (result : List PageMeta) (snapshot : Snapshot) :
    Except Raised (List Json) :=
  result.mapM (pageMetadataItem snapshot)

end MegaPanel.Candidate
