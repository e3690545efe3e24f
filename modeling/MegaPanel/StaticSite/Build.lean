import MegaPanel.StaticSite.Legal

set_option autoImplicit false

/-! # The build of a site

`SiteBuilder.build` (`site_panel_ssg/builder.py`) writes everything into one staging directory:
the media and the pages, `robots.txt` and the two sitemaps, then, after
`_validate_release_artifacts` has looked at what is there, the legal pack. The directory gets a hash
over its files for a name; a release that has the name already stays as it is, and the staging
directory is thrown away.

`locs` gives the texts of the `loc` elements of a sitemap, as `xml.etree` reads them, or nothing
for a document that is not well formed. The two texts of a list of metadata are
`json.dumps`. The links to the active release are left out.
-/

namespace MegaPanel.StaticSite

open MegaPanel.Lib MegaPanel.Lib.Text
open MegaPanel.Candidate (IndexState PageMeta contains noindexMeta)
open MegaPanel.Rendering (Dict fillSlots joinLines escape pageUrl faviconHtml)

/-! ## What stands beside the pages -/

def renderRobotsTxt : String :=
  "User-agent: *\nAllow: /\nSitemap: /sitemap.xml\nUser-agent: GPTBot\nDisallow: /\n" ++
    "User-agent: CCBot\nDisallow: /\nUser-agent: Google-Extended\nDisallow: /\n" ++
    "User-agent: OAI-SearchBot\nAllow: /\n"

def renderSitemap (domain : String) (urls : List String) : String :=
  let items := urls.map (fun url =>
    let loc := if "http".toList.isPrefixOf url.toList then url else pageUrl domain url
    "  <url><loc>" ++ escape loc ++ "</loc></url>")
  "<?xml version=\"1.0\" encoding=\"UTF-8\"?>\n" ++
    "<urlset xmlns=\"http://www.sitemaps.org/schemas/sitemap/0.9\">\n" ++
    joinLines items ++ "\n</urlset>\n"

/-- `render_html_sitemap`, for the states of the pages by slug. -/
def renderHtmlSitemap (site : SiteManifest) (ctx : Context)
    (indexStates : List (String × IndexState)) (mediaUrls : Dict String) : String :=
  let indexed := site.pages.filter (fun page =>
    (dictGet indexStates page.slug).getD page.indexState = .indexed)
  let links := indexed.map (fun page =>
    let h1 := fillSlots page.h1Template (fun key => ctx.entries.lookup key)
    "      <li><a href=\"" ++ escape (pageUrl site.domain page.slug) ++ "\">" ++
      escape (if h1 = "" then page.service else h1) ++ "</a></li>")
  let body :=
    if links = [] then "      <li>Страницы для индексации пока не разрешены.</li>"
    else joinLines links
  "<!DOCTYPE html>\n<html lang=\"" ++ escape site.locale ++
    "\">\n<head>\n  <meta charset=\"utf-8\">\n" ++
    "  <meta name=\"viewport\" content=\"width=device-width, initial-scale=1\">\n  <title>" ++
    "Карта сайта</title>\n  <link rel=\"canonical\" href=\"" ++
    escape (pageUrl site.domain "/sitemap") ++ "\">\n" ++
    faviconHtml site.toSiteManifest mediaUrls ++ "  " ++ noindexMeta ++
    "\n</head>\n<body>\n  <main>\n    <h1>Карта сайта</h1>\n    <ul>\n" ++ body ++
    "\n    </ul>\n  </main>\n  <script src=\"/cookie-banner.js\" defer></script>\n  " ++
    legalTelemetryTag (telemetryToken ctx) ++ "\n</body>\n</html>\n"

/-! ## The check in the middle -/

/-- `(staging / path).read_text(encoding="utf-8")` -/
def readFile (files : Writes) (path : String) : Except Raised String :=
  match dictGet files path with
  | none => .error .fileNotFound
  | some data =>
    match readText data with
    | none => .error .unicodeDecode
    | some text => .ok text

/-- The URLs that the sitemap is to have. -/
def indexedUrls (domain : String) (items : List PageMeta) : List String :=
  (items.filter (fun item => item.indexState = .indexed)).map (fun item => pageUrl domain item.path)

/-- `set(xs) == set(ys)` -/
def sameSet (xs ys : List String) : Bool := xs.all (· ∈ ys) && ys.all (· ∈ xs)

/-- The loop body over the pages. -/
def validatePage (site : SiteManifest) (files : Writes) (item : PageMeta) : Except Raised Unit :=
  match readFile files (outputPath item.slug) with
  | .error raised => .error raised
  | .ok html =>
    let canonical := "<link rel=\"canonical\" href=\"" ++ pageUrl site.domain item.slug ++ "\">"
    let hasNoindex := contains html noindexMeta
    if !contains html canonical then
      .error (.valueError "Page canonical does not match its release path")
    else if item.indexState = .indexed && hasNoindex then
      .error (.valueError "Indexed page artifact contains noindex")
    else if item.indexState ≠ .indexed && !hasNoindex then
      .error (.valueError "Noindex page artifact is missing robots policy")
    else .ok ()

/-- `_validate_release_artifacts` -/
def validateReleaseArtifacts (locs : String → Option (List String)) (site : SiteManifest)
    (files : Writes) (items : List PageMeta) : Except Raised Unit :=
  match readFile files "sitemap.xml" with
  | .error raised => .error raised
  | .ok text =>
    match locs text with
    | none => .error .parseError
    | some urls =>
      if !sameSet urls (indexedUrls site.domain items) then
        .error (.valueError "Sitemap URLs do not match indexed page artifacts")
      else items.forM (validatePage site files)

/-! ## Staging -/

structure BuildInput where
  site : SiteManifest
  context : Context
  indexStates : List (String × IndexState)
  assets : List BuildAsset
  compress : Bool

/-- The tree that the writes leave, unless a path is none or a file stands where a directory is
needed. -/
def asTree (files : Writes) : Option Release.Tree :=
  let paths := (contents files).map Prod.fst
  if h : (∀ path ∈ paths, Release.isPath path = true) ∧
      ∀ path ∈ paths, ∀ other ∈ paths, Release.isBelow path other = false then
    some ⟨contents files, nodup_contents files, h.1, h.2⟩
  else none

/-- The staging directory when its hash is taken. -/
structure Staged where
  directory : Release.Tree
  built : List BuiltPage
  assetsMeta : List AssetMeta

structure Tools extends Env where
  locs : String → Option (List String)
  /-- `json.dumps(assets_meta, ensure_ascii=False, sort_keys=True, separators=(",", ":"))` -/
  assetsText : List AssetMeta → String
  /-- `json.dumps(assets_meta, ensure_ascii=False, indent=2)` -/
  assetsIndented : List AssetMeta → String
  /-- `json.dumps(page_meta, ensure_ascii=False, indent=2)` -/
  pagesIndented : List PageMeta → String

variable (tools : Tools)

/-- The pages with their reports and texts. -/
def builtPages (input : BuildInput) (urls : List (String × String)) : List BuiltPage :=
  input.site.pages.map (builtPage tools.toEnv input.site (buildContext input.site input.context)
    input.indexStates urls)

/-- The files of all pages. -/
def allPageWrites (input : BuildInput) (built : List BuiltPage) : Writes :=
  (input.site.pages.zip built).flatMap (fun turn =>
    pageWrites tools.toEnv (buildContext input.site input.context) input.compress turn.1
      turn.2.html)

/-- The paths that go into `sitemap.xml`. -/
def indexedPaths (built : List BuiltPage) : List String :=
  (built.filter (fun b => b.item.indexState = .indexed)).map (fun b => b.item.path)

/-- `robots.txt` and the two sitemaps. -/
def sitemapWrites (input : BuildInput) (urls : List (String × String)) (built : List BuiltPage) :
    Writes :=
  let html := renderHtmlSitemap input.site (buildContext input.site input.context)
    (built.map (fun b => (b.item.slug, b.item.indexState))) (relativeMediaUrls urls "sitemap")
  [("robots.txt", utf8 renderRobotsTxt),
    ("sitemap.xml", utf8 (renderSitemap input.site.domain (indexedPaths built))),
    ("sitemap/index.html", utf8 html)] ++
    (if input.compress then [("sitemap/index.html.gz", tools.gzip (utf8 html))] else [])

/-- The URL of the favicon for the legal documents. -/
def legalFaviconUrl (site : SiteManifest) (urls : List (String × String)) : Option String :=
  ((site.branding.bind (·.favicon)).bind (fun id => dictGet urls id.str)).map
    (relativeUrl "privacy")

/-- The legal pack of a build. -/
def legalWrites (input : BuildInput) (urls : List (String × String)) : Except Raised Writes :=
  writeLegalPack tools.cookieBannerJs input.site.legal
    (telemetryToken (buildContext input.site input.context)) input.context.rawDays
    input.context.aggregateDays (legalFaviconUrl input.site urls)

/-- The script that is put beside the legal pack. -/
def telemetryWrites (input : BuildInput) : Writes :=
  if telemetryToken (buildContext input.site input.context) ≠ "" then
    [("site-panel-telemetry.js", utf8 tools.telemetryScript)] else []

/-- What is in the directory when it is checked. -/
def checkedWrites (input : BuildInput) (copied : Copied) : Writes :=
  let built := builtPages tools input copied.urls
  copied.files ++ allPageWrites tools input built ++ sitemapWrites tools input copied.urls built

/-- The build up to the hash of its files. -/
def stage (input : BuildInput) : Except Raised Staged :=
  match copyAssets input.assets with
  | .error raised => .error raised
  | .ok copied =>
    if !mediaMatch input.site copied.urls then
      .error (.valueError "Static media assets do not match the manifest")
    else
      let built := builtPages tools input copied.urls
      let checked := checkedWrites tools input copied
      match validateReleaseArtifacts tools.locs input.site checked (built.map (·.item)) with
      | .error raised => .error raised
      | .ok _ =>
        match legalWrites tools input copied.urls with
        | .error raised => .error raised
        | .ok legal =>
          match asTree (checked ++ legal ++ telemetryWrites tools input) with
          | none => .error .osError
          | some directory => .ok ⟨directory, built, copied.metadata⟩

/-! ## Releases -/

/-- A release directory: the tree that was hashed, and what went into its name besides. -/
structure ReleaseDirectory where
  directory : Release.Tree
  pageHashes : List String
  assetsText : String
  assetsIndented : String
  pagesIndented : String

/-- The build hash, which is the name of the directory. -/
def ReleaseDirectory.name (r : ReleaseDirectory) : Release.Hash :=
  Release.buildHashOf r.pageHashes r.directory r.assetsText

/-- The files in the directory, with those that are written after the hash. -/
def ReleaseDirectory.files (r : ReleaseDirectory) : Writes :=
  r.directory.files ++ [("BUILD_HASH", utf8 r.name), ("assets_meta.json", utf8 r.assetsIndented),
    ("pages_meta.json", utf8 r.pagesIndented)]

def Staged.release (s : Staged) : ReleaseDirectory where
  directory := s.directory
  pageHashes := s.built.map (·.item.hash)
  assetsText := tools.assetsText s.assetsMeta
  assetsIndented := tools.assetsIndented s.assetsMeta
  pagesIndented := tools.pagesIndented (s.built.map (·.item))

/-- What a build returns, with the directory at its path. -/
structure Result where
  buildHash : Release.Hash
  pages : List PageMeta
  indexedCount : Nat
  release : ReleaseDirectory

/-- `SiteBuilder.build` on the releases of the site: the releases afterwards and the result. -/
def build (releases : List ReleaseDirectory) (input : BuildInput) :
    Except Raised (List ReleaseDirectory × Result) :=
  match stage tools input with
  | .error raised => .error raised
  | .ok staged =>
    let release := staged.release tools
    let result : ReleaseDirectory → Result := fun r =>
      ⟨release.name, staged.built.map (·.item), (indexedPaths staged.built).length, r⟩
    match releases.find? (fun r => r.name = release.name) with
    | some existing => .ok (releases, result existing)
    | none => .ok (release :: releases, result release)

end MegaPanel.StaticSite
