import MegaPanel.Candidate.Input
import MegaPanel.Lib.TextFile
import MegaPanel.Release.Trees
import MegaPanel.Rendering.Templates

set_option autoImplicit false

/-! # The pages of a release

What `SiteBuilder.build` (`site_panel_ssg/builder.py`) writes for the media and for each page of
a site manifest. A page gets its document from `render_page`, with the tags of the scripts and
the structured data put in; whether it is thin decides on the robots tag, and the report of the
page is taken from the text as it is written.

* `sanitize` is `sanitize_html`, `schemaOrg` the text of `json.dumps` of `schema_org_jsonld`, and
  `gzip` the compression; the four scripts are constant texts.
* The captcha and the telemetry retention are dictionaries inside the context.
* A slug with a part `..` would lead out of the directory; such a path is refused here
  (`Release.isPath`).
-/

namespace MegaPanel.StaticSite

open MegaPanel.Lib MegaPanel.Lib.Text
open MegaPanel.Candidate (IndexState PageMeta isThin insertNoindex contentHash)
open MegaPanel.Rendering (Value Dict textOrEmpty escape)

/-! ## Manifests -/

structure PageManifest extends Rendering.PageManifest where
  service : String
  indexState : IndexState

structure SiteManifest extends Rendering.SiteManifest where
  siteId : Uuid
  tenantId : TenantId
  pages : List PageManifest
  legal : Dict Value

/-- The context of a build; `entries` is what a template is filled from. -/
structure Context where
  entries : Dict Value
  captcha : Dict Value
  rawDays : Int
  aggregateDays : Int

/-- An asset with the bytes at its source path. -/
structure BuildAsset where
  assetId : Uuid
  data : List UInt8
  storedSha256 : String
  contentType : String

structure Env where
  sanitize : String → String
  schemaOrg : SiteManifest → PageManifest → Context → Dict String → String
  gzip : List UInt8 → List UInt8
  cookieBannerJs : String
  leadFormScript : String
  telemetryScript : String
  captchaFormScript : String

/-- What stops a build. -/
inductive Raised
  | valueError (message : String)
  | fileNotFound
  | unicodeDecode
  | parseError
  | osError
  deriving DecidableEq

/-- The files written into a directory, one after another. -/
abbrev Writes := List (String × List UInt8)

/-! ## Media -/

structure AssetMeta where
  assetId : String
  storedSha256 : String
  path : String
  contentType : String

/-- What the loop over the assets has left so far. -/
structure Copied where
  files : Writes
  urls : List (String × String)
  metadata : List AssetMeta

/-- The loop of `_copy_assets`. -/
def copyLoop : Copied → List BuildAsset → Except Raised Copied
  | copied, [] => .ok copied
  | copied, asset :: assets =>
    let digest := Sha256.hexdigest asset.data
    if digest ≠ asset.storedSha256 then
      .error (.valueError "Static asset hash does not match the approved manifest")
    else
      let path := "assets/" ++ digest ++ ".webp"
      copyLoop
        { files :=
            if (dictGet copied.files path).isSome then copied.files
            else copied.files ++ [(path, asset.data)]
          urls := copied.urls ++ [(asset.assetId.str, path)]
          metadata := copied.metadata ++
            [⟨asset.assetId.str, digest, path, asset.contentType⟩] } assets

/-- `_copy_assets` -/
def copyAssets (assets : List BuildAsset) : Except Raised Copied :=
  copyLoop ⟨[], [], []⟩ (assets.insertionSort (fun a b => a.assetId.str ≤ b.assetId.str))

def referencedAssetIds (site : SiteManifest) : List String :=
  (site.pages.flatMap (fun page =>
    (page.media ++ page.blockMedia.map Prod.snd ++ (page.author.map (·.portrait)).toList).map
      (fun attachment => attachment.assetId.str))) ++
    ((site.branding.bind (·.logo)).map (·.assetId.str)).toList ++
    ((site.branding.bind (·.favicon)).map Uuid.str).toList

/-- `referenced_asset_ids == set(asset_urls)` -/
def mediaMatch (site : SiteManifest) (urls : List (String × String)) : Bool :=
  (referencedAssetIds site).all (fun id => (dictGet urls id).isSome) &&
    urls.all (fun e => e.1 ∈ referencedAssetIds site)

/-! ## Places in the tree -/

/-- The path along some names. -/
def pathOf (names : List (List Char)) : String := String.ofList (['/'].intercalate names)

theorem components_pathOf {names : List (List Char)} (hne : names ≠ [])
    (hclean : ∀ name ∈ names, '/' ∉ name) : Release.components (pathOf names) = names := by
  rw [Release.components, pathOf, String.toList_ofList]
  exact List.splitOn_intercalate '/' hclean hne

/-- Paths are equal along the same names only. -/
theorem pathOf_inj {names names' : List (List Char)} (hne : names ≠ []) (hne' : names' ≠ [])
    (hclean : ∀ name ∈ names, '/' ∉ name) (hclean' : ∀ name ∈ names', '/' ∉ name) :
    pathOf names = pathOf names' ↔ names = names' := by
  constructor
  · intro h
    rw [← components_pathOf hne hclean, h, components_pathOf hne' hclean']
  · exact congrArg pathOf

/-- The names along a stripped slug; `pathlib` leaves empty ones and `.` out. -/
def slugParts (slug : String) : List (List Char) :=
  (Release.components (stripSlashes slug)).filter (fun name => name ≠ [] && name ≠ ['.'])

/-- What is between separators has none. -/
theorem sep_notMem_of_mem_splitOn {sep : Char} {text name : List Char}
    (h : name ∈ text.splitOn sep) : sep ∉ name := by
  induction text generalizing name with
  | nil =>
    rw [List.splitOn_nil] at h
    rw [List.mem_singleton.mp h]
    exact List.not_mem_nil
  | cons c cs ih =>
    rw [List.splitOn_cons_eq_if_modifyHead] at h
    split at h
    · rcases List.mem_cons.mp h with rfl | h
      · exact List.not_mem_nil
      · exact ih h
    · next hc =>
      cases hsplit : cs.splitOn sep with
      | nil => exact absurd hsplit (List.splitOn_ne_nil sep cs)
      | cons first rest =>
        rw [hsplit, List.modifyHead_cons] at h
        rcases List.mem_cons.mp h with rfl | h
        · rw [List.mem_cons, not_or]
          exact ⟨fun heq => hc (beq_iff_eq.mpr heq.symm), ih (by rw [hsplit]; simp)⟩
        · exact ih (by rw [hsplit]; exact List.mem_cons_of_mem _ h)

theorem slugParts_clean (slug : String) : ∀ name ∈ slugParts slug, '/' ∉ name := by
  intro name hname
  exact sep_notMem_of_mem_splitOn (List.mem_of_mem_filter hname)

/-- A file in the directory of a page. -/
def pageFile (slug file : String) : String := pathOf (slugParts slug ++ [file.toList])

/-- `staging / "index.html" if not slug else staging / slug / "index.html"` -/
def outputPath (slug : String) : String := pageFile slug "index.html"

/-- Files of pages are the same only in one directory and under one name. -/
theorem pageFile_inj {slug slug' file file' : String} (hfile : '/' ∉ file.toList)
    (hfile' : '/' ∉ file'.toList) :
    pageFile slug file = pageFile slug' file' ↔ slugParts slug = slugParts slug' ∧ file = file' := by
  have hclean : ∀ (s f : String), '/' ∉ f.toList →
      ∀ name ∈ slugParts s ++ [f.toList], '/' ∉ name := by
    intro s f hf name hname
    rcases List.mem_append.mp hname with hname | hname
    · exact slugParts_clean s name hname
    · exact List.mem_singleton.mp hname ▸ hf
  rw [pageFile, pageFile, pathOf_inj (by simp) (by simp) (hclean slug file hfile)
    (hclean slug' file' hfile')]
  constructor
  · intro h
    obtain ⟨hparts, hfiles⟩ := List.append_inj' h rfl
    exact ⟨hparts, String.toList_inj.mp (List.singleton_inj.mp hfiles)⟩
  · rintro ⟨hparts, rfl⟩
    rw [hparts]

/-- How many names two paths have in common from their start. -/
def commonLength : List (List Char) → List (List Char) → Nat
  | x :: xs, y :: ys => if x = y then commonLength xs ys + 1 else 0
  | _, _ => 0

/-- `os.path.relpath(path, directory)`, on the names along the two. -/
def relpath (path directory : List (List Char)) : List (List Char) :=
  let common := commonLength directory path
  List.replicate (directory.length - common) ['.', '.'] ++ path.drop common

/-- The URL of a file for the page at a slug. -/
def relativeUrl (slug path : String) : String :=
  pathOf (relpath (Release.components path) (slugParts slug))

/-- `relative_media_urls` of the page at a slug. -/
def relativeMediaUrls (urls : List (String × String)) (slug : String) : Dict String :=
  (contents urls).map (fun e => (e.1, relativeUrl slug e.2))

/-! ## A page -/

def hasLeadForm (page : PageManifest) : Bool :=
  page.blocks.any (fun block => block.type == "lead_form")

/-- `{**context, "site_id": str(site.site_id)}` -/
def buildContext (site : SiteManifest) (ctx : Context) : Context :=
  { ctx with entries := ("site_id", .str site.siteId.str) :: ctx.entries }

def telemetryToken (ctx : Context) : String := textOrEmpty (ctx.entries.lookup "telemetry_token")

def captchaProvider (ctx : Context) : String := textOrEmpty (ctx.captcha.lookup "provider")

def captchaSiteKey (ctx : Context) : String := textOrEmpty (ctx.captcha.lookup "site_key")

def captchaEnabled (ctx : Context) (page : PageManifest) : Bool :=
  hasLeadForm page &&
    captchaProvider ctx ∈ ["cloudflare_turnstile", "hcaptcha", "google_recaptcha"] &&
    captchaSiteKey ctx ≠ ""

/-- `html.replace(closing, text + closing)` -/
def insertBefore (closing text html : String) : String :=
  String.ofList (replace closing.toList (text ++ closing).toList html.toList)

def leadFormTag : String := "  <script src=\"site-panel-leads.js\" defer></script>\n"

def cookieBannerTag : String := "  <script src=\"cookie-banner.js\" defer></script>\n"

def telemetryTag (ctx : Context) : String :=
  "  <script src=\"site-panel-telemetry.js\" data-telemetry-token=\"" ++
    escape (telemetryToken ctx) ++ "\" defer></script>\n"

def captchaTag (ctx : Context) : String :=
  "  <script src=\"site-panel-captcha.js\" data-captcha-provider=\"" ++
    escape (captchaProvider ctx) ++ "\" data-captcha-site-key=\"" ++ escape (captchaSiteKey ctx) ++
    "\" defer></script>\n"

def schemaTag (schema : String) : String :=
  "  <script type=\"application/ld+json\">" ++
    String.ofList (replace "</".toList "<\\/".toList schema.toList) ++ "</script>\n"

/-- The tags put in before `</body>`, in the order of their insertion. -/
def scriptTags (ctx : Context) (page : PageManifest) : List String :=
  (if hasLeadForm page then [leadFormTag] else []) ++ cookieBannerTag ::
    (if telemetryToken ctx ≠ "" then [telemetryTag ctx] else []) ++
    (if captchaEnabled ctx page then [captchaTag ctx] else [])

variable (env : Env)

/-- The document of a page as it stands when its thinness is measured. -/
def pageDocument (site : SiteManifest) (ctx : Context) (urls : List (String × String))
    (page : PageManifest) : String :=
  let html := Rendering.renderPage env.sanitize site.toSiteManifest page.toPageManifest ctx.entries
    (relativeMediaUrls urls page.slug)
  let html := (scriptTags ctx page).foldl (fun html tag => insertBefore "</body>" tag html) html
  let schemaMediaUrls := (contents urls).map (fun e =>
    (e.1, "https://" ++ stripSlashes (strip site.domain) ++ "/" ++ e.2))
  insertBefore "</head>" (schemaTag (env.schemaOrg site page ctx schemaMediaUrls)) html

/-- What is known of a page when its turn is over. -/
structure BuiltPage where
  item : PageMeta
  html : String

/-- The report of a page and its text. -/
def builtPage (site : SiteManifest) (ctx : Context) (indexStates : List (String × IndexState))
    (urls : List (String × String)) (page : PageManifest) : BuiltPage :=
  let document := pageDocument env site ctx urls page
  let thin := isThin document
  let slug := stripSlashes page.slug
  let state := if thin then .noindex else (dictGet indexStates page.slug).getD page.indexState
  let html := if state ≠ .indexed then insertNoindex document else document
  { item :=
      { slug := page.slug
        path := if slug = "" then "/" else "/" ++ slug ++ "/"
        indexState := state
        thin := thin
        contentChars := html.length
        hash := contentHash html }
    html := html }

/-- The files of a page. -/
def pageWrites (ctx : Context) (compress : Bool) (page : PageManifest) (html : String) : Writes :=
  [(outputPath page.slug, utf8 html),
    (pageFile page.slug "cookie-banner.js", utf8 env.cookieBannerJs)] ++
    (if telemetryToken ctx ≠ "" then
      [(pageFile page.slug "site-panel-telemetry.js", utf8 env.telemetryScript)] else []) ++
    (if captchaEnabled ctx page then
      [(pageFile page.slug "site-panel-captcha.js", utf8 env.captchaFormScript)] else []) ++
    (if hasLeadForm page then
      [(pageFile page.slug "site-panel-leads.js", utf8 env.leadFormScript)] else []) ++
    (if compress then [(pageFile page.slug "index.html.gz", env.gzip (utf8 html))] else [])

end MegaPanel.StaticSite
