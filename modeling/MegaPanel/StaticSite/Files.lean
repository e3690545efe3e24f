import MegaPanel.StaticSite.Slugs
import MegaPanel.StaticSite.Staging

set_option autoImplicit false

/-! # The files of a build

Which writes of a build go to which path. A page is alone at its own path, unless that is one of
the four directories that the build fills itself (`file_of_page`, `lost_of_generated`); only
`sitemap.xml` is written to its path, and it lists what is to be indexed (`listed_of_staged`).
-/

namespace MegaPanel.StaticSite

open MegaPanel.Lib MegaPanel.Lib.Text
open MegaPanel.Candidate (IndexState PageMeta contains noindexMeta insertNoindex)
open MegaPanel.Rendering (Dict escape pageUrl)

variable {tools : Tools} {input : BuildInput}

/-- The directories that a build fills itself. -/
def generatedSlugs : List String := "sitemap" :: legalSlugs

/-! ## The paths of a build -/

variable {slug slug' : String} {e : String × List UInt8}

theorem slash_notMem_index : '/' ∉ "index.html".toList := by decide

/-- The path of a page is not one of the others' files, nor a file beside the pages. -/
theorem outputPath_eq_pageFile {file : String} (hfile : '/' ∉ file.toList) :
    pageFile slug' file = outputPath slug ↔ slugParts slug' = slugParts slug ∧ file = "index.html" :=
  pageFile_inj hfile slash_notMem_index

/-- The files beside the pages, by directory and name. -/
def fixedFiles : List (String × String) :=
  [("", "robots.txt"), ("", "sitemap.xml"), ("sitemap", "index.html"), ("sitemap", "index.html.gz"),
    ("privacy", "index.html"), ("terms", "index.html"), ("cookie-policy", "index.html"),
    ("", "cookie-banner.js"), ("", "site-panel-telemetry.js")]

/-- A file beside the pages. -/
def IsFixed (path : String) : Prop := ∃ e ∈ fixedFiles, path = pageFile e.1 e.2

theorem isFixed_paths : ∀ path ∈ ["robots.txt", "sitemap.xml", "sitemap/index.html",
    "sitemap/index.html.gz", "privacy/index.html", "terms/index.html", "cookie-policy/index.html",
    "cookie-banner.js", "site-panel-telemetry.js"], IsFixed path := by
  unfold IsFixed
  decide

theorem fixedFiles_cases : ∀ e ∈ fixedFiles, '/' ∉ e.2.toList ∧ ValidSlug e.1 ∧
    (e.2 = "index.html" → stripSlashes e.1 ∈ generatedSlugs) := by
  decide

/-- Only the page of a generated directory is written to a file beside the pages. -/
theorem generated_of_isFixed (hvalid : ValidSlug slug) (h : IsFixed (outputPath slug)) :
    stripSlashes slug ∈ generatedSlugs := by
  obtain ⟨e, he, hpath⟩ := h
  obtain ⟨hfile, hvalid', hgenerated⟩ := fixedFiles_cases e he
  obtain ⟨hparts, hindex⟩ := (outputPath_eq_pageFile hfile).mp hpath.symm
  rw [← stripSlashes_eq_of_slugParts hvalid' hvalid hparts]
  exact hgenerated hindex

/-- A path ends with its last name. -/
theorem suffix_pathOf (names : List (List Char)) (name : List Char) :
    name <:+ (pathOf (names ++ [name])).toList := by
  rw [pathOf, String.toList_ofList]
  induction names with
  | nil => rw [List.nil_append, List.intercalate_singleton]
  | cons first rest ih =>
    rw [List.cons_append, List.intercalate_cons_of_ne_nil (by simp)]
    exact ih.trans (List.suffix_append _ _)

/-- Every asset has its digest for a name. -/
theorem copyLoop_paths {copied copied' : Copied} {assets : List BuildAsset}
    (hpaths : ∀ e ∈ copied.files, ".webp".toList <:+ e.1.toList)
    (h : copyLoop copied assets = .ok copied') : ∀ e ∈ copied'.files, ".webp".toList <:+ e.1.toList := by
  induction assets generalizing copied with
  | nil =>
    cases h
    exact hpaths
  | cons asset assets ih =>
    rw [copyLoop] at h
    dsimp only at h
    split at h
    · cases h
    refine ih (fun e he => ?_) h
    dsimp only at he
    split at he
    · exact hpaths e he
    rcases List.mem_append.mp he with he | he
    · exact hpaths e he
    · rw [List.mem_singleton.mp he, String.toList_append]
      exact List.suffix_append _ _

theorem copied_ne_index {copied : Copied} (h : copyAssets input.assets = .ok copied)
    (he : e ∈ copied.files) {name : List Char} {names : List (List Char)}
    (hname : ¬ ".webp".toList <:+ name) (hlong : 5 ≤ name.length) :
    e.1 ≠ pathOf (names ++ [name]) := by
  intro heq
  have hwebp := copyLoop_paths (fun e he => absurd he List.not_mem_nil) h e he
  rw [heq] at hwebp
  rcases List.suffix_or_suffix_of_suffix hwebp (suffix_pathOf names name) with hs | hs
  · exact hname hs
  · exact hname (hs.eq_of_length (le_antisymm hs.length_le hlong) ▸ List.suffix_rfl)

/-! ## The files of the pages -/

variable {copied : Copied}

theorem mem_allPageWrites :
    e ∈ allPageWrites tools input (builtPages tools input copied.urls) ↔
      ∃ page ∈ input.site.pages, e ∈ pageWrites tools.toEnv
        (buildContext input.site input.context) input.compress page
        (builtPage tools.toEnv input.site (buildContext input.site input.context)
          input.indexStates copied.urls page).html := by
  rw [allPageWrites, builtPages, ← List.map_prod_left_eq_zip, List.flatMap_map, List.mem_flatMap]

variable {env : Env} {ctx : Context} {page : PageManifest} {html : String}

/-- The text of a page goes to one path only. -/
theorem pageWrites_index {compress : Bool} (he : e ∈ pageWrites env ctx compress page html)
    (hpath : e.1 = outputPath slug) : slugParts page.slug = slugParts slug ∧ e.2 = utf8 html := by
  have hother : ∀ file, '/' ∉ file.toList → file ≠ "index.html" →
      pageFile page.slug file ≠ outputPath slug :=
    fun file hfile hne heq => hne ((outputPath_eq_pageFile hfile).mp heq).2
  simp only [pageWrites, List.mem_append, List.mem_cons, List.not_mem_nil, or_false] at he
  rcases he with (((( rfl | rfl) | he) | he) | he) | he
  · exact ⟨((outputPath_eq_pageFile slash_notMem_index).mp hpath).1, rfl⟩
  · exact absurd hpath (hother _ (by decide) (by decide))
  all_goals
    split at he
    · rw [List.mem_singleton.mp he] at hpath
      exact absurd hpath (hother _ (by decide) (by decide))
    · exact absurd he List.not_mem_nil

/-! ## The files beside the pages -/

variable {built : List BuiltPage} {urls : List (String × String)}

/-- A document of the legal pack. -/
def IsLegal (text : String) : Prop :=
  ∃ title faviconUrl token body, text = legalDocument title faviconUrl token body

/-- What the legal pack writes. -/
theorem legalWrites_ok {legal : Writes} (h : legalWrites tools input copied.urls = .ok legal) :
    ∃ privacy terms cookies, IsLegal privacy ∧ IsLegal terms ∧ IsLegal cookies ∧
      legal = [("privacy/index.html", utf8 privacy), ("terms/index.html", utf8 terms),
        ("cookie-policy/index.html", utf8 cookies),
        ("cookie-banner.js", utf8 tools.cookieBannerJs)] := by
  unfold legalWrites writeLegalPack at h
  split at h
  · cases h
  · cases h
    exact ⟨_, _, _, ⟨_, _, _, _, rfl⟩, ⟨_, _, _, _, rfl⟩, ⟨_, _, _, _, rfl⟩, rfl⟩

theorem isFixed_of_mem_legal {legal : Writes} (h : legalWrites tools input copied.urls = .ok legal)
    (he : e ∈ legal) : IsFixed e.1 := by
  obtain ⟨_, _, _, -, -, -, rfl⟩ := legalWrites_ok h
  simp only [List.mem_cons, List.not_mem_nil, or_false] at he
  rcases he with rfl | rfl | rfl | rfl <;> exact isFixed_paths _ (by simp)

theorem isFixed_of_mem_telemetry (he : e ∈ telemetryWrites tools input) : IsFixed e.1 := by
  unfold telemetryWrites at he
  split at he
  · rw [List.mem_singleton.mp he]
    exact isFixed_paths _ (by simp)
  · exact absurd he List.not_mem_nil

theorem isFixed_of_mem_sitemaps (he : e ∈ sitemapWrites tools input urls built) : IsFixed e.1 := by
  unfold sitemapWrites at he
  dsimp only at he
  rcases List.mem_append.mp he with he | he
  · simp only [List.mem_cons, List.not_mem_nil, or_false] at he
    rcases he with rfl | rfl | rfl <;> exact isFixed_paths _ (by simp)
  · split at he
    · rw [List.mem_singleton.mp he]
      exact isFixed_paths _ (by simp)
    · exact absurd he List.not_mem_nil

/-! ## What is at the path of a page -/

variable {legal : Writes}

/-- The page as it is built. -/
def builtOf (tools : Tools) (input : BuildInput) (copied : Copied) (page : PageManifest) :
    BuiltPage :=
  builtPage tools.toEnv input.site (buildContext input.site input.context) input.indexStates
    copied.urls page

theorem slug_builtOf (page : PageManifest) :
    (builtOf tools input copied page).item.slug = page.slug := slug_builtPage

theorem hash_builtOf (page : PageManifest) : (builtOf tools input copied page).item.hash =
    Candidate.contentHash (builtOf tools input copied page).html := hash_builtPage

/-- Among the pages, only the page itself is written to its path. -/
theorem eq_html_of_path (hcopied : copyAssets input.assets = .ok copied)
    (hvalid : ∀ page ∈ input.site.pages, ValidSlug page.slug)
    (hdistinct : (input.site.pages.map (fun page => stripSlashes page.slug)).Nodup)
    (hpage : page ∈ input.site.pages)
    (he : e ∈ copied.files ++ allPageWrites tools input (builtPages tools input copied.urls))
    (hpath : e.1 = outputPath page.slug) : e.2 = utf8 (builtOf tools input copied page).html := by
  rcases List.mem_append.mp he with he | he
  · exact absurd hpath (copied_ne_index hcopied he (by decide) (by decide))
  obtain ⟨page', hpage', he⟩ := mem_allPageWrites.mp he
  obtain ⟨hparts, hcontent⟩ := pageWrites_index he hpath
  have hsame := List.inj_on_of_nodup_map hdistinct hpage' hpage
    (stripSlashes_eq_of_slugParts (hvalid page' hpage') (hvalid page hpage) hparts)
  rw [hcontent, hsame]
  rfl

theorem page_written (hpage : page ∈ input.site.pages) :
    (outputPath page.slug, utf8 (builtOf tools input copied page).html) ∈
      copied.files ++ allPageWrites tools input (builtPages tools input copied.urls) :=
  List.mem_append_right _ (mem_allPageWrites.mpr ⟨page, hpage, by simp [pageWrites, builtOf]⟩)

theorem file_of_page (hcopied : copyAssets input.assets = .ok copied)
    (hlegal : legalWrites tools input copied.urls = .ok legal)
    (hvalid : ∀ page ∈ input.site.pages, ValidSlug page.slug)
    (hdistinct : (input.site.pages.map (fun page => stripSlashes page.slug)).Nodup)
    (hpage : page ∈ input.site.pages) (hown : stripSlashes page.slug ∉ generatedSlugs) :
    dictGet (finalWrites tools input copied legal) (outputPath page.slug) =
      some (utf8 (builtOf tools input copied page).html) := by
  have hfixed : ∀ {e : String × List UInt8}, IsFixed e.1 → e.1 ≠ outputPath page.slug := by
    intro e he heq
    exact hown (generated_of_isFixed (hvalid page hpage) (heq ▸ he))
  refine dictGet_eq_some_of_unique ?_ (fun e he hpath => ?_)
  · simp only [finalWrites, checkedWrites]
    exact List.mem_append_left _ (List.mem_append_left _ (List.mem_append_left _
      (page_written hpage)))
  · simp only [finalWrites, checkedWrites] at he
    rcases List.mem_append.mp he with he | he
    · rcases List.mem_append.mp he with he | he
      · rcases List.mem_append.mp he with he | he
        · exact eq_html_of_path hcopied hvalid hdistinct hpage he hpath
        · exact absurd hpath (hfixed (isFixed_of_mem_sitemaps he))
      · exact absurd hpath (hfixed (isFixed_of_mem_legal hlegal he))
    · exact absurd hpath (hfixed (isFixed_of_mem_telemetry he))

/-- Of the pages, only the one at `sitemap` is overwritten before the check. -/
theorem slug_of_mem_sitemaps (he : e ∈ sitemapWrites tools input urls built)
    (hvalid : ValidSlug slug) (hpath : e.1 = outputPath slug) : stripSlashes slug = "sitemap" := by
  have hfiles : ∀ f ∈ [("", "robots.txt"), ("", "sitemap.xml"), ("sitemap", "index.html"),
      ("sitemap", "index.html.gz")], '/' ∉ f.2.toList ∧ ValidSlug f.1 ∧
        (f.2 = "index.html" → stripSlashes f.1 = "sitemap") := by decide
  have hpaths : "robots.txt" = pageFile "" "robots.txt" ∧ "sitemap.xml" = pageFile "" "sitemap.xml" ∧
      "sitemap/index.html" = pageFile "sitemap" "index.html" ∧
      "sitemap/index.html.gz" = pageFile "sitemap" "index.html.gz" := by decide
  have hmem : ∃ f ∈ [("", "robots.txt"), ("", "sitemap.xml"), ("sitemap", "index.html"),
      ("sitemap", "index.html.gz")], e.1 = pageFile f.1 f.2 := by
    unfold sitemapWrites at he
    dsimp only at he
    rcases List.mem_append.mp he with he | he
    · simp only [List.mem_cons, List.not_mem_nil, or_false] at he
      rcases he with rfl | rfl | rfl
      · exact ⟨("", "robots.txt"), by simp, hpaths.1⟩
      · exact ⟨("", "sitemap.xml"), by simp, hpaths.2.1⟩
      · exact ⟨("sitemap", "index.html"), by simp, hpaths.2.2.1⟩
    · split at he
      · rw [List.mem_singleton.mp he]
        exact ⟨("sitemap", "index.html.gz"), by simp, hpaths.2.2.2⟩
      · exact absurd he List.not_mem_nil
  obtain ⟨f, hf, heq⟩ := hmem
  obtain ⟨hslash, hvalid', hsitemap⟩ := hfiles f hf
  obtain ⟨hparts, hindex⟩ := (outputPath_eq_pageFile hslash).mp (heq.symm.trans hpath)
  rw [← stripSlashes_eq_of_slugParts hvalid' hvalid hparts]
  exact hsitemap hindex

theorem checked_file_of_page (hcopied : copyAssets input.assets = .ok copied)
    (hvalid : ∀ page ∈ input.site.pages, ValidSlug page.slug)
    (hdistinct : (input.site.pages.map (fun page => stripSlashes page.slug)).Nodup)
    {page : PageManifest} (hpage : page ∈ input.site.pages)
    (hown : stripSlashes page.slug ≠ "sitemap") :
    dictGet (checkedWrites tools input copied) (outputPath page.slug) =
      some (utf8 (builtOf tools input copied page).html) := by
  refine dictGet_eq_some_of_unique (List.mem_append_left _ (page_written hpage))
    (fun e he hpath => ?_)
  rcases List.mem_append.mp he with he | he
  · exact eq_html_of_path hcopied hvalid hdistinct hpage he hpath
  · exact absurd (slug_of_mem_sitemaps he (hvalid page hpage) hpath) hown

/-- The path of a page depends on the trimmed slug only. -/
theorem outputPath_congr (h : stripSlashes slug = stripSlashes slug') :
    outputPath slug = outputPath slug' := by
  rw [outputPath, outputPath, pageFile, pageFile, slugParts, slugParts, h]

variable {path : String}

/-- What a page writes has one of these names. -/
theorem pageWrites_name {compress : Bool} (he : e ∈ pageWrites env ctx compress page html) :
    ∃ file ∈ ["index.html", "cookie-banner.js", "site-panel-telemetry.js", "site-panel-captcha.js",
      "site-panel-leads.js", "index.html.gz"], e.1 = pageFile page.slug file := by
  simp only [pageWrites, List.mem_append, List.mem_cons, List.not_mem_nil, or_false] at he
  rcases he with (((( rfl | rfl) | he) | he) | he) | he
  · exact ⟨"index.html", by simp, rfl⟩
  · exact ⟨"cookie-banner.js", by simp, rfl⟩
  all_goals
    split at he
    · rw [List.mem_singleton.mp he]
      exact ⟨_, by simp, rfl⟩
    · exact absurd he List.not_mem_nil

/-- Only the sitemap is written to its path. -/
theorem eq_sitemap_of_path (hcopied : copyAssets input.assets = .ok copied)
    (hlegal : legalWrites tools input copied.urls = .ok legal)
    (he : e ∈ finalWrites tools input copied legal) (hpath : e.1 = "sitemap.xml") :
    e.2 = utf8 (renderSitemap input.site.domain
      (indexedPaths (builtPages tools input copied.urls))) := by
  simp only [finalWrites, checkedWrites, List.mem_append] at he
  rcases he with ((((he | he) | he) | he) | he)
  · have hpathOf : "sitemap.xml" = pathOf ([] ++ ["sitemap.xml".toList]) := by decide
    exact absurd (hpath.trans hpathOf) (copied_ne_index hcopied he (by decide) (by decide))
  · obtain ⟨page, -, he⟩ := mem_allPageWrites.mp he
    obtain ⟨file, hfile, heq⟩ := pageWrites_name he
    have hnames : ∀ file ∈ ["index.html", "cookie-banner.js", "site-panel-telemetry.js",
        "site-panel-captcha.js", "site-panel-leads.js", "index.html.gz"],
        '/' ∉ file.toList ∧ file ≠ "sitemap.xml" := by decide
    have hroot : "sitemap.xml" = pageFile "" "sitemap.xml" := by decide
    have hsame := (pageFile_inj (hnames file hfile).1 (by decide)).mp
      (heq.symm.trans (hpath.trans hroot))
    exact absurd hsame.2 (hnames file hfile).2
  · unfold sitemapWrites at he
    dsimp only at he
    rcases List.mem_append.mp he with he | he
    · simp only [List.mem_cons, List.not_mem_nil, or_false] at he
      rcases he with rfl | rfl | rfl
      · dsimp only at hpath
        exact absurd hpath (by decide)
      · rfl
      · dsimp only at hpath
        exact absurd hpath (by decide)
    · split at he
      · rw [List.mem_singleton.mp he] at hpath
        dsimp only at hpath
        exact absurd hpath (by decide)
      · exact absurd he List.not_mem_nil
  · obtain ⟨_, _, _, -, -, -, rfl⟩ := legalWrites_ok hlegal
    simp only [List.mem_cons, List.not_mem_nil, or_false] at he
    rcases he with rfl | rfl | rfl | rfl <;> dsimp only at hpath <;>
      exact absurd hpath (by decide)
  · unfold telemetryWrites at he
    split at he
    · rw [List.mem_singleton.mp he] at hpath
      dsimp only at hpath
      exact absurd hpath (by decide)
    · exact absurd he List.not_mem_nil

/-- The sitemap as it is checked and as it is released. -/
theorem sitemap_file (hcopied : copyAssets input.assets = .ok copied)
    (hlegal : legalWrites tools input copied.urls = .ok legal) {writes : Writes}
    (hchecked : checkedWrites tools input copied ⊆ writes)
    (hfinal : writes ⊆ finalWrites tools input copied legal) :
    dictGet writes "sitemap.xml" = some (utf8 (renderSitemap input.site.domain
      (indexedPaths (builtPages tools input copied.urls)))) := by
  refine dictGet_eq_some_of_unique (hchecked ?_)
    (fun e he => eq_sitemap_of_path hcopied hlegal (hfinal he))
  exact List.mem_append_right _ (List.mem_append_left _ (List.mem_cons_of_mem _ List.mem_cons_self))

theorem checkedWrites_subset :
    checkedWrites tools input copied ⊆ finalWrites tools input copied legal := by
  intro e he
  exact List.mem_append_left _ (List.mem_append_left _ he)

theorem readFile_of_utf8 {files : Writes} {text : String}
    (h : dictGet files path = some (utf8 text)) : readFile files path = .ok (newlines text) := by
  rw [readFile, h]
  dsimp only
  rw [readText_utf8]

/-- The sitemap of a release lists the indexed pages. -/
theorem listed_of_staged {staged : Staged} (h : StagedFrom tools input staged copied legal) :
    ∃ urls, tools.locs (newlines (renderSitemap input.site.domain
        (indexedPaths (builtPages tools input copied.urls)))) = some urls ∧
      ∀ url, url ∈ urls ↔ url ∈ indexedUrls input.site.domain (staged.built.map (·.item)) := by
  have hvalid := h.valid
  unfold validateReleaseArtifacts at hvalid
  rw [readFile_of_utf8 (sitemap_file h.copying h.pack (List.Subset.refl _) checkedWrites_subset)]
    at hvalid
  dsimp only at hvalid
  split at hvalid
  · cases hvalid
  · next urls hlocs =>
    refine ⟨urls, hlocs, fun url => ?_⟩
    split_ifs at hvalid with hsame
    rw [Bool.not_eq_true', Bool.not_eq_false, sameSet, Bool.and_eq_true, List.all_eq_true,
      List.all_eq_true] at hsame
    exact ⟨fun hurl => of_decide_eq_true (hsame.1 url hurl),
      fun hurl => of_decide_eq_true (hsame.2 url hurl)⟩

/-! ## What is at a path of the release -/

theorem suffix_outputPath (slug : String) : "index.html".toList <:+ (outputPath slug).toList :=
  suffix_pathOf _ _

theorem outputPath_notMem_metadataPaths (slug : String) : outputPath slug ∉ metadataPaths := by
  intro hmem
  have hends : ∀ path ∈ metadataPaths, ¬ "index.html".toList <:+ path.toList := by decide
  exact hends _ hmem (suffix_outputPath slug)

end MegaPanel.StaticSite
