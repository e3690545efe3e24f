import MegaPanel.StaticSite.Anatomy
import MegaPanel.StaticSite.Links
import MegaPanel.StaticSite.Success

set_option autoImplicit false

/-! # Builder and check

The check reads a page in text mode, where a carriage return becomes a line feed, and counts and
hashes what it has read; the build has counted and hashed what it wrote. So the two agree on a
release if and only if no page has a carriage return, and the URL of each page stands in its head
as the check expects it, and nowhere else as a canonical link (`verify_release_iff`).
-/

namespace MegaPanel.StaticSite

open MegaPanel.Lib MegaPanel.Lib.Text
open MegaPanel.Candidate (IndexState PageMeta canonicalPagePath contains noindexMeta field sameText
  isText checkItem checkItems checkPage validatePageMetadataSnapshot)
open MegaPanel.Rendering (escape escapeChar pageUrl)

/-! ## URLs that escaping leaves as they are -/

variable {domain slug path : String}

/-- Escaping adds semicolons, unless it changes nothing. -/
theorem count_escape (text : List Char) : text.count ';' ≤ (text.flatMap escapeChar).count ';' ∧
    ((text.flatMap escapeChar).count ';' = text.count ';' → text.flatMap escapeChar = text) := by
  induction text with
  | nil => exact ⟨le_rfl, fun _ => rfl⟩
  | cons c cs ih =>
    have hchar : escapeChar c = [c] ∨ 1 ≤ (escapeChar c).count ';' ∧ c ≠ ';' := by
      unfold escapeChar
      split_ifs with h₁ h₂ h₃ h₄ h₅
      · exact .inr ⟨by decide, by rw [h₁]; decide⟩
      · exact .inr ⟨by decide, by rw [h₂]; decide⟩
      · exact .inr ⟨by decide, by rw [h₃]; decide⟩
      · exact .inr ⟨by decide, by rw [h₄]; decide⟩
      · exact .inr ⟨by decide, by rw [h₅]; decide⟩
      · exact .inl rfl
    rw [List.flatMap_cons, List.count_append, List.count_cons]
    rcases hchar with hsame | ⟨hadded, hne⟩
    · rw [hsame, List.count_singleton]
      refine ⟨by omega, fun heq => ?_⟩
      rw [ih.2 (by omega), List.singleton_append]
    · have hzero : (if c == ';' then 1 else 0) = 0 := if_neg (by simpa using hne)
      rw [hzero]
      exact ⟨by omega, fun heq => absurd heq (by omega)⟩

/-- The URL of a page, from its path. -/
theorem pageUrl_eq (domain slug : String) : pageUrl domain slug =
    "https://" ++ stripSlashes (strip domain) ++
      if stripSlashes slug = "" then "/" else "/" ++ stripSlashes slug ++ "/" := by
  unfold pageUrl
  dsimp only
  split
  · rfl
  · simp only [String.append_assoc]

/-- Where the escaped URL has the domain in it as it is, the domain is a plain host. -/
theorem url_eq_of_escape_eq
    (hpath : path = if stripSlashes slug = "" then "/" else "/" ++ stripSlashes slug ++ "/")
    (h : escape (pageUrl domain slug) = "https://" ++ domain ++ path) :
    pageUrl domain slug = "https://" ++ domain ++ path ∧
      escape (pageUrl domain slug) = pageUrl domain slug := by
  have hcount : (escape (pageUrl domain slug)).toList.count ';' =
      (pageUrl domain slug).toList.count ';' := by
    rw [h, pageUrl_eq, ← hpath]
    have hhost : (stripSlashes (strip domain)).toList.count ';' = domain.toList.count ';' := by
      have hslashes := @count_stripBy (· == '/') ';' (by decide) (strip domain).toList
      have hspaces := @count_stripBy isSpace ';' (by decide) domain.toList
      rw [stripSlashes, String.toList_ofList, hslashes, strip, String.toList_ofList, hspaces]
    simp only [String.toList_append, List.count_append]
    rw [hhost]
  have hsame : escape (pageUrl domain slug) = pageUrl domain slug := by
    rw [← String.toList_inj]
    rw [escape, String.toList_ofList] at hcount ⊢
    exact (count_escape _).2 hcount
  exact ⟨hsame.symm.trans h, hsame⟩

/-! ## The metadata of a build -/

def pageJson (item : PageMeta) : Json := .dict item.entries

/-- `json.loads` of what `pages_meta.json` is written from. -/
def pagesJson (items : List PageMeta) : Json := .list (items.map pageJson)

theorem sameInt_int (m n : Nat) : sameInt m (.int n) = decide (m = n) := by
  rw [sameInt, decide_eq_decide, Nat.cast_inj]
  exact eq_comm

theorem sameInt_self (n : Nat) : sameInt n (.int n) = true := by
  rw [sameInt_int]
  exact decide_eq_true rfl

theorem sameText_self (s : String) : sameText (.str s) (.str s) = true := decide_eq_true rfl

theorem sameText_str (s t : String) : sameText (.str s) (.str t) = decide (s = t) := rfl

/-- The fields of the object of a page. -/
theorem field_entries (item : PageMeta) :
    field item.entries "slug" = .str item.slug ∧
      field item.entries "index_state" = .str item.indexState.value ∧
      field item.entries "content_chars" = .int item.contentChars ∧
      field item.entries "hash" = .str item.hash := by
  simp [field, PageMeta.entries, Json.get?]

/-- What the check of the metadata asks of the report of a page. -/
structure ItemAccepted (item : PageMeta) : Prop where
  path_eq : canonicalPagePath item.slug = .ok item.path
  hash_format : Sha256.isSha256 item.hash = true
  thin_noindex : item.thin = true → item.indexState = .noindex

theorem checkItem_pageJson {seen : List String} {item : PageMeta} (h : ItemAccepted item)
    (hnew : item.slug ∉ seen) : checkItem seen (pageJson item) = .ok item.slug := by
  have hkeys : Json.hasKeys item.entries Candidate.requiredFields = true := by
    simp [Json.hasKeys, PageMeta.entries, Candidate.requiredFields, Json.get?]
  have hpromoted : field item.entries "promoted_at" = .null := by
    simp [field, PageMeta.entries, Json.get?]
  have hsource : Json.get? item.entries "source_hash" = none := by
    simp [PageMeta.entries, Json.get?]
  have hpromotion : field item.entries "index_promotion" = .null := by
    simp [field, PageMeta.entries, Json.get?]
  have hpage := (Candidate.checkPage_entries seen item [] item.slug).mpr
    ⟨rfl, hnew, h.path_eq, h.hash_format, h.thin_noindex⟩
  rw [List.append_nil] at hpage
  rw [pageJson, checkItem, hkeys, hpromoted, hsource, hpromotion, hpage]
  simp [Candidate.isNone]

theorem checkItems_pagesJson {items : List PageMeta} (h : ∀ item ∈ items, ItemAccepted item)
    {seen : List (String × Json)}
    (hn : (seen.map (·.1) ++ items.map (·.slug)).Nodup) :
    checkItems seen (items.map pageJson) =
      .ok (seen ++ items.map (fun item => (item.slug, pageJson item))) := by
  induction items generalizing seen with
  | nil => rw [List.map_nil, checkItems, List.map_nil, List.append_nil]
  | cons item items ih =>
    have hnew : item.slug ∉ seen.map (·.1) := by
      intro hmem
      exact (List.nodup_append.mp hn).2.2 _ hmem _ (by simp) rfl
    rw [List.map_cons, checkItems, checkItem_pageJson (h item List.mem_cons_self) hnew]
    dsimp only
    rw [ih (fun i hi => h i (List.mem_cons_of_mem _ hi)), List.map_cons, List.append_assoc,
      List.singleton_append]
    simpa using hn

/-- The metadata of pages with different slugs are accepted for these slugs. -/
theorem checkedMetadata_pagesJson {site : SiteManifest} {items : List PageMeta}
    (h : ∀ item ∈ items, ItemAccepted item) (hn : (items.map (·.slug)).Nodup)
    (hslugs : items.map (·.slug) = site.pages.map (·.slug)) :
    checkedMetadata site (pagesJson items) =
      .ok (items.map (fun item => (item.slug, pageJson item))) := by
  have hall : (items.map (·.slug)).all (· ∈ items.map (·.slug)) = true :=
    List.all_eq_true.mpr (fun slug hslug => decide_eq_true hslug)
  have hkeys : (items.map (fun item => (item.slug, pageJson item))).map (·.1) =
      items.map (·.slug) := by
    rw [List.map_map]
    rfl
  rw [checkedMetadata_eq_ok, pagesJson, validatePageMetadataSnapshot,
    @checkItems_pagesJson items h [] (by simpa using hn), List.nil_append]
  dsimp only
  rw [hkeys, ← hslugs, hall]
  rfl

/-! ## The release of a build -/

variable {r : ReleaseDirectory} {data : List UInt8} {text : String}

/-- The directory of a release, as the check sees it. -/
def ReleaseDirectory.artifacts (r : ReleaseDirectory) (path : String) : Artifact :=
  match dictGet r.files path with
  | none => .missing
  | some data => .file data

theorem artifacts_eq_file : r.artifacts path = .file data ↔ dictGet r.files path = some data := by
  rw [ReleaseDirectory.artifacts]
  cases dictGet r.files path with
  | none => exact iff_of_false nofun nofun
  | some data' => rw [Artifact.file.injEq, Option.some.injEq]

theorem hasText_of_utf8 {text' : String} (h : dictGet r.files path = some (utf8 text)) :
    HasText r.artifacts path text' ↔ text' = newlines text := by
  constructor
  · rintro ⟨data, hfile, hread⟩
    rw [artifacts_eq_file, h, Option.some.injEq] at hfile
    rw [← hfile, readText_utf8, Option.some.injEq] at hread
    exact hread.symm
  · rintro rfl
    exact ⟨utf8 text, artifacts_eq_file.mpr h, readText_utf8 text⟩

/-- The row of a build, when its pages are counted in it. -/
def buildRow (input : BuildInput) (result : Result) : BuildRow where
  siteId := input.site.siteId
  tenantId := input.site.tenantId
  buildHash := some result.buildHash
  manifest := some input.site
  pagesBuilt := result.pages.length

/-- `json.loads` gives back what `json.dumps` was given, and its text has no carriage return. -/
def ReadsBack (tools : Tools) (loads : String → Option Json) (items : List PageMeta) : Prop :=
  '\r' ∉ (tools.pagesIndented items).toList ∧
    loads (tools.pagesIndented items) = some (pagesJson items)

variable {tools : Tools} {input : BuildInput} {copied : Copied} {legal : Writes}

/-- The sitemap of a build, if it can be read, has one text for each URL written. -/
def CountsUrls (tools : Tools) (input : BuildInput) : Prop :=
  ∀ copied, copyAssets input.assets = .ok copied → ∀ urls,
    tools.locs (newlines (renderSitemap input.site.domain
      (indexedPaths (builtPages tools input copied.urls)))) = some urls →
    urls.length = (indexedPaths (builtPages tools input copied.urls)).length

/-- The text of a page as it is written. -/
def renderedPage (tools : Tools) (input : BuildInput) (page : PageManifest) : String :=
  match copyAssets input.assets with
  | .ok copied => (builtOf tools input copied page).html
  | .error _ => ""

theorem renderedPage_eq (h : copyAssets input.assets = .ok copied) (page : PageManifest) :
    renderedPage tools input page = (builtOf tools input copied page).html := by
  rw [renderedPage, h]

/-- The pages as they are written, and as they are read back. -/
def pageMessages (tools : Tools) (input : BuildInput) : Set (List UInt8) :=
  {m | ∃ page ∈ input.site.pages, m = utf8 (renderedPage tools input page) ∨
    m = utf8 (newlines (renderedPage tools input page))}

/-- A site whose release is read back as it was built: each page has a URL of the plain domain, no
carriage return, and no canonical link behind that of its head. -/
structure Verifiable (tools : Tools) (input : BuildInput) : Prop where
  url : ∀ page ∈ input.site.pages, ∀ path, canonicalPagePath page.slug = .ok path →
    pageUrl input.site.domain page.slug = "https://" ++ input.site.domain ++ path ∧
      escape (pageUrl input.site.domain page.slug) = pageUrl input.site.domain page.slug
  noReturn : ∀ page ∈ input.site.pages, '\r' ∉ (renderedPage tools input page).toList
  noLink : ∀ page ∈ input.site.pages, canonicalUrls (behindHead input.site
    (buildContext input.site input.context) page (renderedPage tools input page)) = []

theorem canonicalUrls_builtOf (page : PageManifest) :
    canonicalUrls (builtOf tools input copied page).html.toList =
      escape (pageUrl input.site.domain page.slug) ::
        canonicalUrls (behindHead input.site (buildContext input.site input.context) page
          (builtOf tools input copied page).html) := canonicalUrls_page

variable {page : PageManifest}

/-- What the build has checked of the robots tag. -/
theorem robots_of_staged {staged : Staged} (hfrom : StagedFrom tools input staged copied legal)
    (hvalid : ∀ page ∈ input.site.pages, ValidSlug page.slug)
    (hdistinct : (input.site.pages.map (fun page => stripSlashes page.slug)).Nodup)
    (hpage : page ∈ input.site.pages) (hown : stripSlashes page.slug ∉ generatedSlugs) :
    contains (newlines (builtOf tools input copied page).html) noindexMeta =
      !decide ((builtOf tools input copied page).item.indexState = .indexed) := by
  have hcheck := hfrom.valid
  unfold validateReleaseArtifacts at hcheck
  split at hcheck
  · cases hcheck
  split at hcheck
  · cases hcheck
  split at hcheck
  · cases hcheck
  rw [forM_eq_ok, hfrom.built] at hcheck
  have hitem : (builtOf tools input copied page).item ∈
      (builtPages tools input copied.urls).map (·.item) :=
    List.mem_map_of_mem (List.mem_map_of_mem hpage)
  have hfile := @checked_file_of_page tools input copied hfrom.copying hvalid hdistinct page hpage
    (fun hsitemap => hown (hsitemap ▸ List.mem_cons_self))
  have hvalidated := hcheck _ hitem
  rw [validatePage, slug_builtOf, readFile_of_utf8 hfile] at hvalidated
  dsimp only at hvalidated
  split at hvalidated
  · cases hvalidated
  split at hvalidated
  · cases hvalidated
  split at hvalidated
  · cases hvalidated
  · next hindexed hother =>
    cases hcontains : contains (newlines (builtOf tools input copied page).html) noindexMeta with
    | true =>
      rw [hcontains, Bool.and_true] at hindexed
      rw [decide_eq_false (by simpa using hindexed), Bool.not_false]
    | false =>
      rw [hcontains, Bool.not_false, Bool.and_true] at hother
      have hstate : (builtOf tools input copied page).item.indexState = .indexed := by
        simpa using hother
      rw [decide_eq_true hstate, Bool.not_true]

/-! ## Builds are verified -/

/-- A build into an empty directory, of a site whose slugs have canonical paths, all different and
none of them the build's own. -/
structure FreshBuild (tools : Tools) (input : BuildInput) (result : Result) : Prop where
  canonical : ∀ page ∈ input.site.pages, ∃ path, canonicalPagePath page.slug = .ok path
  distinct : (input.site.pages.map (fun page => canonicalPagePath page.slug)).Nodup
  own : ∀ page ∈ input.site.pages, stripSlashes page.slug ∉ generatedSlugs
  built : ∃ releases, build tools [] input = .ok (releases, result)

variable {result : Result}

theorem FreshBuild.valid (h : FreshBuild tools input result) :
    ∀ page ∈ input.site.pages, ValidSlug page.slug := by
  intro page hpage
  obtain ⟨path, hpath⟩ := h.canonical page hpage
  exact (validSlug_of_canonical hpath).1

theorem FreshBuild.stripped (h : FreshBuild tools input result) :
    (input.site.pages.map (fun page => stripSlashes page.slug)).Nodup := by
  have hpaths : input.site.pages.map (fun page => canonicalPagePath page.slug) =
      (input.site.pages.map (fun page => stripSlashes page.slug)).map (fun slug =>
        .ok (if slug = "" then "/" else "/" ++ slug ++ "/")) := by
    rw [List.map_map]
    refine List.map_congr_left (fun page hpage => ?_)
    obtain ⟨path, hpath⟩ := h.canonical page hpage
    rw [hpath, (validSlug_of_canonical hpath).2]
    rfl
  exact (hpaths ▸ h.distinct).of_map

/-- What the release of a fresh build is made of. -/
structure Fresh (tools : Tools) (input : BuildInput) (result : Result) (staged : Staged)
    (copied : Copied) (legal : Writes) : Prop where
  staging : StagedFrom tools input staged copied legal
  release : result.release = staged.release tools
  buildHash : result.buildHash = (staged.release tools).name
  pages : result.pages = (input.site.pages.map (builtOf tools input copied)).map (·.item)

theorem FreshBuild.fresh (h : FreshBuild tools input result) :
    ∃ staged copied legal, Fresh tools input result staged copied legal := by
  obtain ⟨releases, hbuild⟩ := h.built
  obtain ⟨staged, hstage, hhash, hpages, hcase⟩ := build_ok hbuild
  obtain ⟨copied, legal, hfrom⟩ := stage_ok hstage
  rcases hcase with ⟨hrelease, -⟩ | ⟨hmem, -⟩
  · exact ⟨staged, copied, legal, hfrom, hrelease, hhash, by rw [hpages, hfrom.built]; rfl⟩
  · exact absurd hmem List.not_mem_nil

variable {staged : Staged}

theorem Fresh.file (h : Fresh tools input result staged copied legal)
    (hpath : path ∉ metadataPaths) :
    dictGet result.release.files path = dictGet (finalWrites tools input copied legal) path := by
  rw [h.release, ReleaseDirectory.dictGet_files _ hpath, ← h.staging.file]
  rfl

theorem Fresh.page_file (h : Fresh tools input result staged copied legal)
    (hbuild : FreshBuild tools input result) (hpage : page ∈ input.site.pages) :
    result.release.artifacts (outputPath page.slug) =
      .file (utf8 (builtOf tools input copied page).html) := by
  rw [artifacts_eq_file, h.file (outputPath_notMem_metadataPaths _)]
  exact file_of_page h.staging.copying h.staging.pack hbuild.valid hbuild.stripped hpage
    (hbuild.own page hpage)

/-- A page of a fresh build is read back with its line ends changed. -/
theorem Fresh.hasText (h : Fresh tools input result staged copied legal)
    (hbuild : FreshBuild tools input result) (hpage : page ∈ input.site.pages)
    (hpath : canonicalPagePath page.slug = .ok path) :
    HasText result.release.artifacts (outputPath path) text ↔
      text = newlines (builtOf tools input copied page).html := by
  have hstripped : stripSlashes path = stripSlashes page.slug := by
    rw [(validSlug_of_canonical hpath).2]
    split
    · next hempty =>
      rw [hempty]
      decide
    · exact stripSlashes_wrap page.slug
  rw [outputPath_congr hstripped]
  exact hasText_of_utf8 (artifacts_eq_file.mp (h.page_file hbuild hpage))

/-- The page and its report, in the words of the check. -/
theorem pageVerified_iff (h : Fresh tools input result staged copied legal)
    (hbuild : FreshBuild tools input result)
    (hfree : Sha256.CollisionFree (pageMessages tools input)) (hpage : page ∈ input.site.pages)
    (hpath : canonicalPagePath page.slug = .ok path) :
    PageVerified input.site.domain result.release.artifacts page.slug
        (builtOf tools input copied page).item.entries path text ↔
      text = (builtOf tools input copied page).html ∧
        '\r' ∉ (builtOf tools input copied page).html.toList ∧
        canonicalUrls (builtOf tools input copied page).html.toList =
          ["https://" ++ input.site.domain ++ path] := by
  obtain ⟨-, hstate, hchars, hhash⟩ := field_entries (builtOf tools input copied page).item
  have hcontents : (builtOf tools input copied page).item.contentChars =
      (builtOf tools input copied page).html.length := chars_builtPage
  have hrobots := robots_of_staged h.staging hbuild.valid hbuild.stripped hpage
    (hbuild.own page hpage)
  have hindexed : isText (field (builtOf tools input copied page).item.entries "index_state")
      (· = "indexed") = decide ((builtOf tools input copied page).item.indexState = .indexed) := by
    rw [hstate, Candidate.isText_str, decide_eq_decide]
    exact Candidate.value_eq_indexed _
  constructor
  · intro hverified
    have htext := (h.hasText hbuild hpage hpath).mp hverified.text
    have hsame : text = (builtOf tools input copied page).html := by
      have hdigest := hverified.hash
      rw [hhash, sameText_str, decide_eq_true_iff, hash_builtOf] at hdigest
      have hmem : ∀ t, t = (builtOf tools input copied page).html ∨
          t = newlines (builtOf tools input copied page).html →
          utf8 t ∈ pageMessages tools input := by
        intro t ht
        refine ⟨page, hpage, ?_⟩
        rw [renderedPage_eq h.staging.copying]
        exact ht.imp (congrArg utf8) (congrArg utf8)
      exact utf8_injective (hfree (hmem _ (.inr htext)) (hmem _ (.inl rfl))
        (Sha256.hexdigest_inj.mp hdigest))
    refine ⟨hsame, ?_, hsame ▸ hverified.canonical⟩
    exact newlines_eq_self_iff.mp (htext.symm.trans hsame)
  · rintro ⟨hsame, hreturn, hcanonical⟩
    have hnewlines := newlines_eq_self_iff.mpr hreturn
    rw [hsame]
    refine ⟨hpath, ?_, ?_, ?_, hcanonical, ?_⟩
    · exact (h.hasText hbuild hpage hpath).mpr hnewlines.symm
    · rw [hchars, hcontents]
      exact sameInt_self _
    · rw [hhash, hash_builtOf]
      exact sameText_self _
    · rw [hindexed, ← hrobots, hnewlines]

/-- A hash is read back as it was written. -/
theorem hash_read_back {hash : String} (h : Sha256.isSha256 hash = true) :
    newlines hash = hash ∧ strip hash = hash := by
  have hchars := List.all_eq_true.mp (Bool.and_eq_true_iff.mp h).2
  constructor
  · refine newlines_eq_self_iff.mpr (fun hreturn => ?_)
    exact absurd (hchars _ hreturn) (by decide)
  · rw [strip, stripBy_eq_self, String.ofList_toList]
    intro c hc
    have hhex := hchars c hc
    simp only [Sha256.isHexChar, Bool.or_eq_true, Bool.and_eq_true, decide_eq_true_eq, Char.le_def,
      UInt32.le_iff_toNat_le] at hhex
    have hbound : 48 ≤ c.toNat ∧ c.toNat ≤ 102 := by
      rcases hhex with ⟨hlow, hhigh⟩ | ⟨hlow, hhigh⟩
      · exact ⟨hlow, hhigh.trans (by decide)⟩
      · exact ⟨le_trans (by decide) hlow, hhigh⟩
    simp [isSpace]
    omega

variable {loads : String → Option Json}

/-- What the check finds beside the pages of a fresh release. -/
theorem Fresh.storedMetadata_eq (h : Fresh tools input result staged copied legal)
    (hjson : ReadsBack tools loads result.pages) :
    storedMetadata loads result.buildHash result.release.artifacts =
      .ok (pagesJson result.pages) := by
  have hformat : Sha256.isSha256 (staged.release tools).name = true :=
    Sha256.isSha256_sha256Hex _
  have hname := hash_read_back hformat
  have hmarker : dictGet result.release.files "BUILD_HASH" = some (utf8 result.release.name) := by
    rw [ReleaseDirectory.files, dictGet_append]
    simp [dictGet]
  have hmetadata : dictGet result.release.files "pages_meta.json" =
      some (utf8 result.release.pagesIndented) := by
    rw [ReleaseDirectory.files, dictGet_append]
    simp [dictGet]
  have hindented : result.release.pagesIndented = tools.pagesIndented result.pages := by
    rw [h.release, h.pages, Staged.release, h.staging.built]
    rfl
  refine storedMetadata_eq_ok.mpr ⟨result.release.name, tools.pagesIndented result.pages, ?_, ?_,
    ?_, hjson.2⟩
  · rw [hasText_of_utf8 hmarker, h.release, hname.1]
  · rw [hasText_of_utf8 hmetadata, hindented, newlines_eq_self_iff.mpr hjson.1]
  · rw [h.release, hname.2, h.buildHash]

/-- The reports of a fresh build are in order. -/
theorem Fresh.items_accepted (h : Fresh tools input result staged copied legal)
    (hbuild : FreshBuild tools input result) : ∀ item ∈ result.pages, ItemAccepted item := by
  intro item hitem
  rw [h.pages, List.map_map, List.mem_map] at hitem
  obtain ⟨page, hpage, rfl⟩ := hitem
  obtain ⟨path, hpath⟩ := hbuild.canonical page hpage
  have hitempath : (builtOf tools input copied page).item.path =
      if stripSlashes page.slug = "" then "/" else "/" ++ stripSlashes page.slug ++ "/" :=
    path_builtPage
  refine ⟨?_, ?_, ?_⟩
  · show canonicalPagePath (builtOf tools input copied page).item.slug = _
    rw [slug_builtOf, hpath, (validSlug_of_canonical hpath).2, ← hitempath]
    rfl
  · show Sha256.isSha256 (builtOf tools input copied page).item.hash = true
    rw [hash_builtOf]
    exact Sha256.isSha256_sha256Hex _
  · show (builtOf tools input copied page).item.thin = true → _
    intro hthin
    have hstate : (builtOf tools input copied page).item.indexState = _ := state_builtPage
    rw [← builtOf, hthin, if_pos rfl] at hstate
    exact hstate

/-- What the loop of the check makes of a page. -/
def expectedUrl (domain : String) (item : PageMeta) : Option String :=
  if item.indexState = .indexed then some ("https://" ++ domain ++ item.path) else none

theorem filterMap_expectedUrl (domain : String) (items : List PageMeta) :
    (items.map (expectedUrl domain)).filterMap id =
      (items.filter (fun item => item.indexState = .indexed)).map
        (fun item => "https://" ++ domain ++ item.path) := by
  induction items with
  | nil => rfl
  | cons item items ih =>
    rw [List.map_cons, expectedUrl]
    by_cases hindexed : item.indexState = .indexed
    · rw [if_pos hindexed, List.filter_cons, if_pos (decide_eq_true hindexed), List.map_cons, ← ih]
      rfl
    · rw [if_neg hindexed, List.filter_cons, if_neg (by simpa using hindexed), ← ih]
      rfl

theorem canonical_builtOf (hpath : canonicalPagePath page.slug = .ok path) :
    (builtOf tools input copied page).item.path = path := by
  have hitempath : (builtOf tools input copied page).item.path = _ := path_builtPage
  rw [hitempath, (validSlug_of_canonical hpath).2]

theorem Fresh.paths_nodup (h : Fresh tools input result staged copied legal)
    (hbuild : FreshBuild tools input result) : (result.pages.map (·.path)).Nodup := by
  have hpaths : input.site.pages.map (fun page => canonicalPagePath page.slug) =
      (result.pages.map (·.path)).map .ok := by
    rw [h.pages, List.map_map, List.map_map, List.map_map]
    refine List.map_congr_left (fun page hpage => ?_)
    obtain ⟨path, hpath⟩ := hbuild.canonical page hpage
    rw [hpath, Function.comp_apply, Function.comp_apply, Function.comp_apply,
      canonical_builtOf hpath]
  exact (hpaths ▸ hbuild.distinct).of_map

/-- Of pages in order, the sitemap has the URL of each indexed one, once. -/
theorem Fresh.sitemap_verified (h : Fresh tools input result staged copied legal)
    (hbuild : FreshBuild tools input result) (hlocs : CountsUrls tools input)
    (hurl : ∀ page ∈ input.site.pages, ∀ path, canonicalPagePath page.slug = .ok path →
      pageUrl input.site.domain page.slug = "https://" ++ input.site.domain ++ path) :
    verifySitemap tools.locs result.release.artifacts
      ((result.pages.map (expectedUrl input.site.domain)).filterMap id) = .ok () := by
  obtain ⟨urls, hread, hurls⟩ := listed_of_staged h.staging
  have hfile : dictGet result.release.files "sitemap.xml" = some (utf8 (renderSitemap
      input.site.domain (indexedPaths (builtPages tools input copied.urls)))) := by
    rw [h.file (by decide)]
    exact sitemap_file h.staging.copying h.staging.pack checkedWrites_subset (List.Subset.refl _)
  have hpages : result.pages = staged.built.map (·.item) := by
    rw [h.pages, h.staging.built]
    rfl
  have hsame : ∀ item ∈ result.pages, pageUrl input.site.domain item.path =
      "https://" ++ input.site.domain ++ item.path := by
    intro item hitem
    rw [h.pages, List.map_map, List.mem_map] at hitem
    obtain ⟨page, hpage, rfl⟩ := hitem
    obtain ⟨path, hpath⟩ := hbuild.canonical page hpage
    have hstripped : stripSlashes path = stripSlashes page.slug := by
      rw [(validSlug_of_canonical hpath).2]
      split
      · next hempty =>
        rw [hempty]
        decide
      · exact stripSlashes_wrap page.slug
    have hitempath : (builtOf tools input copied page).item.path = path := canonical_builtOf hpath
    rw [Function.comp_apply, hitempath, ← hurl page hpage path hpath, pageUrl_eq, pageUrl_eq,
      hstripped]
  have hexpected : (result.pages.map (expectedUrl input.site.domain)).filterMap id =
      indexedUrls input.site.domain result.pages := by
    rw [filterMap_expectedUrl, indexedUrls]
    refine List.map_congr_left (fun item hitem => ?_)
    exact (hsame item (List.mem_of_mem_filter hitem)).symm
  have hnodup : ((result.pages.map (expectedUrl input.site.domain)).filterMap id).Nodup := by
    have hfiltered : ((result.pages.filter (fun item => item.indexState = .indexed)).map
        (·.path)).Nodup := (h.paths_nodup hbuild).sublist (List.filter_sublist.map _)
    have hinj : Function.Injective (fun path => "https://" ++ input.site.domain ++ path) := by
      intro path path' heq
      have hlist := congrArg String.toList heq
      simp only [String.toList_append, List.append_cancel_left_eq] at hlist
      exact String.toList_inj.mp hlist
    have hmap := hfiltered.map hinj
    rw [List.map_map] at hmap
    rw [filterMap_expectedUrl]
    exact hmap
  refine verifySitemap_eq_ok.mpr ⟨_, urls, (hasText_of_utf8 hfile).mpr rfl, hread, ?_, ?_⟩
  · rw [sameSet, Bool.and_eq_true, List.all_eq_true, List.all_eq_true, hexpected, hpages]
    exact ⟨fun url hmem => decide_eq_true ((hurls url).mp hmem),
      fun url hmem => decide_eq_true ((hurls url).mpr hmem)⟩
  · rw [hnodup.dedup, filterMap_expectedUrl, List.length_map, hpages, h.staging.built,
      List.filter_map, List.length_map, hlocs _ h.staging.copying _ hread, indexedPaths, List.length_map]
    rfl

/-- The metadata of a fresh build pass the check. -/
theorem Fresh.checked (h : Fresh tools input result staged copied legal)
    (hbuild : FreshBuild tools input result) :
    checkedMetadata input.site (pagesJson result.pages) =
      .ok (result.pages.map (fun item => (item.slug, pageJson item))) := by
  have hslugs : result.pages.map (·.slug) = input.site.pages.map (·.slug) := by
    rw [h.pages, List.map_map, List.map_map]
    exact List.map_congr_left (fun page _ => slug_builtOf page)
  have hdistinct : (result.pages.map (·.slug)).Nodup := by
    rw [hslugs]
    have hpaths := hbuild.distinct
    rw [← Function.comp_def canonicalPagePath (fun page : PageManifest => page.slug),
      ← List.map_map] at hpaths
    exact hpaths.of_map
  exact checkedMetadata_pagesJson (h.items_accepted hbuild) hdistinct hslugs

/-- Of a fresh release that is verified, every page has passed. -/
theorem Fresh.passed (h : Fresh tools input result staged copied legal)
    (hbuild : FreshBuild tools input result)
    (hverified : verifyRelease loads tools.locs (buildRow input result)
      (.directory result.release.artifacts) = .ok (pagesJson result.pages))
    (hpage : page ∈ input.site.pages) (hpath : canonicalPagePath page.slug = .ok path) :
    ∃ html, PageVerified input.site.domain result.release.artifacts page.slug
      (builtOf tools input copied page).item.entries path html := by
  obtain ⟨buildHash, manifest, artifacts, bySlug, indexed, hv⟩ := verifyRelease_eq_ok.mp hverified
  have hmanifest : manifest = input.site := (Option.some.inj hv.snapshot).symm
  have hartifacts : artifacts = result.release.artifacts :=
    (ReleaseRoot.directory.inj hv.directory).symm
  have hchecked := hv.items
  rw [hmanifest, h.checked hbuild] at hchecked
  have hpages := hv.pages
  rw [hmanifest, hartifacts, ← Except.ok.inj hchecked] at hpages
  have hmember : (builtOf tools input copied page).item ∈ result.pages := by
    rw [h.pages, List.map_map]
    exact List.mem_map_of_mem hpage
  obtain ⟨url, hurl⟩ := mapM_isOk_iff.mp ⟨indexed, hpages⟩ _ (List.mem_map_of_mem hmember)
  obtain ⟨path', html, hpage', -⟩ := verifyPage_eq_ok.mp hurl
  have hslug := @slug_builtOf tools input copied page
  rw [hslug] at hpage'
  cases hpath.symm.trans hpage'.path_eq
  exact ⟨html, hpage'⟩

/-- **A fresh release is verified if and only if its site is verifiable.** -/
theorem verify_fresh_iff (hbuild : FreshBuild tools input result)
    (hfree : Sha256.CollisionFree (pageMessages tools input))
    (hjson : ReadsBack tools loads result.pages) (hlocs : CountsUrls tools input) :
    verifyRelease loads tools.locs (buildRow input result)
        (.directory result.release.artifacts) = .ok (pagesJson result.pages) ↔
      Verifiable tools input := by
  obtain ⟨staged, copied, legal, h⟩ := hbuild.fresh
  constructor
  · intro hverified
    have hpassed : ∀ page ∈ input.site.pages, ∀ path, canonicalPagePath page.slug = .ok path →
        '\r' ∉ (builtOf tools input copied page).html.toList ∧
          canonicalUrls (builtOf tools input copied page).html.toList =
            ["https://" ++ input.site.domain ++ path] := by
      intro page hpage path hpath
      obtain ⟨html, hpage'⟩ := h.passed hbuild hverified hpage hpath
      exact ((pageVerified_iff h hbuild hfree hpage hpath).mp hpage').2
    refine ⟨fun page hpage path hpath => ?_, fun page hpage => ?_, fun page hpage => ?_⟩
    · obtain ⟨-, hlinks⟩ := hpassed page hpage path hpath
      rw [canonicalUrls_builtOf, List.cons_eq_cons] at hlinks
      exact url_eq_of_escape_eq (validSlug_of_canonical hpath).2 hlinks.1
    · obtain ⟨path, hpath⟩ := hbuild.canonical page hpage
      rw [renderedPage_eq h.staging.copying]
      exact (hpassed page hpage path hpath).1
    · obtain ⟨path, hpath⟩ := hbuild.canonical page hpage
      obtain ⟨-, hlinks⟩ := hpassed page hpage path hpath
      rw [canonicalUrls_builtOf, List.cons_eq_cons] at hlinks
      rw [renderedPage_eq h.staging.copying]
      exact hlinks.2
  · intro hverifiable
    have hformat : Sha256.isSha256 result.buildHash = true := by
      rw [h.buildHash]
      exact Sha256.isSha256_sha256Hex _
    refine verifyRelease_eq_ok.mpr ⟨result.buildHash, input.site, result.release.artifacts, _, _,
      ⟨rfl, hformat⟩, rfl,
      ⟨rfl, rfl⟩, rfl, h.storedMetadata_eq hjson, h.checked hbuild, .inr ?_,
      mapM_map_of_ok (fun item hitem => ?_), h.sitemap_verified hbuild hlocs
        (fun page hpage path hpath => (hverifiable.url page hpage path hpath).1)⟩
    · rw [pagesJson, itemCount, List.length_map]
      rfl
    · rw [h.pages, List.map_map, List.mem_map] at hitem
      obtain ⟨page, hpage, rfl⟩ := hitem
      obtain ⟨path, hpath⟩ := hbuild.canonical page hpage
      obtain ⟨hurl, hescape⟩ := hverifiable.url page hpage path hpath
      have hreturn := hverifiable.noReturn page hpage
      have hlinks := hverifiable.noLink page hpage
      rw [renderedPage_eq h.staging.copying] at hreturn hlinks
      have hverified := (pageVerified_iff h hbuild hfree hpage hpath).mpr ⟨rfl, hreturn, by
        rw [canonicalUrls_builtOf, hlinks, hescape, hurl]⟩
      have hpath' : (builtOf tools input copied page).item.path = path := canonical_builtOf hpath
      show verifyPage input.site.domain result.release.artifacts
        ((builtOf tools input copied page).item.slug, pageJson (builtOf tools input copied page).item)
          = .ok (expectedUrl input.site.domain (builtOf tools input copied page).item)
      rw [slug_builtOf]
      refine verifyPage_eq_ok.mpr ⟨path, _, hverified, ?_⟩
      rw [expectedUrl, hpath', pageJson, itemEntries, (field_entries _).2.1, Candidate.isText_str]
      simp only [Candidate.value_eq_indexed, decide_eq_true_eq]

/-! ## Any release -/

variable {manifest : SiteManifest} {raw v : Json} {bySlug : List (String × Json)}
  {locs : String → Option (List String)} {artifacts : String → Artifact}

/-- Each page is recorded with the hash of the bytes in its file, and the sitemap has the URL of
each page recorded as indexed, once, and no other. -/
structure Genuine (locs : String → Option (List String)) (manifest : SiteManifest)
    (artifacts : String → Artifact) (bySlug : List (String × Json)) : Prop where
  recorded : ∀ slug, slug ∈ manifest.pages.map (·.slug) ↔ slug ∈ bySlug.map (·.1)
  bytes : ∀ turn ∈ bySlug, ∃ data, artifacts (outputPath turn.1) = .file data ∧
    field (itemEntries turn.2) "hash" = .str (Sha256.hexdigest data)
  sitemap : ∃ text urls, HasText artifacts "sitemap.xml" text ∧ locs text = some urls ∧
    urls.Nodup ∧ ∀ url, url ∈ urls ↔ ∃ turn ∈ bySlug, ∃ path,
      canonicalPagePath turn.1 = .ok path ∧
        field (itemEntries turn.2) "index_state" = .str "indexed" ∧
        url = "https://" ++ manifest.domain ++ path

/-- The pages of a release, as they are and as they are read. -/
def storedMessages (manifest : SiteManifest) (artifacts : String → Artifact) : Set (List UInt8) :=
  {m | ∃ page ∈ manifest.pages, ∃ text, artifacts (outputPath page.slug) = .file (utf8 text) ∧
    (m = utf8 text ∨ m = utf8 (newlines text))}

/-- No page of the release has a carriage return. -/
def NoReturns (manifest : SiteManifest) (artifacts : String → Artifact) : Prop :=
  ∀ page ∈ manifest.pages, ∀ text, artifacts (outputPath page.slug) = .file (utf8 text) →
    '\r' ∉ text.toList

theorem recorded_of_checked (h : checkedMetadata manifest raw = .ok bySlug) (slug : String) :
    slug ∈ manifest.pages.map (·.slug) ↔ slug ∈ bySlug.map (·.1) := by
  rw [checkedMetadata_eq_ok] at h
  unfold validatePageMetadataSnapshot at h
  split at h
  · split at h
    · cases h
    · split at h
      · next hsome => cases hsome
      · next expected hsome =>
        cases hsome
        dsimp only at h
        split at h
        · next hsame =>
          cases h
          rw [Bool.and_eq_true, List.all_eq_true, List.all_eq_true] at hsame
          exact ⟨fun hmem => of_decide_eq_true (hsame.2 slug hmem),
            fun hmem => of_decide_eq_true (hsame.1 slug hmem)⟩
        · cases h
  · cases h

theorem outputPath_canonical (h : canonicalPagePath slug = .ok path) :
    outputPath path = outputPath slug := by
  refine outputPath_congr ?_
  rw [(validSlug_of_canonical h).2]
  split
  · next hempty =>
    rw [hempty]
    decide
  · exact stripSlashes_wrap slug

theorem sameText_eq_true {s : String} (h : sameText (.str s) v = true) : v = .str s := by
  unfold sameText at h
  rw [Candidate.isText_str] at h
  cases v with
  | str t => rw [Candidate.isText_str, decide_eq_true_iff] at h; rw [h]
  | null | bool b | int n | float text | list items | dict entries => cases h

theorem isIndexed_iff : isText v (· = "indexed") = true ↔ v = .str "indexed" := by
  cases v with
  | str t => rw [Candidate.isText_str, decide_eq_true_iff, Json.str.injEq]
  | null | bool b | int n | float text | list items | dict entries => exact iff_of_false nofun nofun

theorem readText_eq_some {html : String} (h : readText data = some html) :
    ∃ text, data = utf8 text ∧ html = newlines text := by
  obtain ⟨text, hdecoded, rfl⟩ := Option.map_eq_some_iff.mp h
  exact ⟨text, (decodeUtf8_eq_some.mp hdecoded).symm, rfl⟩

/-- Lists of the same values are of one length without repetition only if they have none. -/
theorem nodup_of_length {xs ys : List String} (hsame : sameSet xs ys = true)
    (hlength : xs.length = ys.dedup.length) : xs.Nodup := by
  rw [sameSet, Bool.and_eq_true, List.all_eq_true, List.all_eq_true] at hsame
  have hperm : xs.dedup.Perm ys.dedup := by
    refine (List.perm_ext_iff_of_nodup (List.nodup_dedup _) (List.nodup_dedup _)).mpr (fun x => ?_)
    rw [List.mem_dedup, List.mem_dedup]
    exact ⟨fun hx => of_decide_eq_true (hsame.1 x hx), fun hx => of_decide_eq_true (hsame.2 x hx)⟩
  rw [← (List.dedup_sublist xs).eq_of_length (hperm.length_eq.trans hlength.symm)]
  exact List.nodup_dedup xs

/-- The sitemap of a verified release. -/
theorem sitemap_of_verified {indexed : List (Option String)}
    (hpages : bySlug.mapM (verifyPage domain artifacts) = .ok indexed)
    (hsitemap : verifySitemap locs artifacts (indexed.filterMap id) = .ok ()) :
    ∃ text urls, HasText artifacts "sitemap.xml" text ∧ locs text = some urls ∧ urls.Nodup ∧
      ∀ url, url ∈ urls ↔ ∃ turn ∈ bySlug, ∃ path, canonicalPagePath turn.1 = .ok path ∧
        field (itemEntries turn.2) "index_state" = .str "indexed" ∧
        url = "https://" ++ domain ++ path := by
  obtain ⟨text, urls, htext, hlocs, hsame, hlength⟩ := verifySitemap_eq_ok.mp hsitemap
  refine ⟨text, urls, htext, hlocs, nodup_of_length hsame hlength, fun url => ?_⟩
  have hmem : url ∈ urls ↔ url ∈ indexed.filterMap id := by
    rw [sameSet, Bool.and_eq_true, List.all_eq_true, List.all_eq_true] at hsame
    exact ⟨fun hx => of_decide_eq_true (hsame.1 url hx), fun hx => of_decide_eq_true (hsame.2 url hx)⟩
  have hvalue : indexed = bySlug.map (fun turn =>
      if isText (field (itemEntries turn.2) "index_state") (· = "indexed") then
        (canonicalPagePath turn.1).toOption.map (fun path => "https://" ++ domain ++ path)
      else none) := by
    refine mapM_ok hpages _ (fun turn _ value hturn => ?_)
    obtain ⟨path, html, hverified, rfl⟩ := verifyPage_eq_ok.mp hturn
    rw [hverified.path_eq]
    rfl
  rw [hmem, hvalue, List.filterMap_map, List.mem_filterMap]
  refine exists_congr (fun turn => and_congr_right (fun _ => ?_))
  rw [Function.comp_apply, id_eq]
  constructor
  · intro hturn
    split at hturn
    · next hindexed =>
      obtain ⟨path, hpath, rfl⟩ := Option.map_eq_some_iff.mp hturn
      exact ⟨path, toOption_eq_some.mp hpath, isIndexed_iff.mp hindexed, rfl⟩
    · cases hturn
  · rintro ⟨path, hpath, hindexed, rfl⟩
    rw [isIndexed_iff.mpr hindexed, if_pos rfl, hpath]
    rfl

/-- **The pages of a verified release are those that were hashed if and only if none has a carriage
return.** Its sitemap is right in any case. -/
theorem genuine_iff {loads : String → Option Json} {row : BuildRow}
    (hmanifest : row.manifest = some manifest)
    (hverified : verifyRelease loads locs row (.directory artifacts) = .ok raw)
    (hitems : checkedMetadata manifest raw = .ok bySlug)
    (hfree : Sha256.CollisionFree (storedMessages manifest artifacts)) :
    Genuine locs manifest artifacts bySlug ↔ NoReturns manifest artifacts := by
  obtain ⟨buildHash, manifest', artifacts', bySlug', indexed, hv⟩ :=
    verifyRelease_eq_ok.mp hverified
  cases hmanifest.symm.trans hv.snapshot
  cases ReleaseRoot.directory.inj hv.directory
  cases hitems.symm.trans hv.items
  have hpage : ∀ turn ∈ bySlug, ∃ path html, PageVerified manifest.domain artifacts turn.1
      (itemEntries turn.2) path html := by
    intro turn hturn
    obtain ⟨url, hurl⟩ := mapM_isOk_iff.mp ⟨indexed, hv.pages⟩ turn hturn
    obtain ⟨path, html, hverified, -⟩ := verifyPage_eq_ok.mp hurl
    exact ⟨path, html, hverified⟩
  have hrecorded := recorded_of_checked hitems
  -- what is in the file of a page, and the hash that is recorded for it
  have hfile : ∀ turn ∈ bySlug, ∃ text, artifacts (outputPath turn.1) = .file (utf8 text) ∧
      field (itemEntries turn.2) "hash" = .str (Candidate.contentHash (newlines text)) := by
    intro turn hturn
    obtain ⟨path, html, hverified⟩ := hpage turn hturn
    obtain ⟨data, hdata, hread⟩ := hverified.text
    obtain ⟨text, rfl, rfl⟩ := readText_eq_some hread
    rw [outputPath_canonical hverified.path_eq] at hdata
    exact ⟨text, hdata, sameText_eq_true hverified.hash⟩
  constructor
  · intro hgenuine page hmem text htext
    have hslug := (hrecorded page.slug).mp (List.mem_map_of_mem hmem)
    obtain ⟨turn, hturn, hkey⟩ := List.mem_map.mp hslug
    obtain ⟨text', htext', hhash⟩ := hfile turn hturn
    obtain ⟨data, hdata, hrecordedHash⟩ := hgenuine.bytes turn hturn
    rw [hkey, htext, Artifact.file.injEq] at htext' hdata
    cases utf8_injective htext'
    rw [hhash, ← hdata, Json.str.injEq] at hrecordedHash
    have hsame := hfree ⟨page, hmem, text, htext, .inr rfl⟩ ⟨page, hmem, text, htext, .inl rfl⟩
      (Sha256.hexdigest_inj.mp hrecordedHash)
    exact newlines_eq_self_iff.mp (utf8_injective hsame)
  · intro hreturns
    refine ⟨hrecorded, fun turn hturn => ?_, sitemap_of_verified hv.pages hv.sitemap⟩
    obtain ⟨text, htext, hhash⟩ := hfile turn hturn
    obtain ⟨page, hmem, hkey⟩ := List.mem_map.mp
      ((hrecorded turn.1).mpr (List.mem_map_of_mem hturn))
    have hreturn := hreturns page hmem text (by rw [hkey]; exact htext)
    refine ⟨utf8 text, htext, ?_⟩
    rw [hhash, newlines_eq_self_iff.mpr hreturn]
    rfl

/-! ## The theorem -/

/-- **Builder and check agree up to carriage returns and canonical links.** A fresh release is
verified if and only if each of its pages has the plain URL, no carriage return, and no further
canonical link; and the pages of a release that is verified are those that were hashed if and only
if none has a carriage return. -/
theorem verify_release_iff (tools : Tools) (loads : String → Option Json) :
    (∀ input result, FreshBuild tools input result →
      Sha256.CollisionFree (pageMessages tools input) → ReadsBack tools loads result.pages →
      CountsUrls tools input →
      (verifyRelease loads tools.locs (buildRow input result)
          (.directory result.release.artifacts) = .ok (pagesJson result.pages) ↔
        Verifiable tools input)) ∧
    ∀ row manifest artifacts raw bySlug, row.manifest = some manifest →
      verifyRelease loads tools.locs row (.directory artifacts) = .ok raw →
      checkedMetadata manifest raw = .ok bySlug →
      Sha256.CollisionFree (storedMessages manifest artifacts) →
      (Genuine tools.locs manifest artifacts bySlug ↔ NoReturns manifest artifacts) :=
  ⟨fun _ _ hbuild hfree hjson hlocs => verify_fresh_iff hbuild hfree hjson hlocs,
    fun _ _ _ _ _ hmanifest hverified hitems hfree =>
      genuine_iff hmanifest hverified hitems hfree⟩

/-- The context of the plain site. -/
def plainContext : Context := buildContext (plainSite "/remont") ⟨[], [], 30, 365⟩

/-- The page of the plain site behind the start of its head. -/
def plainRest : List Char :=
  "  <style>".toList ++ ((pageCss (plainSite "/remont") (plainPage "/remont")).toList ++
    ("</style>\n".toList ++ (schemaTag "\x7b\x7d").toList ++ robotsText .noindex ++
      "</head>\n".toList ++ insertAll
        (allInsertions plainTools.toEnv (plainSite "/remont") plainContext [] (plainPage "/remont")
          .noindex)
        (pageBody plainTools.toEnv (plainSite "/remont") plainContext []
          (plainPage "/remont")).toList))

theorem plain_pageCss : ∀ c ∈ (pageCss (plainSite "/remont") (plainPage "/remont")).toList,
    c ≠ '<' ∧ c ≠ '\r' := by
  have hcss : pageCss (plainSite "/remont") (plainPage "/remont") =
      ":root \x7b" ++ "\n" ++ ("\x7d" ++ "\n" ++ Rendering.baseCss) := rfl
  rw [hcss]
  simp only [String.toList_append, List.forall_mem_append]
  exact ⟨⟨by decide, by decide⟩, ⟨by decide, by decide⟩, plain_baseCss⟩

theorem plain_page_eq :
    (renderedPage plainTools (plainInput "/remont") (plainPage "/remont")).toList =
      (headStart (plainSite "/remont") plainContext (plainPage "/remont")).toList ++ plainRest := by
  have hunindexed : Unindexed plainTools (plainInput "/remont") := unindexed_plain (by simp)
  have hstate : (builtOf plainTools (plainInput "/remont") ⟨[], [], []⟩
      (plainPage "/remont")).item.indexState = .noindex := by
    rw [builtOf, state_builtPage]
    split
    · rfl
    · rfl
  have hcss : Quiet (pageCss (plainSite "/remont") (plainPage "/remont")).toList :=
    quiet_of_notMem (fun h => (plain_pageCss _ h).1 rfl)
  have hstart : (styleStart (plainSite "/remont") plainContext [] (plainPage "/remont")).toList =
      (headStart (plainSite "/remont") plainContext (plainPage "/remont")).toList ++
        "  <style>".toList := by
    have hfavicon : Rendering.faviconHtml (plainSite "/remont").toSiteManifest
        (relativeMediaUrls [] (plainPage "/remont").slug) = "" := rfl
    rw [styleStart, hfavicon, String.append_empty, String.toList_append]
  have hschema : schemaText plainTools.toEnv (plainSite "/remont") plainContext []
      (plainPage "/remont") = "\x7b\x7d" := rfl
  have hparts := @insertAll_rendered plainTools.toEnv (plainSite "/remont") plainContext []
    (plainPage "/remont") .noindex
  rw [insertAll_quiet (apart_allInsertions _) hcss, hstart, hschema,
    List.append_assoc] at hparts
  rw [renderedPage_eq (copied_of_unindexed hunindexed), builtOf, html_parts, ← builtOf, hstate]
  exact hparts

/-- Behind its head, the plain page has no canonical link and no carriage return. -/
theorem plain_page_verifiable : NoLink plainRest ∧
    '\r' ∉ (renderedPage plainTools (plainInput "/remont") (plainPage "/remont")).toList := by
  have hbody : staysUnder linkOpen (insertAll
        (allInsertions plainTools.toEnv (plainSite "/remont") plainContext [] (plainPage "/remont")
          .noindex)
        (pageBody plainTools.toEnv (plainSite "/remont") plainContext []
          (plainPage "/remont")).toList) = true ∧
      '\r' ∉ insertAll
        (allInsertions plainTools.toEnv (plainSite "/remont") plainContext [] (plainPage "/remont")
          .noindex)
        (pageBody plainTools.toEnv (plainSite "/remont") plainContext []
          (plainPage "/remont")).toList := by
    decide +kernel
  constructor
  · refine NoLink.append (noLink_of_stays (by decide +kernel)) (NoLink.append
      (noLink_of_notMem (fun h => (plain_pageCss _ h).1 rfl)) (NoLink.append (NoLink.append
      (NoLink.append (NoLink.append ?_ ?_) ?_) ?_) (noLink_of_stays hbody.1)))
    · exact noLink_of_stays (by decide +kernel)
    · exact noLink_of_stays (by decide +kernel)
    · exact noLink_of_stays (by decide +kernel)
    · exact noLink_of_stays (by decide +kernel)
  · rw [plain_page_eq, List.mem_append, not_or]
    constructor
    · unfold headStart titleStart
      simp only [String.toList_append, List.mem_append, not_or, and_assoc]
      refine ⟨?_, ?_, ?_, ?_, ?_, ?_, ?_, ?_, ?_, ?_⟩
      all_goals decide +kernel
    · unfold plainRest
      simp only [List.mem_append, not_or, and_assoc]
      refine ⟨?_, fun h => (plain_pageCss _ h).2 rfl, ?_, ?_, ?_, ?_, hbody.2⟩
      all_goals decide +kernel

/-- The release of the plain site is verified, and its page is the one that was hashed. -/
theorem remont_release_verified : ∃ result loads bySlug,
    FreshBuild plainTools (plainInput "/remont") result ∧
    verifyRelease loads plainTools.locs (buildRow (plainInput "/remont") result)
      (.directory result.release.artifacts) = .ok (pagesJson result.pages) ∧
    Genuine plainTools.locs (plainSite "/remont") result.release.artifacts bySlug := by
  have hunindexed : Unindexed plainTools (plainInput "/remont") := unindexed_plain (by simp)
  obtain ⟨releases, result, hresult⟩ := build_of_unindexed hunindexed []
  have hcanonical : canonicalPagePath (plainPage "/remont").slug = .ok "/remont/" := by
    decide +kernel
  have hbuild : FreshBuild plainTools (plainInput "/remont") result := by
    refine ⟨?_, List.nodup_singleton _, ?_, ⟨releases, hresult⟩⟩
    · intro page hpage
      rw [List.mem_singleton.mp hpage]
      exact ⟨_, hcanonical⟩
    · decide +kernel
  obtain ⟨staged, copied, legal, h⟩ := hbuild.fresh
  obtain ⟨hlink, hreturn⟩ := plain_page_verifiable
  have hnewlines := newlines_eq_self_iff.mpr hreturn
  have hfree : Sha256.CollisionFree (pageMessages plainTools (plainInput "/remont")) := by
    have hsame : ∀ m ∈ pageMessages plainTools (plainInput "/remont"),
        m = utf8 (renderedPage plainTools (plainInput "/remont") (plainPage "/remont")) := by
      rintro m ⟨page, hpage, hm⟩
      rw [List.mem_singleton.mp hpage, hnewlines, or_self] at hm
      exact hm
    exact fun m hm m' hm' _ => (hsame m hm).trans (hsame m' hm').symm
  have hverifiable : Verifiable plainTools (plainInput "/remont") := by
    refine ⟨fun page hpage path hpath => ?_, fun page hpage => ?_, fun page hpage => ?_⟩
    all_goals rw [List.mem_singleton.mp hpage]
    · rw [List.mem_singleton.mp hpage] at hpath
      cases hcanonical.symm.trans hpath
      decide +kernel
    · exact hreturn
    · show canonicalUrls (List.drop _ (renderedPage plainTools (plainInput "/remont")
        (plainPage "/remont")).toList) = []
      rw [plain_page_eq]
      have hdrop : List.drop (headStart (plainSite "/remont") plainContext
          (plainPage "/remont")).toList.length ((headStart (plainSite "/remont") plainContext
            (plainPage "/remont")).toList ++ plainRest) = plainRest := List.drop_left
      have hnone := hlink []
      rw [List.append_nil] at hnone
      exact (congrArg canonicalUrls hdrop).trans hnone
  -- a reader that gives back what was written
  have hloads : ReadsBack plainTools (fun text => if text = indentedPages result.pages then
      some (pagesJson result.pages) else none) result.pages :=
    ⟨return_notMem_indentedPages _, if_pos rfl⟩
  have hcounts : CountsUrls plainTools (plainInput "/remont") := by
    intro copied' hcopied urls hurls
    cases (copied_of_unindexed hunindexed).symm.trans hcopied
    have hnil : ([] : List String) = urls := Option.some.inj hurls
    rw [← hnil, indexedPaths, indexed_of_unindexed hunindexed, List.map_nil]
  have hverified := ((verify_release_iff plainTools (fun text =>
    if text = indentedPages result.pages then some (pagesJson result.pages) else none)).1
      (plainInput "/remont") result hbuild hfree hloads hcounts).mpr hverifiable
  have hfile : ∀ page ∈ (plainSite "/remont").pages, ∀ text,
      result.release.artifacts (outputPath page.slug) = .file (utf8 text) →
        text = renderedPage plainTools (plainInput "/remont") (plainPage "/remont") := by
    intro page hpage text htext
    have hpageFile := h.page_file hbuild hpage
    rw [htext, Artifact.file.injEq] at hpageFile
    rw [utf8_injective hpageFile, renderedPage_eq h.staging.copying, List.mem_singleton.mp hpage]
  refine ⟨result, _, result.pages.map (fun item => (item.slug, pageJson item)), hbuild, hverified,
    ?_⟩
  refine ((verify_release_iff plainTools _).2 (buildRow (plainInput "/remont") result)
    (plainSite "/remont") _ _ _ rfl hverified (h.checked hbuild) ?_).mpr ?_
  · have hsame : ∀ m ∈ storedMessages (plainSite "/remont") result.release.artifacts,
        m = utf8 (renderedPage plainTools (plainInput "/remont") (plainPage "/remont")) := by
      rintro m ⟨page, hpage, text, htext, hm⟩
      rw [hfile page hpage text htext, hnewlines, or_self] at hm
      exact hm
    exact fun m hm m' hm' _ => (hsame m hm).trans (hsame m' hm').symm
  · intro page hpage text htext
    rw [hfile page hpage text htext]
    exact hreturn

/-- A page whose title is from a form with two lines. -/
def returnPage : PageManifest :=
  { plainPage "/remont" with titleTemplate := "Ремонт\r\nи отделка" }

def returnInput : BuildInput :=
  { plainInput "/remont" with site := { plainSite "/remont" with pages := [returnPage] } }

/-- The release of a page with a carriage return is refused, whatever `json.loads` does. -/
theorem return_page_refused : ∃ result, FreshBuild plainTools returnInput result ∧
    ∀ loads, verifyRelease loads plainTools.locs (buildRow returnInput result)
      (.directory result.release.artifacts) ≠ .ok (pagesJson result.pages) := by
  have hunindexed : Unindexed plainTools returnInput := by constructor <;> decide +kernel
  obtain ⟨releases, result, hresult⟩ := build_of_unindexed hunindexed []
  have hcanonical : canonicalPagePath returnPage.slug = .ok "/remont/" := by decide +kernel
  have hbuild : FreshBuild plainTools returnInput result := by
    refine ⟨?_, ?_, ?_, ⟨releases, hresult⟩⟩
    · intro page hpage
      rw [List.mem_singleton.mp hpage]
      exact ⟨_, hcanonical⟩
    · exact List.nodup_singleton _
    · decide +kernel
  refine ⟨result, hbuild, fun loads hverified => ?_⟩
  obtain ⟨staged, copied, legal, h⟩ := hbuild.fresh
  obtain ⟨html, hpage⟩ := h.passed hbuild hverified List.mem_cons_self hcanonical
  have htext := (h.hasText hbuild List.mem_cons_self hcanonical).mp hpage.text
  have hchars := hpage.chars
  have hcontents : (builtOf plainTools returnInput copied returnPage).item.contentChars =
      (builtOf plainTools returnInput copied returnPage).html.length := chars_builtPage
  rw [(field_entries _).2.2.1, hcontents, sameInt_int, decide_eq_true_iff, htext] at hchars
  -- the title stands in the head with its line ends
  have htitle : "\r\n".toList <:+: (builtOf plainTools returnInput copied returnPage).html.toList := by
    refine List.IsInfix.trans ?_ headStart_isPrefix.isInfix
    unfold headStart
    simp only [String.toList_append]
    refine List.IsInfix.trans ?_ (List.prefix_append _ _).isInfix
    refine List.IsInfix.trans ?_ (List.prefix_append _ _).isInfix
    refine List.IsInfix.trans ?_ (List.prefix_append _ _).isInfix
    refine List.IsInfix.trans ?_ (List.prefix_append _ _).isInfix
    refine List.IsInfix.trans ?_ (List.prefix_append _ _).isInfix
    refine List.IsInfix.trans ?_ (List.suffix_append _ _).isInfix
    decide +kernel
  exact absurd hchars (length_newlines_lt htitle).ne

end MegaPanel.StaticSite
