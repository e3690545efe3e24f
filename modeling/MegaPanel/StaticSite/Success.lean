import MegaPanel.Lib.JsonText
import MegaPanel.StaticSite.Files

set_option autoImplicit false

/-! # Builds that succeed

The check in the middle of a build accepts the pages that the build has written itself. The
canonical link is in the head, where nothing is inserted before it; and `</head>` is there for the
robots tag to be put before it. So a site of which nothing is to be indexed builds, if its URLs
have no character that `html.escape` changes (`stage_of_unindexed`).
-/

namespace MegaPanel.StaticSite

open MegaPanel.Lib MegaPanel.Lib.Text
open MegaPanel.Candidate (IndexState PageMeta contains noindexMeta insertNoindex)
open MegaPanel.Rendering (Dict escape pageUrl)

/-! ## Texts in a page -/

theorem contains_iff {html text : String} :
    contains html text = true ↔ text.toList <:+: html.toList := by
  rw [contains, List.any_eq_true, List.infix_iff_prefix_suffix]
  constructor
  · rintro ⟨rest, hrest, hprefix⟩
    exact ⟨rest, List.isPrefixOf_iff_prefix.mp hprefix, (List.mem_tails _ _).mp hrest⟩
  · rintro ⟨rest, hprefix, hrest⟩
    exact ⟨rest, (List.mem_tails _ _).mpr hrest, List.isPrefixOf_iff_prefix.mpr hprefix⟩

/-- The canonical link of a URL, as the check looks for it. -/
def canonicalLink (url : String) : String := "<link rel=\"canonical\" href=\"" ++ url ++ "\">"

variable {env : Env} {site : SiteManifest} {ctx : Context} {urls : List (String × String)}
  {indexStates : List (String × IndexState)} {page : PageManifest}

/-- The link is in the page, with the URL escaped. -/
theorem canonicalLink_mem :
    (canonicalLink (escape (pageUrl site.domain page.slug))).toList <:+:
      (builtPage env site ctx indexStates urls page).html.toList := by
  refine List.IsInfix.trans ?_ headStart_isPrefix.isInfix
  have hlink : "\">\n  <link rel=\"canonical\" href=\"".toList =
      "\">\n  ".toList ++ "<link rel=\"canonical\" href=\"".toList := by decide +kernel
  have hclose : "\">\n".toList = "\">".toList ++ "\n".toList := by decide +kernel
  unfold headStart canonicalLink
  simp only [String.toList_append]
  rw [hlink, hclose]
  refine ⟨(titleStart site.locale).toList ++ (escape (pageTitle site ctx page)).toList ++
    "</title>\n  <meta name=\"description\" content=\"".toList ++
    (escape (pageDescription site ctx page)).toList ++ "\">\n  ".toList, "\n".toList, ?_⟩
  simp only [List.append_assoc]

theorem infix_insertTags {kept : List Char} (tags : List String)
    (hstays : staysUnder "</body>".toList ('<' :: kept) = true) {html : String}
    (h : '<' :: kept <:+: html.toList) :
    '<' :: kept <:+:
      (tags.foldl (fun html tag => insertBefore "</body>" tag html) html).toList := by
  induction tags generalizing html with
  | nil => exact h
  | cons tag tags ih =>
    rw [List.foldl_cons]
    refine ih ?_
    rw [insertBefore, String.toList_ofList]
    exact infix_replace_of_stays (by decide) hstays h

/-- What is inserted is there, if the closing tag was. -/
theorem infix_insertBefore {closing text html : String} (hne : closing.toList ≠ [])
    (h : closing.toList <:+: html.toList) :
    (text ++ closing).toList <:+: (insertBefore closing text html).toList := by
  rw [insertBefore, String.toList_ofList]
  exact infix_replace hne h

/-- The end of the head is in the document of a page. -/
theorem closeHead_mem : "</head>".toList <:+: (pageDocument env site ctx urls page).toList := by
  have hrendered : "</head>".toList <:+: (Rendering.renderPage env.sanitize site.toSiteManifest
      page.toPageManifest ctx.entries (relativeMediaUrls urls page.slug)).toList := by
    have hclose : "</style>\n</head>\n".toList =
        "</style>\n".toList ++ "</head>".toList ++ "\n".toList := by decide +kernel
    unfold Rendering.renderPage Rendering.headHtml
    simp only [String.toList_append]
    rw [hclose]
    refine List.IsInfix.trans ?_ (List.prefix_append _ _).isInfix
    refine List.IsInfix.trans ?_ (List.suffix_append _ _).isInfix
    exact ⟨_, _, rfl⟩
  have htags := infix_insertTags (scriptTags ctx page) (by decide +kernel) hrendered
  unfold pageDocument
  refine List.IsInfix.trans ?_ (infix_insertBefore (by decide) htags)
  rw [String.toList_append]
  exact (List.suffix_append _ _).isInfix

/-- A page that is not indexed has the robots tag. -/
theorem noindexMeta_mem
    (hstate : (builtPage env site ctx indexStates urls page).item.indexState ≠ .indexed) :
    noindexMeta.toList <:+: (builtPage env site ctx indexStates urls page).html.toList := by
  rw [html_builtPage, if_pos hstate, insertNoindex, String.toList_ofList]
  refine List.IsInfix.trans ?_ (infix_replace (by decide) closeHead_mem)
  rw [String.toList_append, String.toList_append]
  exact ⟨_, _, rfl⟩

/-! ## The check -/

/-- A URL that stands in an attribute as it is. -/
def IsPlain (url : String) : Prop := escape url = url ∧ '\r' ∉ url.toList ∧ '\n' ∉ url.toList

instance (url : String) : Decidable (IsPlain url) := by unfold IsPlain; infer_instance

/-- The check accepts a page that is not to be indexed. -/
theorem validatePage_of_unindexed {files : Writes}
    (hfile : dictGet files (outputPath page.slug) =
      some (utf8 (builtPage env site ctx indexStates urls page).html))
    (hplain : IsPlain (pageUrl site.domain page.slug))
    (hstate : (builtPage env site ctx indexStates urls page).item.indexState ≠ .indexed) :
    validatePage site files (builtPage env site ctx indexStates urls page).item = .ok () := by
  obtain ⟨hescape, hreturn, hfeed⟩ := hplain
  have hcanonical : contains (newlines (builtPage env site ctx indexStates urls page).html)
      (canonicalLink (pageUrl site.domain page.slug)) = true := by
    have hclean : ∀ c, c ∉ (pageUrl site.domain page.slug).toList →
        c ∉ "<link rel=\"canonical\" href=\"".toList → c ∉ "\">".toList →
        c ∉ (canonicalLink (pageUrl site.domain page.slug)).toList := by
      intro c hurl hopen hclose
      unfold canonicalLink
      rw [String.toList_append, String.toList_append, List.mem_append, List.mem_append]
      exact not_or.mpr ⟨not_or.mpr ⟨hopen, hurl⟩, hclose⟩
    have hne : (canonicalLink (pageUrl site.domain page.slug)).toList ≠ [] := by
      unfold canonicalLink
      rw [String.toList_append]
      exact List.append_ne_nil_of_right_ne_nil _ (by decide)
    have hlink := @canonicalLink_mem env site ctx urls indexStates page
    rw [hescape] at hlink
    rw [contains_iff, infix_newlines_iff hne
      (hclean _ hreturn (by decide) (by decide)) (hclean _ hfeed (by decide) (by decide))]
    exact hlink
  have hnoindex : contains (newlines (builtPage env site ctx indexStates urls page).html)
      noindexMeta = true := by
    rw [contains_iff, infix_newlines_iff (by decide) (by decide) (by decide)]
    exact noindexMeta_mem hstate
  rw [validatePage, slug_builtPage, readFile_of_utf8 hfile]
  dsimp only
  unfold canonicalLink at hcanonical
  rw [hcanonical, hnoindex]
  simp [hstate]

/-! ## The whole build -/

variable {tools : Tools} {input : BuildInput} {copied : Copied} {legal : Writes}

theorem asTree_isSome {writes : Writes}
    (hvalid : ∀ path ∈ writes.map Prod.fst, Release.isPath path = true)
    (hapart : ∀ path ∈ writes.map Prod.fst, ∀ other ∈ writes.map Prod.fst,
      Release.isBelow path other = false) : ∃ directory, asTree writes = some directory := by
  have hpaths : ∀ path ∈ (contents writes).map Prod.fst, path ∈ writes.map Prod.fst := by
    intro path hpath
    obtain ⟨file, hfile, rfl⟩ := List.mem_map.mp hpath
    exact List.mem_map_of_mem (dictGet_eq_some (mem_contents.mp hfile))
  unfold asTree
  dsimp only
  rw [dif_pos ⟨fun path hpath => hvalid path (hpaths path hpath), fun path hpath other hother =>
    hapart path (hpaths path hpath) other (hpaths other hother)⟩]
  exact ⟨_, rfl⟩

/-- A site with nothing to index, whose files can be written. -/
structure Unindexed (tools : Tools) (input : BuildInput) : Prop where
  noAssets : input.assets = []
  noMedia : referencedAssetIds input.site = []
  valid : ∀ page ∈ input.site.pages, ValidSlug page.slug
  distinct : (input.site.pages.map (fun page => stripSlashes page.slug)).Nodup
  apart : ∀ page ∈ input.site.pages, stripSlashes page.slug ≠ "sitemap"
  plain : ∀ page ∈ input.site.pages, IsPlain (pageUrl input.site.domain page.slug)
  states : ∀ page ∈ input.site.pages,
    (dictGet input.indexStates page.slug).getD page.indexState ≠ .indexed
  noUrl : tools.locs (newlines (renderSitemap input.site.domain [])) = some []
  retention : 7 ≤ input.context.rawDays ∧ input.context.rawDays ≤ 90 ∧
    90 ≤ input.context.aggregateDays ∧ input.context.aggregateDays ≤ 730
  paths : ∀ path ∈ (finalWrites tools input ⟨[], [], []⟩ []).map Prod.fst ++
      ["privacy/index.html", "terms/index.html", "cookie-policy/index.html", "cookie-banner.js"],
    Release.isPath path = true ∧
      ∀ other ∈ (finalWrites tools input ⟨[], [], []⟩ []).map Prod.fst ++
        ["privacy/index.html", "terms/index.html", "cookie-policy/index.html", "cookie-banner.js"],
      Release.isBelow path other = false

theorem state_of_unindexed (h : Unindexed tools input) {page : PageManifest}
    (hpage : page ∈ input.site.pages) :
    (builtOf tools input copied page).item.indexState ≠ .indexed := by
  rw [builtOf, state_builtPage]
  split
  · decide
  · exact h.states page hpage

theorem copied_of_unindexed (h : Unindexed tools input) :
    copyAssets input.assets = .ok ⟨[], [], []⟩ := by
  rw [h.noAssets]
  rfl

theorem legal_of_unindexed (h : Unindexed tools input) :
    ∃ legal, legalWrites tools input [] = .ok legal := by
  have hretention := h.retention
  unfold legalWrites writeLegalPack
  rw [if_neg (by omega)]
  exact ⟨_, rfl⟩

theorem indexed_of_unindexed (h : Unindexed tools input) :
    (builtPages tools input []).filter (fun b => b.item.indexState = .indexed) = [] := by
  rw [List.filter_eq_nil_iff]
  intro b hb
  obtain ⟨page, hpage, rfl⟩ := List.mem_map.mp hb
  rw [decide_eq_true_iff]
  exact @state_of_unindexed tools input ⟨[], [], []⟩ h page hpage

theorem valid_of_unindexed (h : Unindexed tools input) :
    validateReleaseArtifacts tools.locs input.site (checkedWrites tools input ⟨[], [], []⟩)
      ((builtPages tools input []).map (·.item)) = .ok () := by
  obtain ⟨legal, hlegal⟩ := legal_of_unindexed h
  have hcopied := copied_of_unindexed h
  have hsitemap := sitemap_file hcopied hlegal (List.Subset.refl _) checkedWrites_subset
  have hurls : indexedUrls input.site.domain ((builtPages tools input []).map (·.item)) = [] := by
    rw [indexedUrls, List.filter_map]
    exact congrArg _ (congrArg _ (indexed_of_unindexed h))
  rw [indexedPaths, indexed_of_unindexed h, List.map_nil] at hsitemap
  rw [validateReleaseArtifacts, readFile_of_utf8 hsitemap]
  dsimp only
  rw [h.noUrl]
  dsimp only
  rw [hurls, if_neg (by decide), forM_eq_ok]
  intro item hitem
  obtain ⟨b, hb, rfl⟩ := List.mem_map.mp hitem
  obtain ⟨page, hpage, rfl⟩ := List.mem_map.mp hb
  have hfile := @checked_file_of_page tools input _ hcopied h.valid h.distinct page hpage
    (h.apart page hpage)
  have hstate := @state_of_unindexed tools input ⟨[], [], []⟩ h page hpage
  unfold builtOf at hfile hstate
  exact validatePage_of_unindexed hfile (h.plain page hpage) hstate

/-- **A site with nothing to index builds.** -/
theorem build_of_unindexed (h : Unindexed tools input) (releases : List ReleaseDirectory) :
    ∃ releases' result, build tools releases input = .ok (releases', result) := by
  obtain ⟨legal, hlegal⟩ := legal_of_unindexed h
  have hpaths : ∀ path ∈ (finalWrites tools input ⟨[], [], []⟩ legal).map Prod.fst,
      path ∈ (finalWrites tools input ⟨[], [], []⟩ []).map Prod.fst ++
        ["privacy/index.html", "terms/index.html", "cookie-policy/index.html",
          "cookie-banner.js"] := by
    intro path hpath
    have hpack : legal.map Prod.fst = ["privacy/index.html", "terms/index.html",
        "cookie-policy/index.html", "cookie-banner.js"] := by
      obtain ⟨_, _, _, -, -, -, rfl⟩ := @legalWrites_ok tools input ⟨[], [], []⟩ legal hlegal
      rfl
    rw [finalWrites, List.map_append, List.map_append, hpack, List.mem_append, List.mem_append]
      at hpath
    rw [finalWrites, List.append_nil, List.map_append, List.mem_append, List.mem_append]
    rcases hpath with (hpath | hpath) | hpath
    · exact .inl (.inl hpath)
    · exact .inr hpath
    · exact .inl (.inr hpath)
  obtain ⟨directory, hdirectory⟩ : ∃ directory,
      asTree (finalWrites tools input ⟨[], [], []⟩ legal) = some directory :=
    asTree_isSome (fun path hpath => (h.paths path (hpaths path hpath)).1)
      (fun path hpath other hother =>
        (h.paths path (hpaths path hpath)).2 other (hpaths other hother))
  have hmedia : mediaMatch input.site [] = true := by
    rw [mediaMatch, h.noMedia]
    rfl
  have hstage : ∃ staged, stage tools input = .ok staged := by
    unfold stage
    rw [copied_of_unindexed h]
    dsimp only
    rw [hmedia, if_neg (by decide), valid_of_unindexed h]
    dsimp only
    rw [hlegal]
    dsimp only
    rw [finalWrites] at hdirectory
    rw [hdirectory]
    exact ⟨_, rfl⟩
  obtain ⟨staged, hstaged⟩ := hstage
  unfold build
  rw [hstaged]
  dsimp only
  split
  · exact ⟨_, _, rfl⟩
  · exact ⟨_, _, rfl⟩

/-! ## A site of one page -/

/-- An object of the list of pages, with an indent of two. -/
def indentedItem (item : PageMeta) : List Char :=
  "  \x7b\n".toList ++ ",\n".toList.intercalate (item.entries.map (fun e =>
    "    \"".toList ++ Json.stringText e.1.toList ++ ": ".toList ++ Json.textOf e.2)) ++
    "\n  \x7d".toList

/-- `json.dumps(page_meta, ensure_ascii=False, indent=2)` -/
def indentedPages (items : List PageMeta) : String :=
  if items.isEmpty then "[]"
  else String.ofList ("[\n".toList ++ ",\n".toList.intercalate (items.map indentedItem) ++
    "\n]".toList)

theorem return_notMem_stringText (cs : List Char) : '\r' ∉ Json.stringText cs := by
  rw [Json.stringText, List.mem_append, List.mem_flatMap]
  rintro (⟨c, -, hc⟩ | hc)
  · have hdigit : ∀ n < 16, '\r' ≠ Nat.digitChar n := by decide
    unfold Json.escape at hc
    split_ifs at hc with h₁ h₂ h₃ h₄ h₅ h₆ h₇ h₈
    · exact absurd hc (by decide)
    · exact absurd hc (by decide)
    · exact absurd hc (by decide)
    · exact absurd hc (by decide)
    · exact absurd hc (by decide)
    · exact absurd hc (by decide)
    · exact absurd hc (by decide)
    · have hhigh := hdigit (c.toNat / 16) (by omega)
      have hlow := hdigit (c.toNat % 16) (by omega)
      simp [hhigh, hlow] at hc
    · exact h₄ (List.mem_singleton.mp hc).symm
  · exact absurd hc (by decide)

/-- The text of the metadata has no carriage return. -/
theorem return_notMem_indentedPages (items : List PageMeta) :
    '\r' ∉ (indentedPages items).toList := by
  have hvalue : ∀ item : PageMeta, ∀ e ∈ item.entries, '\r' ∉ Json.textOf e.2 := by
    intro item e he
    have hstr : ∀ s : String, '\r' ∉ Json.textOf (.str s) := by
      intro s
      rw [Json.textOf, List.mem_cons, not_or]
      exact ⟨by decide, return_notMem_stringText _⟩
    simp only [PageMeta.entries, List.mem_cons, List.not_mem_nil, or_false] at he
    rcases he with rfl | rfl | rfl | rfl | rfl | rfl
    · exact hstr _
    · exact hstr _
    · exact hstr _
    · show '\r' ∉ Json.textOf (.bool item.thin)
      cases item.thin <;> decide
    · intro hmem
      exact absurd (Json.isDigit_intText _ _ hmem) (by decide)
    · exact hstr _
  have hitem : ∀ item : PageMeta, '\r' ∉ indentedItem item := by
    intro item hmem
    rw [indentedItem, List.mem_append, List.mem_append] at hmem
    rcases hmem with (hmem | hmem) | hmem
    · exact absurd hmem (by decide)
    · rcases mem_intercalate hmem with hmem | ⟨l, hl, hmem⟩
      · exact absurd hmem (by decide)
      · obtain ⟨e, he, rfl⟩ := List.mem_map.mp hl
        simp only [List.mem_append] at hmem
        rcases hmem with ((hmem | hmem) | hmem) | hmem
        · exact absurd hmem (by decide)
        · exact return_notMem_stringText _ hmem
        · exact absurd hmem (by decide)
        · exact hvalue item e he hmem
    · exact absurd hmem (by decide)
  intro hmem
  unfold indentedPages at hmem
  split at hmem
  · exact absurd hmem (by decide)
  rw [String.toList_ofList, List.mem_append, List.mem_append] at hmem
  rcases hmem with (hmem | hmem) | hmem
  · exact absurd hmem (by decide)
  · rcases mem_intercalate hmem with hmem | ⟨l, hl, hmem⟩
    · exact absurd hmem (by decide)
    · obtain ⟨item, -, rfl⟩ := List.mem_map.mp hl
      exact hitem item hmem
  · exact absurd hmem (by decide)

/-- Tools for sites without blocks, with nothing to index and nothing to compress. -/
def plainTools : Tools where
  sanitize := id
  schemaOrg := fun _ _ _ _ => "\x7b\x7d"
  gzip := id
  cookieBannerJs := ""
  leadFormScript := ""
  telemetryScript := ""
  captchaFormScript := ""
  locs := fun _ => some []
  assetsText := fun _ => "[]"
  assetsIndented := fun _ => "[]"
  pagesIndented := indentedPages

def plainPage (slug : String) : PageManifest where
  slug := slug
  titleTemplate := "Ремонт"
  h1Template := "Ремонт"
  metaDescriptionTemplate := ""
  blocks := []
  uniqueCore := none
  blockSlotValues := []
  media := []
  blockMedia := []
  author := none
  seed := 0
  service := "ремонт"
  indexState := .noindex

def plainSite (slug : String) : SiteManifest where
  domain := "example.ru"
  locale := "ru"
  cssVars := []
  branding := none
  contacts := []
  siteId := ⟨1, Uuid.one_lt⟩
  tenantId := 1
  pages := [plainPage slug]
  legal := []

def plainInput (slug : String) : BuildInput :=
  ⟨plainSite slug, ⟨[], [], 30, 365⟩, [], [], false⟩

/-- The site of one page builds, whether the page is at a directory of its own or at `privacy`. -/
theorem unindexed_plain {slug : String} (hslug : slug ∈ ["/remont", "/privacy"]) :
    Unindexed plainTools (plainInput slug) := by
  simp only [List.mem_cons, List.not_mem_nil, or_false] at hslug
  rcases hslug with rfl | rfl
  · constructor <;> decide +kernel
  · constructor <;> decide +kernel

end MegaPanel.StaticSite
