import MegaPanel.StaticSite.Documents

set_option autoImplicit false

/-! # The parts of a page

A page is put together before anything is inserted: the start of the head with its style element,
the end of the head, and the body. Every part begins with `<`, and the closing tags that are
replaced have no other `<`; so an insertion works on each part for itself (`document_eq`). The
structured data are free of `</` when they are put in, and no later insertion reaches them.
-/

namespace MegaPanel.StaticSite

open MegaPanel.Lib MegaPanel.Lib.Text
open MegaPanel.Candidate (IndexState noindexMeta insertNoindex)
open MegaPanel.Rendering (Dict Value escape faviconHtml)

/-! ## Texts without a match -/

variable {new text : List Char}

theorem replace_eq_self_of_absent {pattern : List Char} (h : ¬ pattern <:+: text) :
    replace pattern new text = text := by
  induction text with
  | nil => rfl
  | cons c cs ih =>
    rw [List.infix_cons_iff, not_or] at h
    rw [replace_cons h.1, ih h.2]

/-- Escaped for a script, a text has no `</`. -/
theorem not_infix_escaped : ∀ text : List Char,
    ¬ "</".toList <:+: replace "</".toList "<\\/".toList text
  | [] => by
    rw [replace_nil, List.infix_nil]
    decide
  | c :: cs => by
    by_cases hmatch : "</".toList <+: c :: cs
    · obtain ⟨rest, hrest⟩ := hmatch
      have hshorter : rest.length ≤ cs.length := by
        have hlength := congrArg List.length hrest
        rw [List.length_append, List.length_cons, show "</".toList.length = 2 from rfl] at hlength
        omega
      rw [← hrest, replace_pattern (by decide),
        show "<\\/".toList = ['<', '\\', '/'] from rfl, show "</".toList = ['<', '/'] from rfl]
      simp only [List.cons_append, List.nil_append, List.infix_cons_iff, List.cons_prefix_cons]
      simpa using not_infix_escaped rest
    · rw [replace_cons hmatch, List.infix_cons_iff, not_or]
      refine ⟨fun hprefix => hmatch ?_, not_infix_escaped cs⟩
      -- the first character of the rest is that of the text, or that of a replacement
      cases cs with
      | nil =>
        rw [replace_nil] at hprefix
        exact hprefix
      | cons d ds =>
        by_cases hnext : "</".toList <+: d :: ds
        · obtain ⟨rest, hrest⟩ := hnext
          rw [← hrest, replace_pattern (by decide)] at hprefix
          have hslash := (List.cons_prefix_cons.mp (List.cons_prefix_cons.mp hprefix).2).1
          exact absurd hslash (by decide)
        · rw [replace_cons hnext] at hprefix
          obtain ⟨hc, hrest⟩ := List.cons_prefix_cons.mp hprefix
          obtain ⟨hd, -⟩ := List.cons_prefix_cons.mp hrest
          exact List.cons_prefix_cons.mpr ⟨hc, List.cons_prefix_cons.mpr ⟨hd,
            List.nil_prefix⟩⟩
termination_by text => text.length

/-! ## Insertions -/

variable {closing : List Char}

/-- A text in front of a closing tag: the tag, and what comes for it. -/
abbrev Insertion := List Char × List Char

def insertAll (insertions : List Insertion) (text : List Char) : List Char :=
  insertions.foldl (fun text i => replace i.1 i.2 text) text

/-- No closing tag goes on with the first character of the text. -/
def Boundary (text : List Char) : Prop :=
  ∀ c ∈ text.head?, ∀ closing ∈ closingTags, c ∉ closing.tail

instance (text : List Char) : Decidable (Boundary text) := by unfold Boundary; infer_instance

theorem Boundary.replace_append (h : Boundary text) (hclosing : closing ∈ closingTags)
    (new start : List Char) :
    replace closing new (start ++ text) = replace closing new start ++ replace closing new text := by
  cases text with
  | nil => rw [List.append_nil, replace_nil, List.append_nil]
  | cons c cs =>
    have hc := h c rfl closing hclosing
    have hcases : closing = '<' :: "/body>".toList ∨ closing = '<' :: "/head>".toList := by
      simpa [closingTags] using hclosing
    rcases hcases with rfl | rfl
    · exact replace_append_cons hc cs start
    · exact replace_append_cons hc cs start

theorem Boundary.replace (h : Boundary text) (hnew : Boundary new) (hne : new ≠ [])
    (hclosing : closing ≠ []) : Boundary (replace closing new text) := by
  cases text with
  | nil => exact h
  | cons c cs =>
    by_cases hmatch : closing <+: c :: cs
    · obtain ⟨rest, hrest⟩ := hmatch
      rw [← hrest, replace_pattern hclosing]
      intro d hd
      rw [List.head?_append_of_ne_nil _ hne] at hd
      exact hnew d hd
    · rw [replace_cons hmatch]
      exact h

/-- Insertions of texts that no closing tag goes on with. -/
def Apart (insertions : List Insertion) : Prop :=
  ∀ i ∈ insertions, i.1 ∈ closingTags ∧ Boundary i.2 ∧ i.2 ≠ []

theorem ne_nil_of_mem_closingTags (h : closing ∈ closingTags) : closing ≠ [] := by
  rintro rfl
  exact absurd h (by decide)

variable {insertions : List Insertion}

/-- The insertions work part by part. -/
theorem insertAll_append (h : Apart insertions) (htext : Boundary text) (start : List Char) :
    insertAll insertions (start ++ text) = insertAll insertions start ++ insertAll insertions text := by
  induction insertions generalizing start text with
  | nil => rfl
  | cons i is ih =>
    obtain ⟨hclosing, hboundary, hne⟩ := h i List.mem_cons_self
    show insertAll is (Text.replace i.1 i.2 (start ++ text)) = _
    rw [htext.replace_append hclosing]
    exact ih (fun j hj => h j (List.mem_cons_of_mem i hj))
      (htext.replace hboundary hne (ne_nil_of_mem_closingTags hclosing)) _

/-- A text in which no closing tag begins stays as it is. -/
theorem insertAll_quiet (h : Apart insertions) (hquiet : Quiet text) :
    insertAll insertions text = text := by
  induction insertions with
  | nil => rfl
  | cons i is ih =>
    have hstays := hquiet i.1 (h i List.mem_cons_self).1 i.2 []
    rw [List.append_nil, replace_nil, List.append_nil] at hstays
    show insertAll is (Text.replace i.1 i.2 text) = text
    rw [hstays]
    exact ih (fun j hj => h j (List.mem_cons_of_mem i hj))

/-! ## The parts -/

variable {env : Env} {site : SiteManifest} {ctx : Context} {urls : List (String × String)}
  {indexStates : List (String × IndexState)} {page : PageManifest}

/-- A page up to the text of its style element. -/
def styleStart (site : SiteManifest) (ctx : Context) (urls : List (String × String))
    (page : PageManifest) : String :=
  headStart site ctx page ++ faviconHtml site.toSiteManifest (relativeMediaUrls urls page.slug) ++
    "  <style>"

/-- The style rules of a page. -/
def pageCss (site : SiteManifest) (page : PageManifest) : String :=
  Rendering.cssText site.toSiteManifest (Rendering.sortedBlocks page.toPageManifest)

/-- The rest of a page, as `render_page` makes it. -/
def pageBody (env : Env) (site : SiteManifest) (ctx : Context) (urls : List (String × String))
    (page : PageManifest) : String :=
  let mediaUrls := relativeMediaUrls urls page.slug
  let context := Rendering.pageContext site.toSiteManifest ctx.entries
  let unique := escape (page.uniqueCore.getD "")
  let blocks := Rendering.sortedBlocks page.toPageManifest
  let html := Rendering.blockHtml env.sanitize page.toPageManifest context
  let bodyParts := blocks.flatMap (fun block =>
    Rendering.blockParts page.toPageManifest mediaUrls block (html block))
  let media := Rendering.mediaHtml page.toPageManifest mediaUrls
  Rendering.bodyHtml site.toSiteManifest mediaUrls
    (if blocks.any (fun block => Rendering.containsH1 (html block)) then ""
      else "<h1>" ++ escape (Rendering.fillSlots page.h1Template context) ++ "</h1>")
    (if blocks.any (fun block => block.type == "hero") ∨ unique = "" then ""
      else "<p class=\"unique-core\">" ++ unique ++ "</p>")
    (Rendering.joinLines (if media = "" then bodyParts else bodyParts ++ [media]))
    ((page.author.map (Rendering.authorHtml mediaUrls)).getD "")

theorem renderPage_eq : Rendering.renderPage env.sanitize site.toSiteManifest page.toPageManifest
      ctx.entries (relativeMediaUrls urls page.slug) =
    styleStart site ctx urls page ++ (pageCss site page ++ ("</style>\n</head>\n" ++
      pageBody env site ctx urls page)) := by
  unfold Rendering.renderPage Rendering.headHtml styleStart headStart titleStart pageTitle
    pageDescription pageCss pageBody
  simp only [String.append_assoc]

/-- The structured data as they stand in the page. -/
def schemaText (env : Env) (site : SiteManifest) (ctx : Context) (urls : List (String × String))
    (page : PageManifest) : String :=
  env.schemaOrg site page ctx ((contents urls).map (fun e =>
    (e.1, "https://" ++ stripSlashes (strip site.domain) ++ "/" ++ e.2)))

/-- What the build puts into every page, in order. -/
def documentInsertions (env : Env) (site : SiteManifest) (ctx : Context)
    (urls : List (String × String)) (page : PageManifest) : List Insertion :=
  (scriptTags ctx page).map (fun tag => ("</body>".toList, (tag ++ "</body>").toList)) ++
    [("</head>".toList, (schemaTag (schemaText env site ctx urls page) ++ "</head>").toList)]

/-- What it puts into a page by its state. -/
def robotsInsertions (state : IndexState) : List Insertion :=
  if state ≠ .indexed then [("</head>".toList, ("  " ++ noindexMeta ++ "\n</head>").toList)] else []

theorem toList_insertBefore (closing text html : String) :
    (insertBefore closing text html).toList =
      replace closing.toList (text ++ closing).toList html.toList := by
  unfold insertBefore
  exact String.toList_ofList

theorem toList_insertNoindex (html : String) : (insertNoindex html).toList =
    replace "</head>".toList ("  " ++ noindexMeta ++ "\n</head>").toList html.toList := by
  unfold insertNoindex
  exact String.toList_ofList

theorem insertTags_eq (tags : List String) (html : String) :
    (tags.foldl (fun html tag => insertBefore "</body>" tag html) html).toList =
      insertAll (tags.map (fun tag => ("</body>".toList, (tag ++ "</body>").toList))) html.toList := by
  induction tags generalizing html with
  | nil => rfl
  | cons tag tags ih =>
    rw [List.foldl_cons, ih, toList_insertBefore]
    rfl

theorem insertAll_concat (insertions insertions' : List Insertion) (text : List Char) :
    insertAll (insertions ++ insertions') text =
      insertAll insertions' (insertAll insertions text) := by
  rw [insertAll, List.foldl_append]
  rfl

theorem document_eq_insertAll : (pageDocument env site ctx urls page).toList =
    insertAll (documentInsertions env site ctx urls page)
      (Rendering.renderPage env.sanitize site.toSiteManifest page.toPageManifest ctx.entries
        (relativeMediaUrls urls page.slug)).toList := by
  unfold pageDocument documentInsertions
  rw [toList_insertBefore, insertTags_eq, insertAll_concat]
  simp only [insertAll, List.foldl_cons, List.foldl_nil, schemaText]

theorem robots_eq_insertAll (state : IndexState) (html : String) :
    (if state ≠ .indexed then insertNoindex html else html).toList =
      insertAll (robotsInsertions state) html.toList := by
  unfold robotsInsertions
  split
  · rw [toList_insertNoindex]
    rfl
  · rfl

/-- A page as it is written: what was rendered, with the insertions. -/
theorem html_eq_insertAll : (builtPage env site ctx indexStates urls page).html.toList =
    insertAll (robotsInsertions (builtPage env site ctx indexStates urls page).item.indexState)
      (insertAll (documentInsertions env site ctx urls page)
        (Rendering.renderPage env.sanitize site.toSiteManifest page.toPageManifest ctx.entries
          (relativeMediaUrls urls page.slug)).toList) := by
  rw [html_builtPage, robots_eq_insertAll, document_eq_insertAll]

/-! ## Insertions in the parts -/

theorem boundary_of_start {start : List Char} (hne : start ≠ []) (h : start <+: text)
    (hstart : Boundary start) : Boundary text := by
  obtain ⟨rest, rfl⟩ := h
  intro c hc
  rw [List.head?_append_of_ne_nil _ hne] at hc
  exact hstart c hc

/-- Every tag that is put in starts with two spaces. -/
theorem spaces_isPrefix : ∀ tag ∈ scriptTags ctx page, "  <script".toList <+: tag.toList := by
  have htags : ∀ tag ∈ scriptTags ctx page, tag = leadFormTag ∨ tag = cookieBannerTag ∨
      tag = telemetryTag ctx ∨ tag = captchaTag ctx := by
    intro tag htag
    unfold scriptTags at htag
    simp only [List.mem_append, List.mem_cons] at htag
    rcases htag with (htag | htag | htag) | htag
    · split at htag
      · exact .inl (List.mem_singleton.mp htag)
      · exact absurd htag List.not_mem_nil
    · exact .inr (.inl htag)
    · split at htag
      · exact .inr (.inr (.inl (List.mem_singleton.mp htag)))
      · exact absurd htag List.not_mem_nil
    · split at htag
      · exact .inr (.inr (.inr (List.mem_singleton.mp htag)))
      · exact absurd htag List.not_mem_nil
  intro tag htag
  rcases htags tag htag with rfl | rfl | rfl | rfl
  · unfold leadFormTag
    decide
  · unfold cookieBannerTag
    decide
  · have hstart : "  <script src=\"site-panel-telemetry.js\" data-telemetry-token=\"".toList =
        "  <script".toList ++ " src=\"site-panel-telemetry.js\" data-telemetry-token=\"".toList := by
      decide
    unfold telemetryTag
    simp only [String.toList_append, List.append_assoc]
    rw [hstart, List.append_assoc]
    exact List.prefix_append _ _
  · have hstart : "  <script src=\"site-panel-captcha.js\" data-captcha-provider=\"".toList =
        "  <script".toList ++ " src=\"site-panel-captcha.js\" data-captcha-provider=\"".toList := by
      decide
    unfold captchaTag
    simp only [String.toList_append, List.append_assoc]
    rw [hstart, List.append_assoc]
    exact List.prefix_append _ _

theorem schemaTag_eq (schema : String) : (schemaTag schema).toList =
    "  <script type=\"application/ld+json\">".toList ++
      (replace "</".toList "<\\/".toList schema.toList ++ "</script>\n".toList) := by
  unfold schemaTag
  rw [String.toList_append, String.toList_append, List.append_assoc]
  congr 2
  exact String.toList_ofList

theorem apart_document : Apart (documentInsertions env site ctx urls page) := by
  intro i hi
  have htag : ∀ start tag closing : List Char, start ≠ [] → Boundary start → start <+: tag →
      Boundary (tag ++ closing) ∧ tag ++ closing ≠ [] := by
    intro start tag closing hne hstart hprefix
    have hwhole := hprefix.trans (List.prefix_append tag closing)
    refine ⟨boundary_of_start hne hwhole hstart, fun hnil => hne ?_⟩
    rw [hnil] at hwhole
    exact List.prefix_nil.mp hwhole
  rcases List.mem_append.mp hi with hi | hi
  · obtain ⟨tag, hmem, rfl⟩ := List.mem_map.mp hi
    dsimp only
    rw [String.toList_append]
    exact ⟨by simp [closingTags], htag _ _ _ (by decide) (by decide)
      (spaces_isPrefix tag hmem)⟩
  · rw [List.mem_singleton.mp hi]
    dsimp only
    rw [String.toList_append]
    refine ⟨by simp [closingTags], htag "  <script".toList _ _ (by decide) (by decide) ?_⟩
    rw [schemaTag_eq]
    exact List.IsPrefix.trans (by decide) (List.prefix_append _ _)

theorem apart_robots (state : IndexState) : Apart (robotsInsertions state) := by
  intro i hi
  unfold robotsInsertions at hi
  split at hi
  · rw [List.mem_singleton.mp hi]
    refine ⟨by simp [closingTags], ?_⟩
    decide
  · exact absurd hi List.not_mem_nil

theorem Apart.append {insertions' : List Insertion} (h : Apart insertions)
    (h' : Apart insertions') : Apart (insertions ++ insertions') := by
  intro i hi
  exact (List.mem_append.mp hi).elim (h i) (h' i)

/-- The structured data, which no insertion reaches. -/
theorem quiet_schemaTag (schema : String) : Quiet (schemaTag schema).toList := by
  rw [schemaTag_eq]
  refine Quiet.append (quiet_of_stays (by decide)) ?_
  intro closing hclosing new rest
  have hdata : replace closing new (replace "</".toList "<\\/".toList schema.toList) =
      replace "</".toList "<\\/".toList schema.toList := by
    refine replace_eq_self_of_absent (fun hinfix => not_infix_escaped schema.toList ?_)
    refine List.IsInfix.trans ?_ hinfix
    have hcases : closing = "</body>".toList ∨ closing = "</head>".toList := by
      simpa [closingTags] using hclosing
    rcases hcases with rfl | rfl
    · exact List.IsPrefix.isInfix (by decide)
    · exact List.IsPrefix.isInfix (by decide)
  have hend : Boundary ("</script>\n".toList ++ rest) :=
    boundary_of_start (by decide) (List.prefix_append _ _) (by decide)
  have hquiet : Quiet "</script>\n".toList := quiet_of_stays (by decide)
  rw [List.append_assoc, hend.replace_append hclosing, hdata, hquiet closing hclosing,
    List.append_assoc]

theorem insertAll_quiet_append (h : Apart insertions) {start : List Char} (hquiet : Quiet start)
    (rest : List Char) :
    insertAll insertions (start ++ rest) = start ++ insertAll insertions rest := by
  induction insertions generalizing rest with
  | nil => rfl
  | cons i is ih =>
    show insertAll is (Text.replace i.1 i.2 (start ++ rest)) = _
    rw [hquiet i.1 (h i List.mem_cons_self).1]
    exact ih (fun j hj => h j (List.mem_cons_of_mem i hj)) _

/-! ## The page in parts -/

theorem quiet_styleStart : Quiet (styleStart site ctx urls page).toList := by
  have hfavicon : Quiet (faviconHtml site.toSiteManifest
      (relativeMediaUrls urls page.slug)).toList := by
    unfold faviconHtml
    split
    · exact quiet_nil
    simp only [String.toList_append]
    refine Quiet.append (Quiet.append ?_ (quiet_escape _)) ?_
    · exact quiet_of_stays (by decide)
    · exact quiet_of_stays (by decide)
  unfold styleStart
  rw [String.toList_append, String.toList_append]
  exact Quiet.append (Quiet.append (quiet_headStart site ctx page) hfavicon)
    (quiet_of_stays (by decide))

theorem boundary_pageBody : Boundary (pageBody env site ctx urls page).toList := by
  refine boundary_of_start (by decide) ?_ (by decide : Boundary "<body>\n  ".toList)
  unfold pageBody Rendering.bodyHtml
  simp only [String.toList_append, List.append_assoc]
  exact List.prefix_append _ _

/-- The robots tag of a page that is not indexed. -/
def robotsText (state : IndexState) : List Char :=
  if state ≠ .indexed then ("  " ++ noindexMeta ++ "\n").toList else []

/-- Everything that the build puts into a page of this state. -/
def allInsertions (env : Env) (site : SiteManifest) (ctx : Context) (urls : List (String × String))
    (page : PageManifest) (state : IndexState) : List Insertion :=
  documentInsertions env site ctx urls page ++ robotsInsertions state

theorem apart_allInsertions (state : IndexState) :
    Apart (allInsertions env site ctx urls page state) :=
  apart_document.append (apart_robots state)

/-- The end of the head, with what is put in there. -/
theorem insertAll_closeHead (state : IndexState) :
    insertAll (allInsertions env site ctx urls page state) "</style>\n</head>\n".toList =
      "</style>\n".toList ++ (schemaTag (schemaText env site ctx urls page)).toList ++
        robotsText state ++ "</head>\n".toList := by
  have hstyle : Quiet "</style>\n".toList := quiet_of_stays (by decide)
  have hschema := quiet_schemaTag (schemaText env site ctx urls page)
  have hhead : "</head>".toList ∈ closingTags := by simp [closingTags]
  have htags : ∀ tags : List String,
      insertAll (tags.map (fun tag => ("</body>".toList, (tag ++ "</body>").toList)))
        "</style>\n</head>\n".toList = "</style>\n</head>\n".toList := by
    intro tags
    induction tags with
    | nil => rfl
    | cons tag tags ih =>
      show insertAll _ (replace "</body>".toList (tag ++ "</body>").toList
        "</style>\n</head>\n".toList) = _
      rw [replace_eq_self_of_absent (by decide)]
      exact ih
  have hsplit : "</style>\n</head>\n".toList =
      "</style>\n".toList ++ ("</head>".toList ++ "\n".toList) := by decide
  have hend : ∀ new : List Char, replace "</head>".toList new ("</head>".toList ++ "\n".toList) =
      new ++ "\n".toList := by
    intro new
    rw [replace_pattern (by decide), replace_eq_self_of_absent (by decide)]
  have hclose : "</head>\n".toList = "</head>".toList ++ "\n".toList := by decide
  unfold allInsertions documentInsertions
  rw [insertAll_concat, insertAll_concat, htags]
  show insertAll _ (replace "</head>".toList _ "</style>\n</head>\n".toList) = _
  rw [hsplit, hstyle _ hhead, hend, String.toList_append]
  unfold robotsInsertions robotsText
  split
  · show replace "</head>".toList _ _ = _
    rw [List.append_assoc, List.append_assoc, hstyle _ hhead, hschema _ hhead, hend, hclose]
    have hrobots : ("  " ++ noindexMeta ++ "\n</head>").toList =
        ("  " ++ noindexMeta ++ "\n").toList ++ "</head>".toList := by decide
    rw [hrobots]
    simp only [List.append_assoc]
  · show _ = _
    rw [hclose, List.append_nil]
    simp only [List.append_assoc]
    rfl

/-- **A page in its parts**: up to its style rules, the rules, the end of the head, and the body. -/
theorem insertAll_rendered (state : IndexState) :
    insertAll (allInsertions env site ctx urls page state)
      (Rendering.renderPage env.sanitize site.toSiteManifest page.toPageManifest ctx.entries
        (relativeMediaUrls urls page.slug)).toList =
    (styleStart site ctx urls page).toList ++
      (insertAll (allInsertions env site ctx urls page state) (pageCss site page).toList ++
        ("</style>\n".toList ++ (schemaTag (schemaText env site ctx urls page)).toList ++
          robotsText state ++ "</head>\n".toList ++
          insertAll (allInsertions env site ctx urls page state)
            (pageBody env site ctx urls page).toList)) := by
  have hapart := @apart_allInsertions env site ctx urls page state
  have hboundary : Boundary ("</style>\n</head>\n".toList ++
      (pageBody env site ctx urls page).toList) :=
    boundary_of_start (by decide) (List.prefix_append _ _) (by decide)
  rw [renderPage_eq, String.toList_append, String.toList_append, String.toList_append,
    insertAll_quiet_append hapart quiet_styleStart, insertAll_append hapart hboundary,
    insertAll_append hapart boundary_pageBody, insertAll_closeHead]

theorem html_parts : (builtPage env site ctx indexStates urls page).html.toList =
    insertAll (allInsertions env site ctx urls page
        (builtPage env site ctx indexStates urls page).item.indexState)
      (Rendering.renderPage env.sanitize site.toSiteManifest page.toPageManifest ctx.entries
        (relativeMediaUrls urls page.slug)).toList := by
  rw [html_eq_insertAll, allInsertions, insertAll_concat]

/-! ## Characters of a page -/

/-- The rules of every page have no tag in them, and no carriage return. -/
theorem plain_baseCss : ∀ c ∈ Rendering.baseCss.toList, c ≠ '<' ∧ c ≠ '\r' := by
  unfold Rendering.baseCss
  simp only [String.toList_append, List.forall_mem_append]
  refine ⟨⟨⟨⟨⟨⟨⟨⟨⟨⟨⟨⟨⟨?_, ?_⟩, ?_⟩, ?_⟩, ?_⟩, ?_⟩, ?_⟩, ?_⟩, ?_⟩, ?_⟩, ?_⟩, ?_⟩, ?_⟩, ?_⟩
  all_goals exact forall_mem_toList (by decide)

end MegaPanel.StaticSite
