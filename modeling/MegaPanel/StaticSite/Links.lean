import MegaPanel.StaticSite.Documents
import MegaPanel.StaticSite.Verifier

set_option autoImplicit false

/-! # The canonical links of a page

No link starts in an escaped text or in the head before the link of the page. So the first link
that the check finds in a page is that of its head, with the URL escaped (`canonicalUrls_page`).
-/

namespace MegaPanel.StaticSite

open MegaPanel.Lib MegaPanel.Lib.Text
open MegaPanel.Candidate (IndexState)
open MegaPanel.Rendering (Dict escape pageUrl)

/-! ## The scan -/

variable {text : List Char}

theorem linksFrom_skip (skip : Nat) (text : List Char) :
    linksFrom skip text = linksFrom 0 (text.drop skip) := by
  induction skip generalizing text with
  | zero => rfl
  | succ skip ih =>
    cases text with
    | nil => rfl
    | cons c cs => rw [linksFrom, ih, List.drop_succ_cons]

/-- No link starts in the text, whatever follows it. -/
def NoLink (text : List Char) : Prop :=
  ∀ rest, canonicalUrls (text ++ rest) = canonicalUrls rest

theorem NoLink.append {text' : List Char} (h : NoLink text) (h' : NoLink text') :
    NoLink (text ++ text') := by
  intro rest
  rw [List.append_assoc, h, h']

theorem linkHere_eq_none (h : ¬ linkOpen <+: text) : linkHere text = none := by
  rw [linkHere]
  refine if_neg (fun hlink => h ?_)
  exact List.isPrefixOf_iff_prefix.mp hlink.1

theorem noLink_of_unmatched
    (h : ∀ behind, behind <:+ text → behind ≠ [] → ∀ rest, ¬ linkOpen <+: behind ++ rest) :
    NoLink text := by
  intro rest
  induction text with
  | nil => rfl
  | cons c cs ih =>
    have hhere := linkHere_eq_none (h (c :: cs) List.suffix_rfl (List.cons_ne_nil c cs) rest)
    rw [canonicalUrls, List.cons_append, linksFrom, ← List.cons_append, hhere]
    exact ih (fun behind hbehind => h behind (hbehind.trans (List.suffix_cons c cs)))

theorem noLink_of_stays (h : staysUnder linkOpen text = true) : NoLink text :=
  noLink_of_unmatched (fun _ hbehind hne _ => not_prefix_of_stays h hbehind hne)

theorem noLink_of_notMem (h : '<' ∉ text) : NoLink text := by
  refine noLink_of_unmatched (fun behind hbehind hne _ hmatch => h (hbehind.subset ?_))
  cases behind with
  | nil => exact absurd rfl hne
  | cons d ds =>
    obtain ⟨tail, htail⟩ := hmatch
    have hd : d = '<' := by
      have hhead := congrArg List.head? htail
      rw [List.head?_append_of_ne_nil _ (by decide), List.cons_append, List.head?_cons] at hhead
      exact (Option.some.inj hhead).symm
    exact hd ▸ List.mem_cons_self

theorem noLink_escape (text : String) : NoLink (escape text).toList :=
  noLink_of_notMem (notMem_escape (by simp) text)

/-- A link is found with its URL, and the scan goes on behind it. -/
theorem canonicalUrls_link {url : List Char} (hne : url ≠ []) (hquote : '"' ∉ url)
    (rest : List Char) : canonicalUrls (linkOpen ++ url ++ "\">".toList ++ rest) =
      String.ofList url :: canonicalUrls rest := by
  have hurl : ((linkOpen ++ url ++ "\">".toList ++ rest).drop linkOpen.length).takeWhile
      (· ≠ '"') = url := by
    rw [List.append_assoc, List.append_assoc, List.drop_left,
      List.takeWhile_append_of_pos (fun c hc => decide_eq_true (ne_of_mem_of_not_mem hc hquote))]
    rw [show ("\">".toList ++ rest).takeWhile (· ≠ '"') = [] from
      List.takeWhile_cons_of_neg (by decide), List.append_nil]
  have hlength : (linkOpen ++ url).length = linkOpen.length + url.length := List.length_append
  have hdrop : ∀ text : List Char,
      (linkOpen ++ url ++ text).drop (linkOpen.length + url.length) = text := by
    intro text
    rw [← hlength, List.drop_left]
  have hhere : linkHere (linkOpen ++ url ++ "\">".toList ++ rest) = some url := by
    unfold linkHere
    dsimp only
    rw [hurl, if_pos]
    refine ⟨?_, hne, ?_⟩
    · rw [List.isPrefixOf_iff_prefix, List.append_assoc, List.append_assoc]
      exact List.prefix_append _ _
    · rw [List.isPrefixOf_iff_prefix, List.append_assoc, hdrop]
      exact List.prefix_append _ _
  have hstart : linkOpen ++ url ++ "\">".toList ++ rest =
      '<' :: (linkOpen.tail ++ url ++ "\">".toList ++ rest) := rfl
  have hrest : (linkOpen.tail ++ url ++ "\">".toList ++ rest).drop
      (linkOpen.length + url.length + 1) = rest := by
    rw [← List.drop_succ_cons (a := '<'), ← hstart, List.append_assoc,
      show linkOpen.length + url.length + 1 + 1 = linkOpen.length + url.length + 2 from rfl,
      ← List.drop_drop, hdrop]
    rfl
  rw [canonicalUrls, hstart, linksFrom, ← hstart, hhere]
  dsimp only
  rw [linksFrom_skip, hrest]
  rfl

/-! ## The links of a page -/

variable {env : Env} {site : SiteManifest} {ctx : Context} {urls : List (String × String)}
  {indexStates : List (String × IndexState)} {page : PageManifest}

theorem escape_ne_nil {text : String} (h : text.toList ≠ []) : (escape text).toList ≠ [] := by
  have hchar : ∀ c, Rendering.escapeChar c ≠ [] := by
    intro c
    unfold Rendering.escapeChar
    split_ifs
    all_goals first | decide | exact List.cons_ne_nil c []
  rw [escape, String.toList_ofList]
  cases hcs : text.toList with
  | nil => exact absurd hcs h
  | cons c cs =>
    rw [List.flatMap_cons]
    exact List.append_ne_nil_of_left_ne_nil (hchar c) _

theorem pageUrl_ne_nil (domain slug : String) : (pageUrl domain slug).toList ≠ [] := by
  unfold pageUrl
  dsimp only
  split
  all_goals
    rw [String.toList_append]
    exact List.append_ne_nil_of_right_ne_nil _ (by decide)

/-- The text of a page behind the start of its head. -/
def behindHead (site : SiteManifest) (ctx : Context) (page : PageManifest) (html : String) :
    List Char := html.toList.drop (headStart site ctx page).toList.length

/-- The first link of a page is that of its head. -/
theorem canonicalUrls_page :
    canonicalUrls (builtPage env site ctx indexStates urls page).html.toList =
      escape (pageUrl site.domain page.slug) ::
        canonicalUrls (behindHead site ctx page
          (builtPage env site ctx indexStates urls page).html) := by
  obtain ⟨rest, hrest⟩ := @headStart_isPrefix env site ctx urls indexStates page
  have hbehind : behindHead site ctx page (builtPage env site ctx indexStates urls page).html =
      rest := by
    rw [behindHead, ← hrest, List.drop_left]
  rw [hbehind, ← hrest]
  have hlink : "\">\n  <link rel=\"canonical\" href=\"".toList = "\">\n  ".toList ++ linkOpen := by
    decide +kernel
  have hclose : "\">\n".toList = "\">".toList ++ "\n".toList := by decide +kernel
  have hstart : NoLink ((titleStart site.locale).toList ++ (escape (pageTitle site ctx page)).toList
      ++ "</title>\n  <meta name=\"description\" content=\"".toList ++
      (escape (pageDescription site ctx page)).toList ++ "\">\n  ".toList) := by
    refine NoLink.append (NoLink.append (NoLink.append (NoLink.append ?_ (noLink_escape _)) ?_)
      (noLink_escape _)) ?_
    · unfold titleStart
      simp only [String.toList_append]
      refine NoLink.append (NoLink.append (NoLink.append ?_ (noLink_escape _)) ?_) ?_
      · exact noLink_of_stays (by decide +kernel)
      · exact noLink_of_stays (by decide +kernel)
      · exact noLink_of_stays (by decide +kernel)
    · exact noLink_of_stays (by decide +kernel)
    · exact noLink_of_stays (by decide +kernel)
  have hurl : (escape (pageUrl site.domain page.slug)).toList ≠ [] := by
    exact escape_ne_nil (pageUrl_ne_nil site.domain page.slug)
  have hfound := canonicalUrls_link hurl (notMem_escape (by simp) _) ("\n".toList ++ rest)
  rw [noLink_of_notMem (by decide) rest, String.ofList_toList] at hfound
  refine Eq.trans ?_ ((hstart _).trans hfound)
  unfold headStart
  simp only [String.toList_append]
  rw [hlink, hclose]
  simp only [List.append_assoc]

end MegaPanel.StaticSite
