import MegaPanel.Lib.Strip
import MegaPanel.StaticSite.Pages

set_option autoImplicit false

/-! # Slugs and their directories

A valid slug, trimmed of slashes, is a path of words; so pages with different trimmed slugs have
different directories (`slugParts_inj`). -/

namespace MegaPanel.StaticSite

open MegaPanel.Lib MegaPanel.Lib.Text
open MegaPanel.Candidate (isPagePath isSlugChar pathTail)

/-- What `normalize_page_plan_slug` admits, with any slashes around it. -/
def ValidSlug (slug : String) : Prop :=
  stripSlashes slug = "" ∨ isPagePath ("/" ++ stripSlashes slug) = true

instance (slug : String) : Decidable (ValidSlug slug) := by unfold ValidSlug; infer_instance

/-! ## The names along a path -/

theorem splitOn_slash_cons (c : Char) (cs : List Char) : (c :: cs).splitOn '/' =
    if c = '/' then [] :: cs.splitOn '/' else (cs.splitOn '/').modifyHead (List.cons c) := by
  rw [List.splitOn_cons_eq_if_modifyHead]
  simp only [beq_iff_eq]

theorem subset_of_mem_splitOn {text name : List Char} (h : name ∈ text.splitOn '/') :
    name ⊆ text := by
  induction text generalizing name with
  | nil =>
    rw [List.splitOn_nil] at h
    rw [List.mem_singleton.mp h]
    exact List.nil_subset _
  | cons c cs ih =>
    rw [splitOn_slash_cons] at h
    split at h
    · rcases List.mem_cons.mp h with rfl | h
      · exact List.nil_subset _
      · exact List.Subset.trans (ih h) (List.subset_cons_self c cs)
    cases hsplit : cs.splitOn '/' with
    | nil => exact absurd hsplit (List.splitOn_ne_nil _ _)
    | cons first rest =>
      rw [hsplit, List.modifyHead_cons] at h
      rcases List.mem_cons.mp h with rfl | h
      · exact List.cons_subset_cons c (ih (by rw [hsplit]; exact List.mem_cons_self))
      · exact List.Subset.trans (ih (by rw [hsplit]; exact List.mem_cons_of_mem _ h))
          (List.subset_cons_self c cs)

/-- The names along a page path that does not end with a slash. -/
theorem names_of_pathTail (cs : List Char) : ∀ (start : Bool), pathTail start cs = true →
    cs.getLast? ≠ some '/' → '.' ∉ cs ∧ ∃ first rest, cs.splitOn '/' = first :: rest ∧
      (start = true → first ≠ []) ∧ ∀ name ∈ rest, name ≠ [] := by
  induction cs with
  | nil =>
    intro start hpath _
    cases start with
    | true => cases hpath
    | false =>
      exact ⟨List.not_mem_nil, [], [], List.splitOn_nil _, fun h => (nomatch h),
        fun _ h => absurd h List.not_mem_nil⟩
  | cons c cs ih =>
    intro start hpath hlast
    have hlast' : cs.getLast? ≠ some '/' := by
      cases cs with
      | nil => exact nofun
      | cons d ds => rwa [List.getLast?_cons_cons] at hlast
    -- a character that is not a slash belongs to the first name
    have hword : ∀ start', pathTail start' cs = true → c ≠ '/' → c ≠ '.' →
        '.' ∉ c :: cs ∧ ∃ first rest, (c :: cs).splitOn '/' = first :: rest ∧
          (start = true → first ≠ []) ∧ ∀ name ∈ rest, name ≠ [] := by
      intro start' htail hslash hdot
      obtain ⟨hnodot, first, rest, hsplit, -, hrest⟩ := ih start' htail hlast'
      refine ⟨?_, c :: first, rest, ?_, fun _ => List.cons_ne_nil c first, hrest⟩
      · rw [List.mem_cons, not_or]
        exact ⟨Ne.symm hdot, hnodot⟩
      · rw [splitOn_slash_cons, if_neg hslash, hsplit, List.modifyHead_cons]
    have hslugChar : isSlugChar c = true → c ≠ '/' ∧ c ≠ '.' := by
      intro hc
      constructor
      · rintro rfl
        exact absurd hc (by decide)
      · rintro rfl
        exact absurd hc (by decide)
    cases start with
    | true =>
      obtain ⟨hc, htail⟩ := Bool.and_eq_true_iff.mp hpath
      exact hword false htail (hslugChar hc).1 (hslugChar hc).2
    | false =>
      rw [pathTail] at hpath
      split at hpath
      · next hslash =>
        rcases Bool.or_eq_true_iff.mp hpath with hempty | htail
        · rw [List.isEmpty_iff] at hempty
          exact absurd (by rw [hempty, hslash]; rfl) hlast
        obtain ⟨hnodot, first, rest, hsplit, hfirst, hrest⟩ := ih true htail hlast'
        refine ⟨?_, [], first :: rest, ?_, fun h => (nomatch h), ?_⟩
        · rw [List.mem_cons, not_or, hslash]
          exact ⟨by decide, hnodot⟩
        · rw [splitOn_slash_cons, if_pos hslash, hsplit]
        · intro name hname
          rcases List.mem_cons.mp hname with rfl | hname
          · exact hfirst rfl
          · exact hrest name hname
      · next hslash =>
        split at hpath
        · next hhyphen => exact hword true hpath hslash (by rw [hhyphen]; decide)
        · obtain ⟨hc, htail⟩ := Bool.and_eq_true_iff.mp hpath
          exact hword false htail hslash (hslugChar hc).2

/-! ## The directory of a page -/

theorem intercalate_components (path : String) :
    ['/'].intercalate (Release.components path) = path.toList := List.intercalate_splitOn '/'

/-- For a valid slug no name is left out. -/
theorem slugParts_of_valid {slug : String} (h : ValidSlug slug) : slugParts slug =
    if stripSlashes slug = "" then [] else Release.components (stripSlashes slug) := by
  split
  · next hempty =>
    rw [slugParts, hempty]
    decide
  · next hne =>
    have hpath := h.resolve_left hne
    rw [isPagePath, String.toList_append] at hpath
    have hlast : (stripSlashes slug).toList.getLast? ≠ some '/' := by
      intro hslash
      rw [stripSlashes, String.toList_ofList] at hslash
      have hstripped : stripBy (· == '/') slug.toList ≠ [] := by
        rintro hnil
        rw [hnil] at hslash
        cases hslash
      rw [List.getLast?_eq_some_getLast hstripped, Option.some.injEq] at hslash
      have hlast := stripBy_getLast hstripped
      rw [hslash] at hlast
      exact absurd hlast (by decide)
    obtain ⟨hnodot, first, rest, hsplit, hfirst, hrest⟩ :=
      names_of_pathTail (stripSlashes slug).toList true hpath hlast
    rw [slugParts, List.filter_eq_self]
    intro name hname
    have hne : name ≠ [] := by
      rw [Release.components, hsplit] at hname
      rcases List.mem_cons.mp hname with rfl | hname
      · exact hfirst rfl
      · exact hrest name hname
    have hdot : name ≠ ['.'] := by
      rintro rfl
      exact hnodot (subset_of_mem_splitOn hname (List.mem_singleton_self _))
    simp [hne, hdot]

/-- Valid slugs with one directory are the same up to slashes. -/
theorem stripSlashes_eq_of_slugParts {slug slug' : String} (h : ValidSlug slug)
    (h' : ValidSlug slug') (hparts : slugParts slug = slugParts slug') :
    stripSlashes slug = stripSlashes slug' := by
  have hne : ∀ s : String, Release.components s ≠ [] := fun s => List.splitOn_ne_nil _ _
  rw [slugParts_of_valid h, slugParts_of_valid h'] at hparts
  split at hparts
  · next hempty =>
    split at hparts
    · next hempty' => rw [hempty, hempty']
    · exact absurd hparts.symm (hne _)
  · split at hparts
    · exact absurd hparts (hne _)
    · rw [← String.toList_inj, ← intercalate_components, hparts, intercalate_components]

/-! ## Slugs with a canonical path -/

/-- A slash at the end of a path may be left out. -/
theorem pathTail_of_append_slash (cs : List Char) : ∀ (start : Bool),
    pathTail start (cs ++ ['/']) = true → pathTail start cs = true ∧ cs.getLast? ≠ some '/' := by
  induction cs with
  | nil =>
    intro start h
    cases start with
    | true => exact absurd h (by decide)
    | false => exact ⟨rfl, nofun⟩
  | cons c cs ih =>
    intro start h
    -- the last character of the rest is that of the whole, unless the rest is empty
    have hlast : cs.getLast? ≠ some '/' → (cs = [] → c ≠ '/') →
        (c :: cs).getLast? ≠ some '/' := by
      intro hcs hnil
      cases cs with
      | nil =>
        rw [List.getLast?_singleton, ne_eq, Option.some.injEq]
        exact hnil rfl
      | cons d ds => rwa [List.getLast?_cons_cons]
    have hword : isSlugChar c = true → c ≠ '/' := by
      rintro hc rfl
      exact absurd hc (by decide)
    rw [List.cons_append] at h
    cases start with
    | true =>
      obtain ⟨hc, htail⟩ := Bool.and_eq_true_iff.mp h
      obtain ⟨hpath, hcs⟩ := ih false htail
      exact ⟨Bool.and_eq_true_iff.mpr ⟨hc, hpath⟩, hlast hcs (fun _ => hword hc)⟩
    | false =>
      rw [pathTail] at h ⊢
      have hnonempty : pathTail true cs = true → cs ≠ [] := by
        rintro hcs rfl
        cases hcs
      split at h
      · next hslash =>
        have htail : pathTail true (cs ++ ['/']) = true := by
          rcases Bool.or_eq_true_iff.mp h with hempty | htail
          · rw [List.isEmpty_iff] at hempty
            exact absurd hempty (by simp)
          · exact htail
        obtain ⟨hpath, hcs⟩ := ih true htail
        rw [if_pos hslash]
        exact ⟨Bool.or_eq_true_iff.mpr (.inr hpath),
          hlast hcs (fun hnil => absurd hnil (hnonempty hpath))⟩
      · next hslash =>
        rw [if_neg hslash]
        split at h
        · next hhyphen =>
          obtain ⟨hpath, hcs⟩ := ih true h
          rw [if_pos hhyphen]
          exact ⟨hpath, hlast hcs (fun _ => hslash)⟩
        · next hhyphen =>
          obtain ⟨hc, htail⟩ := Bool.and_eq_true_iff.mp h
          obtain ⟨hpath, hcs⟩ := ih false htail
          rw [if_neg hhyphen]
          exact ⟨Bool.and_eq_true_iff.mpr ⟨hc, hpath⟩, hlast hcs (fun _ => hslash)⟩

/-- A text with no slash at its ends is its own trimmed form. -/
theorem stripBy_slash_eq_self {cs : List Char} (hhead : cs.head? ≠ some '/')
    (hlast : cs.getLast? ≠ some '/') : stripBy (· == '/') cs = cs := by
  have hdrop : cs.dropWhile (· == '/') = cs := by
    cases cs with
    | nil => rfl
    | cons c cs =>
      refine List.dropWhile_cons_of_neg (fun hc => hhead ?_)
      rw [List.head?_cons, beq_iff_eq.mp hc]
  rw [stripBy, hdrop, List.rdropWhile_eq_self_iff]
  intro hne hslash
  rw [List.getLast?_eq_some_getLast hne, beq_iff_eq.mp hslash] at hlast
  exact hlast rfl

/-- A slug that has a canonical path is valid, and this is the path. -/
theorem validSlug_of_canonical {slug path : String}
    (h : Candidate.canonicalPagePath slug = .ok path) : ValidSlug slug ∧
      path = if stripSlashes slug = "" then "/" else "/" ++ stripSlashes slug ++ "/" := by
  unfold Candidate.canonicalPagePath at h
  split at h
  · next hroot =>
    cases h
    rw [hroot]
    decide
  split_ifs at h with hpath
  cases h
  rw [Bool.not_eq_true', Bool.not_eq_false] at hpath
  refine ⟨.inr ?_, (if_neg (Candidate.stripSlashes_ne_empty hpath)).symm⟩
  have hshape := hpath
  unfold isPagePath at hshape
  split at hshape
  swap
  · cases hshape
  next cs hcs =>
  have hhead : ∀ ds, pathTail true ds = true → ds.head? ≠ some '/' := by
    intro ds hds
    cases ds with
    | nil => exact nofun
    | cons d ds =>
      rw [List.head?_cons, ne_eq, Option.some.injEq]
      rintro rfl
      exact absurd (Bool.and_eq_true_iff.mp hds).1 (by decide)
  have hstripped : ∃ ds, stripBy (· == '/') slug.toList = ds ∧ pathTail true ds = true := by
    by_cases hlast : cs.getLast? = some '/'
    · obtain ⟨ds, rfl⟩ : ∃ ds, cs = ds ++ ['/'] := by
        rw [List.getLast?_eq_some_iff] at hlast
        exact hlast
      obtain ⟨htail, hend⟩ := pathTail_of_append_slash ds true hshape
      refine ⟨ds, ?_, htail⟩
      rw [hcs, show '/' :: (ds ++ ['/']) = ['/'] ++ ds ++ ['/'] from rfl,
        stripBy_wrap (by simp) (by simp)]
      exact stripBy_slash_eq_self (hhead ds htail) hend
    · refine ⟨cs, ?_, hshape⟩
      rw [hcs, show '/' :: cs = ['/'] ++ cs ++ [] by simp, stripBy_wrap (by simp) (by simp)]
      exact stripBy_slash_eq_self (hhead cs hshape) hlast
  obtain ⟨ds, hds, htail⟩ := hstripped
  have hlist : (stripSlashes slug).toList = ds := by rw [stripSlashes, String.toList_ofList, hds]
  rw [isPagePath, String.toList_append, hlist]
  exact htail

end MegaPanel.StaticSite
