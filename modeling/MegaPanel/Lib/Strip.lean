import MegaPanel.Lib.Text

set_option autoImplicit false

/-! # Stripped texts

Stripping removes characters of a set at both ends and no others: what stands around a text is
removed with its own ends, and other characters are as many afterwards. -/

namespace MegaPanel.Lib.Text

variable {p : Char → Bool}

variable {front back : List Char}

theorem stripBy_append {c : Char} (hfront : front.head? = some c) (hc : p c = false)
    (hback : ∀ h : back ≠ [], p (back.getLast h) = false) (hne : back ≠ []) :
    stripBy p (front ++ back) = front ++ back := by
  have hne' : front ++ back ≠ [] := by simp [hne]
  have hdrop : (front ++ back).dropWhile p = front ++ back := by
    cases front with
    | nil => cases hfront
    | cons d rest =>
      obtain rfl : d = c := Option.some.inj hfront
      simp [hc]
  rw [stripBy, hdrop, List.rdropWhile_eq_self_iff]
  intro h
  rw [List.getLast_append_of_ne_nil _ hne, hback hne]
  exact Bool.false_ne_true

variable {text : List Char}

theorem stripBy_getLast (h : stripBy p text ≠ []) : p ((stripBy p text).getLast h) = false := by
  have hlast := List.rdropWhile_last_not p (text.dropWhile p) h
  rw [Bool.not_eq_true] at hlast
  exact hlast

/-- A text stands between what is stripped of it. -/
theorem stripBy_split (p : Char → Bool) (text : List Char) : ∃ front back,
    text = front ++ stripBy p text ++ back ∧ (∀ c ∈ front, p c = true) ∧ ∀ c ∈ back, p c = true := by
  refine ⟨text.takeWhile p, (text.dropWhile p).rtakeWhile p, ?_,
    fun c hc => List.mem_takeWhile_imp hc, fun c hc => List.mem_rtakeWhile_imp hc⟩
  rw [List.append_assoc, stripBy, List.rdropWhile_append_rtakeWhile,
    List.takeWhile_append_dropWhile]

theorem dropWhile_append_of_all (h : ∀ c ∈ front, p c = true) :
    (front ++ text).dropWhile p = text.dropWhile p := by
  induction front with
  | nil => rfl
  | cons c cs ih =>
    rw [List.cons_append, List.dropWhile_cons_of_pos (h c List.mem_cons_self)]
    exact ih (fun d hd => h d (List.mem_cons_of_mem c hd))

/-- What may be stripped may as well be added. -/
theorem stripBy_wrap (hfront : ∀ c ∈ front, p c = true) (hback : ∀ c ∈ back, p c = true) :
    stripBy p (front ++ text ++ back) = stripBy p text := by
  rw [stripBy, List.append_assoc, dropWhile_append_of_all hfront, stripBy]
  by_cases hall : ∀ c ∈ text, p c = true
  · rw [dropWhile_append_of_all hall, List.dropWhile_eq_nil_iff.mpr hback,
      List.dropWhile_eq_nil_iff.mpr hall]
  · have hne : text.dropWhile p ≠ [] := fun hnil => hall (List.dropWhile_eq_nil_iff.mp hnil)
    rw [List.dropWhile_append, if_neg (by rwa [List.isEmpty_iff]), List.rdropWhile,
      List.reverse_append, dropWhile_append_of_all (fun c hc => hback c (List.mem_reverse.mp hc)),
      List.rdropWhile]

theorem stripBy_stripBy (text : List Char) : stripBy p (stripBy p text) = stripBy p text := by
  obtain ⟨front, back, htext, hfront, hback⟩ := stripBy_split p text
  calc stripBy p (stripBy p text) = stripBy p (front ++ stripBy p text ++ back) :=
        (stripBy_wrap hfront hback).symm
    _ = stripBy p text := by rw [← htext]

/-- The other characters are all kept. -/
theorem count_stripBy {c : Char} (hc : p c = false) (text : List Char) :
    (stripBy p text).count c = text.count c := by
  obtain ⟨front, back, htext, hfront, hback⟩ := stripBy_split p text
  have hnone : ∀ part : List Char, (∀ d ∈ part, p d = true) → part.count c = 0 := by
    intro part hpart
    rw [List.count_eq_zero]
    intro hmem
    rw [hpart c hmem] at hc
    cases hc
  calc (stripBy p text).count c = (front ++ stripBy p text ++ back).count c := by
        rw [List.count_append, List.count_append, hnone front hfront, hnone back hback]
        omega
    _ = text.count c := by rw [← htext]

theorem stripSlashes_wrap (text : String) :
    stripSlashes ("/" ++ stripSlashes text ++ "/") = stripSlashes text := by
  have hslash : ∀ c ∈ "/".toList, (c == '/') = true := by decide
  rw [stripSlashes, String.toList_append, String.toList_append, stripBy_wrap hslash hslash,
    stripSlashes, String.toList_ofList, stripBy_stripBy]

end MegaPanel.Lib.Text
