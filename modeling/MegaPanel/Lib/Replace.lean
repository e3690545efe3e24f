import MegaPanel.Lib.Text

set_option autoImplicit false

/-! # Replacing part by part

`replace` goes through a text from left to right. Where a part starts with a character that the
pattern has at most at its own start, no match reaches over into it, so the text may be replaced
part by part (`replace_append_cons`); and what is put in is there afterwards (`infix_replace`).
-/

namespace MegaPanel.Lib.Text

variable {pattern new : List Char}

/-- The skipped rest of a match. -/
theorem replaceFrom_skip (skipped text : List Char) :
    replaceFrom pattern new skipped.length (skipped ++ text) = replaceFrom pattern new 0 text := by
  induction skipped with
  | nil => rfl
  | cons c cs ih =>
    rw [List.length_cons, List.cons_append, replaceFrom]
    exact ih

/-- A match at the start. -/
theorem replace_pattern (hne : pattern ≠ []) (text : List Char) :
    replace pattern new (pattern ++ text) = new ++ replace pattern new text := by
  cases pattern with
  | nil => exact absurd rfl hne
  | cons c cs =>
    have hmatch : (c :: cs).isPrefixOf (c :: (cs ++ text)) = true := by
      rw [List.isPrefixOf_iff_prefix]
      exact List.prefix_append (c :: cs) text
    rw [replace, List.cons_append, replaceFrom, hmatch, if_pos rfl, List.length_cons,
      Nat.add_sub_cancel, replaceFrom_skip]
    rfl

variable {c : Char} {text : List Char}

/-- No match at the start. -/
theorem replace_cons (hno : ¬ pattern <+: c :: text) :
    replace pattern new (c :: text) = c :: replace pattern new text := by
  have hmatch : pattern.isPrefixOf (c :: text) = false := by
    rw [← Bool.not_eq_true, List.isPrefixOf_iff_prefix]
    exact hno
  rw [replace, replaceFrom, hmatch, if_neg Bool.false_ne_true]
  rfl

theorem replace_nil (pattern new : List Char) : replace pattern new [] = [] := rfl

variable {p : Char} {ps : List Char}

/-- A match that starts before a character which only the start of the pattern may have ends before
it. -/
theorem prefix_of_prefix_append_cons (hc : c ∉ ps) {start : List Char} (hne : start ≠ [])
    (h : p :: ps <+: start ++ c :: text) : p :: ps <+: start := by
  rcases List.prefix_or_prefix_of_prefix h (List.prefix_append start (c :: text)) with hp | hp
  · exact hp
  obtain ⟨rest, hrest⟩ := hp
  cases rest with
  | nil => exact ⟨[], by rw [List.append_nil, ← hrest, List.append_nil]⟩
  | cons d ds =>
    rw [← hrest, List.prefix_append_right_inj, List.cons_prefix_cons] at h
    cases start with
    | nil => exact absurd rfl hne
    | cons e es =>
      have htail := (List.cons_eq_cons.mp hrest).2
      exact absurd (by rw [← htail, ← h.1]; simp) hc

/-- A text may be replaced part by part. -/
theorem replace_append_cons (hc : c ∉ ps) (text : List Char) :
    ∀ start : List Char, replace (p :: ps) new (start ++ c :: text) =
      replace (p :: ps) new start ++ replace (p :: ps) new (c :: text)
  | [] => rfl
  | d :: ds => by
    by_cases hmatch : p :: ps <+: d :: ds ++ c :: text
    · -- the match lies in the first part, and the scan goes on behind it
      obtain ⟨rest, hrest⟩ := prefix_of_prefix_append_cons hc (List.cons_ne_nil d ds) hmatch
      have hlt : rest.length ≤ ds.length := by
        have hlength := congrArg List.length hrest
        rw [List.length_append, List.length_cons, List.length_cons] at hlength
        omega
      rw [← hrest, List.append_assoc, replace_pattern (List.cons_ne_nil p ps),
        replace_pattern (List.cons_ne_nil p ps), replace_append_cons hc text rest,
        List.append_assoc]
    · have hno : ¬ p :: ps <+: d :: ds :=
        fun h => hmatch (h.trans (List.prefix_append (d :: ds) (c :: text)))
      rw [List.cons_append] at hmatch ⊢
      rw [replace_cons hmatch, replace_cons hno, replace_append_cons hc text ds,
        List.cons_append]
termination_by start => start.length

/-- What is put in for a match is in the result. -/
theorem infix_replace (hne : pattern ≠ []) (h : pattern <:+: text) :
    new <:+: replace pattern new text := by
  induction text with
  | nil => exact absurd (List.infix_nil.mp h) hne
  | cons c cs ih =>
    by_cases hmatch : pattern <+: c :: cs
    · obtain ⟨rest, hrest⟩ := hmatch
      rw [← hrest, replace_pattern hne]
      exact (List.prefix_append new _).isInfix
    · rw [replace_cons hmatch]
      exact (ih ((List.infix_cons_iff.mp h).resolve_left hmatch)).trans
        (List.suffix_cons c _).isInfix

/-- A text that no match touches, neither inside nor from before, is in the result if it is in the
text. -/
theorem infix_replace_of_stays {kept : List Char} (hc : c ∉ ps)
    (hstays : staysUnder (p :: ps) (c :: kept) = true) (h : c :: kept <:+: text) :
    c :: kept <:+: replace (p :: ps) new text := by
  obtain ⟨start, rest, rfl⟩ := h
  rw [List.append_assoc, List.cons_append, replace_append_cons hc, ← List.cons_append,
    replace_append_of_stays hstays, ← List.append_assoc]
  exact List.infix_append _ _ _

end MegaPanel.Lib.Text
