import MegaPanel.Lib.Chars

set_option autoImplicit false

/-! # Replacing the matches of a pattern

`re.sub(pattern, new, text)` for a pattern that matches no empty text: the text is scanned from the
left, a match is replaced by `new`, and the scan goes on behind it. The pattern is given by the length
`len rest` of its match at the beginning of `rest`, zero for none. What stands between the matches are
the *pieces* of the text, and the result is the pieces with `new` between them
(`substitute_eq_intercalate`). A list that cannot overlap with `new` is in the result exactly when it
is in a piece (`infix_substitute_iff`).
-/

namespace MegaPanel.Lib

variable {α : Type*}

/-- The scan: `skip` elements of a match are still to be passed over. -/
def substituteFrom (len : List α → Nat) (new : List α) : Nat → List α → List α
  | _, [] => []
  | skip + 1, _ :: cs => substituteFrom len new skip cs
  | 0, c :: cs =>
    match len (c :: cs) with
    | 0 => c :: substituteFrom len new 0 cs
    | n + 1 => new ++ substituteFrom len new n cs

def substitute (len : List α → Nat) (new text : List α) : List α := substituteFrom len new 0 text

/-- An element before the first piece. -/
def consPiece (c : α) : List (List α) → List (List α)
  | [] => [[c]]
  | p :: ps => (c :: p) :: ps

def piecesFrom (len : List α → Nat) : Nat → List α → List (List α)
  | _, [] => [[]]
  | skip + 1, _ :: cs => piecesFrom len skip cs
  | 0, c :: cs =>
    match len (c :: cs) with
    | 0 => consPiece c (piecesFrom len 0 cs)
    | n + 1 => [] :: piecesFrom len n cs

/-- What stands before, between and behind the matches. -/
def pieces (len : List α → Nat) (text : List α) : List (List α) := piecesFrom len 0 text

/-! ## Pieces and the result -/

theorem consPiece_ne_nil (c : α) (ps : List (List α)) : consPiece c ps ≠ [] := by
  cases ps with
  | nil | cons p ps => exact List.cons_ne_nil _ _

theorem piecesFrom_ne_nil (len : List α → Nat) (skip : Nat) (text : List α) :
    piecesFrom len skip text ≠ [] := by
  induction text generalizing skip with
  | nil => cases skip <;> exact List.cons_ne_nil _ _
  | cons c cs ih =>
    cases skip with
    | succ n => exact ih n
    | zero =>
      rw [piecesFrom]
      split
      · exact consPiece_ne_nil c _
      · exact List.cons_ne_nil _ _

theorem intercalate_cons {new p : List α} {ps : List (List α)} (h : ps ≠ []) :
    new.intercalate (p :: ps) = p ++ (new ++ new.intercalate ps) := by
  cases ps with
  | nil => exact absurd rfl h
  | cons q qs => simp [List.intercalate, List.intersperse]

theorem intercalate_consPiece {new : List α} {c : α} {ps : List (List α)} (h : ps ≠ []) :
    new.intercalate (consPiece c ps) = c :: new.intercalate ps := by
  cases ps with
  | nil => exact absurd rfl h
  | cons p qs =>
    rw [consPiece]
    cases qs with
    | nil => simp [List.intercalate]
    | cons q qs =>
      rw [intercalate_cons (List.cons_ne_nil q qs), intercalate_cons (List.cons_ne_nil q qs),
        List.cons_append]

theorem substituteFrom_eq_intercalate (len : List α → Nat) (new : List α) (skip : Nat)
    (text : List α) :
    substituteFrom len new skip text = new.intercalate (piecesFrom len skip text) := by
  induction text generalizing skip with
  | nil => cases skip <;> simp [substituteFrom, piecesFrom, List.intercalate]
  | cons c cs ih =>
    cases skip with
    | succ n => exact ih n
    | zero =>
      rw [substituteFrom, piecesFrom]
      split
      · rw [intercalate_consPiece (piecesFrom_ne_nil len 0 cs), ih 0]
      · next n _ =>
        rw [intercalate_cons (piecesFrom_ne_nil len n cs), ih n, List.nil_append]

/-- **The result is the pieces with the replacement between them.** -/
theorem substitute_eq_intercalate (len : List α → Nat) (new text : List α) :
    substitute len new text = new.intercalate (pieces len text) :=
  substituteFrom_eq_intercalate len new 0 text

/-- The pieces are parts of the text, and the first one is its beginning. -/
theorem piecesFrom_parts (len : List α → Nat) (skip : Nat) (text : List α) :
    (∀ p ∈ piecesFrom len skip text, p <:+: text) ∧
      (skip = 0 → ∀ p, (piecesFrom len skip text).head? = some p → p <+: text) := by
  induction text generalizing skip with
  | nil =>
    have hnil : piecesFrom len skip [] = [[]] := by cases skip <;> rfl
    rw [hnil]
    exact ⟨by simp, fun _ p hp => by cases hp; exact List.nil_prefix⟩
  | cons c cs ih =>
    have hsuffix : cs <:+: c :: cs := (List.suffix_cons c cs).isInfix
    cases skip with
    | succ n => exact ⟨fun p hp => ((ih n).1 p hp).trans hsuffix, fun h => by cases h⟩
    | zero =>
      rw [piecesFrom]
      split
      · obtain ⟨hall, hfirst⟩ := ih 0
        cases hps : piecesFrom len 0 cs with
        | nil => exact absurd hps (piecesFrom_ne_nil len 0 cs)
        | cons p ps =>
          rw [hps] at hall hfirst
          have hp : c :: p <+: c :: cs :=
            List.cons_prefix_cons.mpr ⟨rfl, hfirst rfl p rfl⟩
          refine ⟨fun q hq => ?_, fun _ q hq => by cases hq; exact hp⟩
          rcases List.mem_cons.mp hq with rfl | hq
          · exact hp.isInfix
          · exact (hall q (List.mem_cons_of_mem p hq)).trans hsuffix
      · next n _ =>
        refine ⟨fun p hp => ?_, fun _ p hp => by cases hp; exact List.nil_prefix⟩
        rcases List.mem_cons.mp hp with rfl | hp
        · exact List.nil_infix
        · exact ((ih n).1 p hp).trans hsuffix

theorem infix_of_mem_pieces {len : List α → Nat} {text p : List α} (h : p ∈ pieces len text) :
    p <:+: text := (piecesFrom_parts len 0 text).1 p h

/-! ## What is left of the text -/

/-- A text without a match is left as it is. -/
theorem substitute_eq_self {len : List α → Nat} {new text : List α}
    (h : ∀ rest, rest <:+ text → len rest = 0) : substitute len new text = text := by
  induction text with
  | nil => rfl
  | cons c cs ih =>
    rw [substitute, substituteFrom, h (c :: cs) (List.suffix_refl _)]
    exact congrArg (c :: ·) (ih (fun rest hrest => h rest (hrest.trans (List.suffix_cons c cs))))

/-- A text with a match has the replacement in it. -/
theorem subset_substitute {len : List α → Nat} {new text rest : List α} (hrest : rest <:+ text)
    (hne : rest ≠ []) (hlen : len rest ≠ 0) : ∀ x ∈ new, x ∈ substitute len new text := by
  induction text with
  | nil => exact absurd (List.suffix_nil.mp hrest) hne
  | cons c cs ih =>
    intro x hx
    rw [substitute, substituteFrom]
    split
    · next hzero =>
      rcases List.suffix_cons_iff.mp hrest with rfl | hrest
      · exact absurd hzero hlen
      · exact List.mem_cons_of_mem _ (ih hrest x hx)
    · exact List.mem_append_left _ hx

/-- What is in the result was in the text or is new. -/
theorem mem_substituteFrom {len : List α → Nat} {new text : List α} {x : α} {skip : Nat}
    (h : x ∈ substituteFrom len new skip text) : x ∈ text ∨ x ∈ new := by
  induction text generalizing skip with
  | nil => cases skip <;> cases h
  | cons c cs ih =>
    cases skip with
    | succ n => exact (ih h).imp_left (List.mem_cons_of_mem c)
    | zero =>
      rw [substituteFrom] at h
      split at h
      · rcases List.mem_cons.mp h with rfl | h
        · exact .inl (List.mem_cons_self ..)
        · exact (ih h).imp_left (List.mem_cons_of_mem c)
      · rcases List.mem_append.mp h with h | h
        · exact .inr h
        · exact (ih h).imp_left (List.mem_cons_of_mem c)

/-- A list in a text has no part on both sides of an element that is not in it. -/
theorem infix_append_cons_iff {x : α} {s a b : List α} (hx : x ∉ s) :
    s <:+: a ++ x :: b ↔ s <:+: a ∨ s <:+: b := by
  constructor
  · rintro ⟨pre, post, h⟩
    rw [List.append_assoc] at h
    rcases List.append_eq_append_iff.mp h with ⟨mid, hmid, hrest⟩ | ⟨mid, hmid, hrest⟩
    · -- the list begins before the element, so it also ends there
      rcases List.append_eq_append_iff.mp hrest with ⟨tail, htail, _⟩ | ⟨tail, htail, hpost⟩
      · exact .inl ⟨pre, tail, by rw [hmid, htail, List.append_assoc]⟩
      cases tail with
      | nil =>
        rw [List.append_nil] at htail
        exact .inl ⟨pre, [], by rw [hmid, htail, List.append_nil]⟩
      | cons y ys =>
        rw [List.cons_append] at hpost
        have hy := (List.cons.inj hpost).1
        exact absurd (by rw [htail, hy]; simp) hx
    · cases mid with
      | nil =>
        rw [List.nil_append] at hrest
        cases s with
        | nil => exact .inl (List.nil_infix)
        | cons y ys =>
          rw [List.cons_append] at hrest
          exact absurd (by rw [(List.cons.inj hrest).1]; simp) hx
      | cons y ys =>
        rw [List.cons_append] at hrest
        exact .inr ⟨ys, post, by rw [List.append_assoc]; exact (List.cons.inj hrest).2.symm⟩
  · rintro (⟨pre, post, rfl⟩ | ⟨pre, post, rfl⟩)
    · exact ⟨pre, post ++ x :: b, by simp⟩
    · exact ⟨a ++ x :: pre, post, by simp⟩

/-- **What survives**: a list that can overlap with no replacement is in the result exactly when it is
in a piece. -/
theorem infix_substitute_iff {len : List α → Nat} {first last : α} {middle s text : List α}
    (hfirst : first ∉ s) (hlast : last ∉ s) (hmiddle : ¬ s <:+: middle) :
    s <:+: substitute len (first :: (middle ++ [last])) text ↔
      ∃ p ∈ pieces len text, s <:+: p := by
  rw [substitute_eq_intercalate]
  generalize hps : pieces len text = ps
  have hne : ps ≠ [] := hps ▸ piecesFrom_ne_nil len 0 text
  clear hps
  induction ps with
  | nil => exact absurd rfl hne
  | cons p ps ih =>
    cases ps with
    | nil => simp [List.intercalate]
    | cons q qs =>
      have hqs := List.cons_ne_nil q qs
      have hrest : s <:+: (first :: (middle ++ [last])).intercalate (q :: qs) ↔
          ∃ p ∈ q :: qs, s <:+: p := ih hqs
      rw [intercalate_cons hqs, List.cons_append, List.append_assoc, List.singleton_append,
        infix_append_cons_iff hfirst, infix_append_cons_iff hlast, or_iff_right hmiddle,
        hrest]
      exact (List.exists_mem_cons_iff ..).symm

end MegaPanel.Lib
