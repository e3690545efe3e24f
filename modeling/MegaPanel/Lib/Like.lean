import MegaPanel.Lib.Chars

set_option autoImplicit false

/-! # SQL `LIKE`

The pattern language of PostgreSQL's `LIKE`: `%` stands for any text, `_` for any character, and a
backslash takes the next character as it is. A backslash at the end of the pattern is an error,
which is raised when the match reaches it with text left (`none`).

A pattern without these characters matches only itself (`like_plain`). Every other pattern accepts
a text that it does not spell, or fails on it: `misread` is such a text.
-/

namespace MegaPanel.Lib

/-! ## Matching -/

variable {c : Char} {pattern : List Char}

def like : List Char → List Char → Option Bool
  | [], text => some text.isEmpty
  | c :: p, text =>
    if c = '%' then ((text.tails.map (like p)).find? (· ≠ some false)).getD (some false)
    else
      match text with
      | [] => some false
      | x :: rest =>
        if c = '_' then like p rest
        else if c = '\\' then
          match p with
          | [] => none
          | d :: q => if d = x then like q rest else some false
        else if c = x then like p rest
        else some false

/-- A wildcard for any text. -/
theorem like_percent (p text : List Char) : like ('%' :: p) text
    = ((text.tails.map (like p)).find? (· ≠ some false)).getD (some false) := by
  rw [like.eq_def]
  exact if_pos rfl

/-- Any other character of a pattern against a character of the text. -/
theorem like_cons (h : c ≠ '%') (p : List Char) (x : Char) (rest : List Char) :
    like (c :: p) (x :: rest) =
      if c = '_' then like p rest
      else if c = '\\' then
        match p with
        | [] => none
        | d :: q => if d = x then like q rest else some false
      else if c = x then like p rest
      else some false := by
  rw [like.eq_def]
  exact if_neg h

theorem like_nil (h : c ≠ '%') (p : List Char) : like (c :: p) [] = some false := by
  rw [like.eq_def]
  exact if_neg h

/-- A character with a meaning of its own in a pattern. -/
def isSpecial (c : Char) : Bool := c = '%' || c = '_' || c = '\\'

/-- A pattern without special characters. -/
def isPlain (pattern : List Char) : Bool := pattern.all (fun c => !isSpecial c)

/-- A plain pattern is an equality. -/
theorem like_plain (h : isPlain pattern = true) (text : List Char) :
    like pattern text = some (decide (pattern = text)) := by
  induction pattern generalizing text with
  | nil => cases text <;> rfl
  | cons c p ih =>
    rw [isPlain, List.all_cons, Bool.and_eq_true, Bool.not_eq_true', isSpecial,
      Bool.or_eq_false_iff, Bool.or_eq_false_iff, decide_eq_false_iff_not,
      decide_eq_false_iff_not, decide_eq_false_iff_not] at h
    obtain ⟨⟨⟨hpercent, hunderscore⟩, hbackslash⟩, hp⟩ := h
    cases text with
    | nil => rw [like_nil hpercent]; simp
    | cons x rest =>
      rw [like_cons hpercent, if_neg hunderscore, if_neg hbackslash]
      by_cases hx : c = x
      · rw [if_pos hx, ih hp, hx]
        simp
      · rw [if_neg hx]
        simp [hx]

/-! ## Patterns that are no texts -/

/-- A text that a pattern accepts, or fails on: wildcards are left out or replaced, and escaped
characters stand without their backslash. -/
def misread : List Char → List Char
  | [] => []
  | c :: p =>
    if c = '%' then misread p
    else if c = '_' then 'x' :: misread p
    else if c = '\\' then
      match p with
      | [] => ['x']
      | d :: q => d :: misread q
    else c :: misread p

/-- The text is not simply rejected. -/
theorem like_misread (pattern : List Char) : like pattern (misread pattern) ≠ some false := by
  fun_induction misread pattern with
  | case1 => nofun
  | case2 p ih =>
    -- the first text tried for the wildcard is the empty one
    have hfind : ((misread p).tails.map (like p)).find? (· ≠ some false)
        = some (like p (misread p)) := by
      cases hp : misread p with
      | nil => rw [hp] at ih; simp [ih]
      | cons x rest => rw [hp] at ih; simp [ih]
    rw [like_percent, hfind]
    exact ih
  | case3 p hpercent ih =>
    rw [like_cons hpercent, if_pos rfl]
    exact ih
  | case4 hpercent hunderscore =>
    rw [like_cons hpercent, if_neg hunderscore, if_pos rfl]
    exact nofun
  | case5 d q hpercent hunderscore ih =>
    rw [like_cons hpercent, if_neg hunderscore, if_pos rfl]
    dsimp only
    rw [if_pos rfl]
    exact ih
  | case6 c p hpercent hunderscore hbackslash ih =>
    rw [like_cons hpercent, if_neg hunderscore, if_neg hbackslash, if_pos rfl]
    exact ih

theorem length_misread_le (pattern : List Char) : (misread pattern).length ≤ pattern.length := by
  fun_induction misread pattern with
  | case1 => exact Nat.le_refl _
  | case2 p ih => exact ih.trans (Nat.le_succ _)
  | case3 p hpercent ih => exact Nat.succ_le_succ ih
  | case4 hpercent hunderscore => exact Nat.le_refl _
  | case5 d q hpercent hunderscore ih => exact (Nat.succ_le_succ ih).trans (Nat.le_succ _)
  | case6 c p hpercent hunderscore hbackslash ih => exact Nat.succ_le_succ ih

/-- Only a plain pattern is that text itself. -/
theorem isPlain_of_misread_eq (h : misread pattern = pattern) : isPlain pattern = true := by
  fun_induction misread pattern with
  | case1 => rfl
  | case2 p ih =>
    have hlength := length_misread_le p
    rw [h, List.length_cons] at hlength
    omega
  | case3 p hpercent ih | case4 hpercent hunderscore => cases List.head_eq_of_cons_eq h
  | case5 d q hpercent hunderscore ih =>
    have hlength := length_misread_le q
    rw [List.tail_eq_of_cons_eq h, List.length_cons] at hlength
    omega
  | case6 c p hpercent hunderscore hbackslash ih =>
    rw [isPlain, List.all_cons, ← isPlain, ih (List.tail_eq_of_cons_eq h), Bool.and_true,
      isSpecial, decide_eq_false hpercent, decide_eq_false hunderscore,
      decide_eq_false hbackslash]
    rfl

/-- What is in it comes from the pattern, but for one letter. -/
theorem mem_misread (h : c ∈ misread pattern) : c ∈ pattern ∨ c = 'x' := by
  fun_induction misread pattern with
  | case1 => cases h
  | case2 p ih => exact (ih h).imp_left (List.mem_cons_of_mem _)
  | case3 p hpercent ih =>
    rcases List.mem_cons.mp h with rfl | h
    · exact .inr rfl
    · exact (ih h).imp_left (List.mem_cons_of_mem _)
  | case4 hpercent hunderscore => exact .inr (List.mem_singleton.mp h)
  | case5 d q hpercent hunderscore ih =>
    rcases List.mem_cons.mp h with rfl | h
    · exact .inl (List.mem_cons_of_mem _ List.mem_cons_self)
    · exact (ih h).imp_left (fun hq => List.mem_cons_of_mem _ (List.mem_cons_of_mem _ hq))
  | case6 d p hpercent hunderscore hbackslash ih =>
    rcases List.mem_cons.mp h with rfl | h
    · exact .inl List.mem_cons_self
    · exact (ih h).imp_left (List.mem_cons_of_mem _)

end MegaPanel.Lib
