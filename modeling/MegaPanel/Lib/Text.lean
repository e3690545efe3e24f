import Mathlib.Data.List.DropRight
import MegaPanel.Lib.Chars

set_option autoImplicit false

/-! # Text as Python reads it

Character-list versions of the string methods a validator leans on: `isspace`, `strip`,
`replace`, and the reading and writing of numbers in a fixed number of digits. `digits` and
`readDigits` are inverse to each other (`readDigits_digits`), whatever stands behind the
digits, so formats built from fields of fixed width are read back field by field.
-/

namespace MegaPanel.Lib.Text

/-! ## White space and stripping -/

variable {p : Char → Bool} {text : List Char}

/-- `str.isspace()` of one character, which is also the class `\s` of `re`. -/
def isSpace (c : Char) : Bool :=
  let n := c.toNat
  (9 ≤ n && n ≤ 13) || (28 ≤ n && n ≤ 32) || n == 0x85 || n == 0xa0 || n == 0x1680
    || (0x2000 ≤ n && n ≤ 0x200a) || n == 0x2028 || n == 0x2029 || n == 0x202f || n == 0x205f
    || n == 0x3000

/-- `strip` with the set of characters to remove at both ends. -/
def stripBy (p : Char → Bool) (text : List Char) : List Char := (text.dropWhile p).rdropWhile p

theorem stripBy_eq_nil_iff : stripBy p text = [] ↔ ∀ c ∈ text, p c = true := by
  rw [stripBy, List.rdropWhile_eq_nil_iff]
  constructor
  · intro h c hc
    rw [← List.takeWhile_append_dropWhile (p := p) (l := text), List.mem_append] at hc
    rcases hc with hc | hc
    · exact List.mem_takeWhile_imp hc
    · exact h c hc
  · intro h c hc
    exact h c (List.dropWhile_subset p hc)

/-- `text.strip()` -/
def strip (text : String) : String := String.ofList (stripBy isSpace text.toList)

/-- `text.strip("/")` -/
def stripSlashes (text : String) : String := String.ofList (stripBy (· == '/') text.toList)

/-- A text without a character of the set at either end is stripped already. -/
theorem stripBy_eq_self (h : ∀ c ∈ text, p c = false) : stripBy p text = text := by
  have hdrop : text.dropWhile p = text := by
    cases text with
    | nil => rfl
    | cons c cs => simp [h c (by simp)]
  rw [stripBy, hdrop, List.rdropWhile, List.dropWhile_eq_self_iff.mpr, List.reverse_reverse]
  intro hl
  rw [h _ (List.mem_reverse.mp (List.getElem_mem hl))]
  exact Bool.false_ne_true

/-! ## Replacing -/

variable {pattern new : List Char} {c : Char}

/-- The scan behind `replace`: `skip` characters of a match are still to be passed over. -/
def replaceFrom (pattern new : List Char) : Nat → List Char → List Char
  | _, [] => []
  | skip + 1, _ :: cs => replaceFrom pattern new skip cs
  | 0, c :: cs =>
    if pattern.isPrefixOf (c :: cs) then new ++ replaceFrom pattern new (pattern.length - 1) cs
    else c :: replaceFrom pattern new 0 cs

/-- `text.replace(pattern, new)`, for a pattern that is not empty. -/
def replace (pattern new text : List Char) : List Char := replaceFrom pattern new 0 text

/-- A text that lacks the first character of the pattern has no match in it. -/
theorem replace_eq_self {c : Char} {pattern new text : List Char} (h : c ∉ text) :
    replace (c :: pattern) new text = text := by
  rw [replace]
  induction text with
  | nil => rfl
  | cons d ds ih =>
    rw [List.mem_cons, not_or] at h
    have hno : (c :: pattern).isPrefixOf (d :: ds) = false := by
      simp [List.isPrefixOf, h.1]
    rw [replaceFrom, hno, if_neg Bool.false_ne_true, ih h.2]

/-- Replacing a single character by nothing deletes it. -/
theorem replace_singleton (c : Char) (text : List Char) :
    replace [c] [] text = text.filter (· ≠ c) := by
  rw [replace]
  induction text with
  | nil => rfl
  | cons d ds ih =>
    rw [replaceFrom]
    by_cases hd : d = c
    · have hfirst : [c].isPrefixOf (d :: ds) = true := by simp [List.isPrefixOf, hd]
      rw [hfirst, if_pos rfl, List.filter_cons_of_neg (by simpa using hd)]
      exact ih
    · have hno : [c].isPrefixOf (d :: ds) = false := by simp [List.isPrefixOf, Ne.symm hd]
      rw [hno, if_neg Bool.false_ne_true, List.filter_cons_of_pos (by simpa using hd), ih]

/-- Where the pattern starts nowhere in a first part, that part stays as it is. -/
theorem replace_append {start : List Char}
    (h : ∀ behind, behind <:+ start → behind ≠ [] → ¬ pattern <+: behind ++ text) :
    replace pattern new (start ++ text) = start ++ replace pattern new text := by
  induction start with
  | nil => rfl
  | cons c cs ih =>
    have hno : pattern.isPrefixOf (c :: (cs ++ text)) = false := by
      rw [← Bool.not_eq_true, List.isPrefixOf_iff_prefix]
      exact h (c :: cs) List.suffix_rfl (List.cons_ne_nil c cs)
    have htail : replaceFrom pattern new 0 (cs ++ text) = cs ++ replaceFrom pattern new 0 text :=
      ih (fun behind hbehind => h behind (hbehind.trans (List.suffix_cons c cs)))
    rw [replace, List.cons_append, replaceFrom, hno, if_neg Bool.false_ne_true, htail]
    rfl

/-- A part without the first character of the pattern stays. -/
theorem replace_append_of_notMem {start : List Char} (h : c ∉ start) :
    replace (c :: pattern) new (start ++ text) = start ++ replace (c :: pattern) new text := by
  refine replace_append (fun behind hbehind hne hmatch => ?_)
  cases behind with
  | nil => exact hne rfl
  | cons d ds =>
    rw [List.cons_append, List.cons_prefix_cons] at hmatch
    exact h (hbehind.subset (hmatch.1 ▸ List.mem_cons_self))

/-- No match of the pattern starts in the part, whatever follows it. -/
def staysUnder (pattern start : List Char) : Bool :=
  start.tails.all (fun behind =>
    behind.isEmpty || (!behind.isPrefixOf pattern && !pattern.isPrefixOf behind))

theorem not_prefix_of_stays {start behind : List Char} (h : staysUnder pattern start = true)
    (hbehind : behind <:+ start) (hne : behind ≠ []) : ¬ pattern <+: behind ++ text := by
  intro hmatch
  have hcase := List.all_eq_true.mp h behind ((List.mem_tails _ _).mpr hbehind)
  rw [Bool.or_eq_true, List.isEmpty_iff, Bool.and_eq_true, Bool.not_eq_true', Bool.not_eq_true',
    ← Bool.not_eq_true, ← Bool.not_eq_true, List.isPrefixOf_iff_prefix,
    List.isPrefixOf_iff_prefix] at hcase
  obtain ⟨hshort, hlong⟩ := hcase.resolve_left hne
  rcases List.prefix_or_prefix_of_prefix hmatch (List.prefix_append behind text) with hp | hp
  · exact hlong hp
  · exact hshort hp

theorem replace_append_of_stays {start : List Char} (h : staysUnder pattern start = true) :
    replace pattern new (start ++ text) = start ++ replace pattern new text :=
  replace_append (fun _ hbehind hne => not_prefix_of_stays h hbehind hne)

/-! ## Digits -/

variable {b w n : Nat}

/-- The value of a hexadecimal digit of either case; sixteen for any other character. -/
def hexValue (c : Char) : Nat :=
  let n := c.toNat
  if 48 ≤ n ∧ n ≤ 57 then n - 48
  else if 97 ≤ n ∧ n ≤ 102 then n - 87
  else if 65 ≤ n ∧ n ≤ 70 then n - 55
  else 16

/-- The value of a digit in base `b`, for a base up to sixteen. -/
def digitValue (b : Nat) (c : Char) : Option Nat :=
  if hexValue c < b then some (hexValue c) else none

theorem hexValue_digitChar : ∀ d < 16, hexValue d.digitChar = d := by decide

theorem digitValue_digitChar {d : Nat} (hd : d < b) (hb : b ≤ 16) :
    digitValue b d.digitChar = some d := by
  rw [digitValue, hexValue_digitChar d (hd.trans_le hb), if_pos hd]

/-- `n` in base `b` with `w` digits. -/
def digits (b : Nat) : Nat → Nat → List Char
  | 0, _ => []
  | w + 1, n => (n / b ^ w % b).digitChar :: digits b w n

/-- Read `w` digits and continue the number `acc` with them; the rest comes back too. -/
def readDigits (b : Nat) : Nat → Nat → List Char → Option (Nat × List Char)
  | 0, acc, text => some (acc, text)
  | _ + 1, _, [] => none
  | w + 1, acc, c :: cs =>
    match digitValue b c with
    | none => none
    | some d => readDigits b w (acc * b + d) cs

theorem length_digits (b w n : Nat) : (digits b w n).length = w := by
  induction w with
  | zero => rfl
  | succ w ih => rw [digits, List.length_cons, ih]

/-- Every character written is the digit of a number below the base. -/
theorem mem_digits (hb : 0 < b) (hc : c ∈ digits b w n) : ∃ d < b, c = d.digitChar := by
  induction w with
  | zero => cases hc
  | succ w ih =>
    rcases List.mem_cons.mp hc with rfl | hc
    · exact ⟨_, Nat.mod_lt _ hb, rfl⟩
    · exact ih hc

/-- Reading digits continues the number read so far. -/
theorem readDigits_append (hb : 0 < b) (hb' : b ≤ 16) (w acc n : Nat) (rest : List Char) :
    readDigits b w acc (digits b w n ++ rest) = some (acc * b ^ w + n % b ^ w, rest) := by
  induction w generalizing acc with
  | zero => simp [readDigits, digits, Nat.mod_one]
  | succ w ih =>
    have hd : n / b ^ w % b < b := Nat.mod_lt _ hb
    have hsum : (acc * b + n / b ^ w % b) * b ^ w + n % b ^ w
        = acc * b ^ (w + 1) + n % b ^ (w + 1) := by
      rw [Nat.mod_pow_succ]
      ring
    show (match digitValue b (n / b ^ w % b).digitChar with
      | none => none
      | some d => readDigits b w (acc * b + d) (digits b w n ++ rest)) = _
    rw [digitValue_digitChar hd hb']
    show readDigits b w (acc * b + n / b ^ w % b) (digits b w n ++ rest) = _
    rw [ih, hsum]

/-- **Numbers of fixed width are read back.** -/
theorem readDigits_digits (hb : 0 < b) (hb' : b ≤ 16) (hn : n < b ^ w) (rest : List Char) :
    readDigits b w 0 (digits b w n ++ rest) = some (n, rest) := by
  rw [readDigits_append hb hb', Nat.zero_mul, Nat.zero_add, Nat.mod_eq_of_lt hn]

/-! ## Splitting -/

theorem mem_intercalate {α : Type*} {sep : List α} {x : α} :
    ∀ {pieces : List (List α)}, x ∈ sep.intercalate pieces → x ∈ sep ∨ ∃ l ∈ pieces, x ∈ l
  | [], h => by simp at h
  | [l], h => .inr ⟨l, List.mem_singleton_self l, by simpa using h⟩
  | l :: m :: pieces, h => by
    rw [List.intercalate_cons_cons, List.mem_append, List.mem_append] at h
    rcases h with (hl | hsep) | hrest
    · exact .inr ⟨l, List.mem_cons_self .., hl⟩
    · exact .inl hsep
    refine (mem_intercalate hrest).imp_right ?_
    rintro ⟨k, hk, hx⟩
    exact ⟨k, List.mem_cons_of_mem _ hk, hx⟩

/-- What is in a text is a separator or in one of the pieces. -/
theorem mem_splitOn {sep : Char} (h : c ∈ text) : c = sep ∨ ∃ l ∈ text.splitOn sep, c ∈ l := by
  have heq : [sep].intercalate (text.splitOn sep) = text :=
    List.intercalate_splitOn sep
  rw [← heq] at h
  exact (mem_intercalate h).imp_left List.mem_singleton.mp

end MegaPanel.Lib.Text
