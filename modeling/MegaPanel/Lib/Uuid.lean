import MegaPanel.Lib.Text

set_option autoImplicit false

/-! # UUIDs

`uuid.UUID` of Python's standard library: a number of 128 bits, written as 32 hexadecimal
digits in five groups. The constructor reads more than that (a URN, braces, hyphens
anywhere) and hands what is left to `int(text, 16)`. `ofText_str` is the round trip.
-/

namespace MegaPanel.Lib

open Text

/-! ## Numbers in base sixteen -/

/-- Hexadecimal digits with single underscores between them; `digit` tells whether the last
character was a digit. -/
def hexRun : Bool → Nat → List Char → Option Nat
  | digit, acc, [] => if digit then some acc else none
  | digit, acc, c :: cs =>
    if c = '_' then (if digit then hexRun false acc cs else none)
    else
      match digitValue 16 c with
      | none => none
      | some d => hexRun true (acc * 16 + d) cs

/-- Digits with an optional prefix `0x`, which one underscore may follow. -/
def readHex : List Char → Option Nat
  | '0' :: x :: cs =>
    if x = 'x' ∨ x = 'X' then hexRun false 0 (if cs.head? = some '_' then cs.tail else cs)
    else hexRun false 0 ('0' :: x :: cs)
  | cs => hexRun false 0 cs

/-- `int(text, 16)`, for the decimal digits of ASCII. -/
def intBase16 (text : List Char) : Option Int :=
  match stripBy isSpace text with
  | '-' :: cs => (readHex cs).map (fun n => -(n : Int))
  | '+' :: cs => (readHex cs).map Int.ofNat
  | cs => (readHex cs).map Int.ofNat

/-! ## The type -/

structure Uuid where
  int : Nat
  lt : int < 2 ^ 128

instance : DecidableEq Uuid := fun a b =>
  decidable_of_iff (a.int = b.int) ⟨fun h => by cases a; cases h; rfl, congrArg Uuid.int⟩

theorem Uuid.zero_lt : 0 < 2 ^ 128 := by decide

theorem Uuid.one_lt : 1 < 2 ^ 128 := by decide

/-- `'%032x' % self.int` -/
def Uuid.hex (u : Uuid) : List Char := digits 16 32 u.int

/-- `str(value)`: groups of 8, 4, 4, 4 and 12 digits. -/
def Uuid.str (u : Uuid) : String :=
  let hex := u.hex
  String.ofList (hex.take 8 ++ '-' :: (hex.drop 8).take 4 ++ '-' :: (hex.drop 12).take 4 ++
    '-' :: (hex.drop 16).take 4 ++ '-' :: hex.drop 20)

/-- `UUID(text)`; `none` is a `ValueError`. -/
def Uuid.ofText (text : String) : Option Uuid :=
  let hex := replace "uuid:".toList [] (replace "urn:".toList [] text.toList)
  let hex := replace ['-'] [] (stripBy (fun c => c == '{' || c == '}') hex)
  if hex.length ≠ 32 then none
  else
    match intBase16 hex with
    | none => none
    | some n => if h : 0 ≤ n ∧ n.toNat < 2 ^ 128 then some ⟨n.toNat, h.2⟩ else none

/-! ## The round trip -/

/-- A run of digits is a number of that many digits. -/
theorem hexRun_eq {cs : List Char} (hcs : cs ≠ []) (h : '_' ∉ cs) (digit : Bool) (acc : Nat) :
    hexRun digit acc cs = (readDigits 16 cs.length acc cs).map (·.1) := by
  induction cs generalizing digit acc with
  | nil => exact absurd rfl hcs
  | cons c cs ih =>
    rw [List.mem_cons, not_or] at h
    rw [hexRun, if_neg (Ne.symm h.1), List.length_cons, readDigits]
    cases digitValue 16 c with
    | none => rfl
    | some d =>
      cases cs with
      | nil => rfl
      | cons e es => exact ih (by simp) h.2 true (acc * 16 + d)

theorem hex_length (u : Uuid) : u.hex.length = 32 := length_digits 16 32 u.int

/-- A property of the sixteen digits holds of every character written. -/
theorem forall_mem_hex {p : Char → Prop} (hp : ∀ d < 16, p d.digitChar) (u : Uuid) :
    ∀ c ∈ u.hex, p c := by
  intro c hc
  obtain ⟨d, hd, rfl⟩ := mem_digits (by decide) hc
  exact hp d hd

/-- The groups put together are the digits again. -/
theorem filter_str (u : Uuid) : u.str.toList.filter (· ≠ '-') = u.hex := by
  have hall : u.hex.filter (· ≠ '-') = u.hex :=
    List.filter_eq_self.mpr (forall_mem_hex (by decide) u)
  have hgroups : u.hex = u.hex.take 8 ++ ((u.hex.drop 8).take 4 ++ ((u.hex.drop 12).take 4 ++
      ((u.hex.drop 16).take 4 ++ u.hex.drop 20))) := by
    have h16 := List.take_append_drop 4 (u.hex.drop 16)
    have h12 := List.take_append_drop 4 (u.hex.drop 12)
    have h8 := List.take_append_drop 4 (u.hex.drop 8)
    rw [List.drop_drop] at h16 h12 h8
    rw [h16, h12, h8, List.take_append_drop]
  have hjoin : (u.hex.take 8 ++ ((u.hex.drop 8).take 4 ++ ((u.hex.drop 12).take 4 ++
      ((u.hex.drop 16).take 4 ++ u.hex.drop 20)))).filter (· ≠ '-') = u.hex := by
    rw [← hgroups]
    exact hall
  rw [Uuid.str, String.toList_ofList]
  simpa [List.filter_append] using hjoin

theorem mem_str {u : Uuid} {c : Char} (hc : c ∈ u.str.toList) : c = '-' ∨ c ∈ u.hex := by
  by_cases h : c = '-'
  · exact Or.inl h
  right
  rw [← filter_str, List.mem_filter]
  exact ⟨hc, by simpa using h⟩

theorem intBase16_hex (u : Uuid) : intBase16 u.hex = some (u.int : Int) := by
  have hspace : ∀ c ∈ u.hex, isSpace c = false := forall_mem_hex (by decide) u
  have hplain : ∀ c ∈ u.hex, c ≠ '-' ∧ c ≠ '+' ∧ c ≠ 'x' ∧ c ≠ 'X' ∧ c ≠ '_' :=
    forall_mem_hex (by decide) u
  have hlen := hex_length u
  have hrun : hexRun false 0 u.hex = some u.int := by
    have hne : u.hex ≠ [] := by
      intro h
      rw [h] at hlen
      cases hlen
    have hread := readDigits_digits (b := 16) (w := 32) (n := u.int) (by decide) (by decide)
      (by simpa using u.lt) []
    rw [List.append_nil] at hread
    rw [hexRun_eq hne (fun h => (hplain _ h).2.2.2.2 rfl), hlen]
    show (readDigits 16 32 0 (digits 16 32 u.int)).map (·.1) = some u.int
    rw [hread]
    rfl
  have hhex : readHex u.hex = some u.int := by
    unfold readHex
    split
    · next x cs heq =>
      have hx := hplain x (by rw [heq]; simp)
      rw [if_neg (by simp [hx]), ← heq]
      exact hrun
    · exact hrun
  rw [intBase16, stripBy_eq_self hspace]
  split
  · next cs heq => exact absurd rfl (hplain '-' (by rw [heq]; simp)).1
  · next cs heq => exact absurd rfl (hplain '+' (by rw [heq]; simp)).2.1
  · rw [hhex]
    rfl

/-- **The round trip**: `UUID(str(value))` is the value. -/
theorem ofText_str (u : Uuid) : Uuid.ofText u.str = some u := by
  have hno : ∀ c ∈ u.str.toList, c ≠ 'u' ∧ c ≠ '{' ∧ c ≠ '}' := by
    intro c hc
    rcases mem_str hc with rfl | hc
    · decide
    · exact forall_mem_hex (p := fun c => c ≠ 'u' ∧ c ≠ '{' ∧ c ≠ '}') (by decide) u c hc
  have hu : 'u' ∉ u.str.toList := fun h => (hno _ h).1 rfl
  have hbrace : ∀ c ∈ u.str.toList, (c == '{' || c == '}') = false := by
    intro c hc
    simp [(hno c hc).2.1, (hno c hc).2.2]
  have hurn : replace "urn:".toList [] u.str.toList = u.str.toList :=
    @replace_eq_self 'u' ['r', 'n', ':'] _ _ hu
  have huuid : replace "uuid:".toList [] u.str.toList = u.str.toList :=
    @replace_eq_self 'u' ['u', 'i', 'd', ':'] _ _ hu
  have hhyphen : replace ['-'] [] (stripBy (fun c => c == '{' || c == '}') u.str.toList)
      = u.hex := by
    rw [stripBy_eq_self hbrace, replace_singleton, filter_str]
  rw [Uuid.ofText, hurn, huuid, hhyphen, if_neg (by simp [hex_length]), intBase16_hex]
  dsimp only
  rw [dif_pos ⟨Int.natCast_nonneg _, by simpa using u.lt⟩]
  rfl

theorem Uuid.str_injective : Function.Injective Uuid.str := by
  intro u v h
  have hu := ofText_str u
  rw [h, ofText_str v] at hu
  exact (Option.some.inj hu).symm

theorem Uuid.length_str (u : Uuid) : u.str.length = 36 := by
  rw [Uuid.str, String.length_ofList]
  simp [hex_length]

end MegaPanel.Lib
