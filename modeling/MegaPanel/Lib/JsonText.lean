import MegaPanel.Lib.Json
import MegaPanel.Lib.Text
import Mathlib.Data.List.Sort

set_option autoImplicit false

/-! # The text of a JSON value

`json.dumps(value, sort_keys=True, ensure_ascii=False)` of Python's standard library:
the entries of every dictionary in the order of their keys, `", "` and `": "` as the separators,
and in strings only the quote, the backslash and the characters below a space escaped.

Two texts are the same only for the same value (`dumps_inj`), where values are compared as
Python compares dictionaries, without regard to the order of the entries. The proof reads the
texts from the left. No value's text continues into the text of another one: a string ends at its
quote, a list and a dictionary at their brackets, and a number at the first character
that cannot stand in one, so the equation carries the text that follows along
(`textOf_append`).
-/

namespace MegaPanel.Lib.Json

open Text

/-! ## Values that can be stored

A dictionary holds a key once, and a number that is not an integer is written as `repr` writes
it: in digits, signs, a point and an exponent. `NaN` and the infinities have no place in a
JSON column. -/

/-- The characters of a number. -/
def isNumberChar (c : Char) : Bool := c.isDigit || c == '-' || c == '+' || c == '.' || c == 'e'

/-- The text of a finite `float`: it has a point or an exponent. -/
def isFloatText (text : String) : Bool :=
  text.toList.all isNumberChar && text.toList.any (fun c => c == '.' || c == 'e')

mutual

def valid : Json → Bool
  | .float text => isFloatText text
  | .list items => validItems items
  | .dict entries => validEntries entries
  | _ => true

def validItems : List Json → Bool
  | [] => true
  | v :: items => valid v && validItems items

def validEntries : List (String × Json) → Bool
  | [] => true
  | (key, v) :: entries =>
    !entries.any (fun e => e.1 == key) && valid v && validEntries entries

end

/-! ## `sort_keys` -/

mutual

/-- The value with the entries of every dictionary in the order of their keys. -/
def sortKeys : Json → Json
  | .list items => .list (sortKeysItems items)
  | .dict entries =>
    .dict ((sortKeysEntries entries).insertionSort (fun e e' => e.1 ≤ e'.1))
  | v => v

def sortKeysItems : List Json → List Json
  | [] => []
  | v :: items => sortKeys v :: sortKeysItems items

def sortKeysEntries : List (String × Json) → List (String × Json)
  | [] => []
  | (key, v) :: entries => (key, sortKeys v) :: sortKeysEntries entries

end

/-- The two values are equal in Python: the order of a dictionary's entries does not matter. -/
def Same (v v' : Json) : Prop := sortKeys v = sortKeys v'

/-! ## The encoder -/

/-- One character of a string. -/
def escape (c : Char) : List Char :=
  if c = '"' then ['\\', '"']
  else if c = '\\' then ['\\', '\\']
  else if c = '\n' then ['\\', 'n']
  else if c = '\r' then ['\\', 'r']
  else if c = '\t' then ['\\', 't']
  else if c = '\x0c' then ['\\', 'f']
  else if c = '\x08' then ['\\', 'b']
  else if c.toNat < 32 then
    ['\\', 'u', '0', '0', Nat.digitChar (c.toNat / 16), Nat.digitChar (c.toNat % 16)]
  else [c]

/-- The characters of a string after its opening quote. -/
def stringText (cs : List Char) : List Char := cs.flatMap escape ++ ['"']

def intText : Int → List Char
  | .ofNat n => Nat.toDigits 10 n
  | .negSucc n => '-' :: Nat.toDigits 10 (n + 1)

mutual

def textOf : Json → List Char
  | .null => ['n', 'u', 'l', 'l']
  | .bool true => ['t', 'r', 'u', 'e']
  | .bool false => ['f', 'a', 'l', 's', 'e']
  | .int n => intText n
  | .float text => text.toList
  | .str s => '"' :: stringText s.toList
  | .list [] => ['[', ']']
  | .list (v :: items) => '[' :: (textOf v ++ itemsText items)
  | .dict [] => ['{', '}']
  | .dict ((key, v) :: entries) =>
    '{' :: '"' :: (stringText key.toList ++ ':' :: ' ' :: (textOf v ++ entriesText entries))

/-- The items after the first one. -/
def itemsText : List Json → List Char
  | [] => [']']
  | v :: items => ',' :: ' ' :: (textOf v ++ itemsText items)

/-- The entries after the first one. -/
def entriesText : List (String × Json) → List Char
  | [] => ['}']
  | (key, v) :: entries =>
    ',' :: ' ' :: '"' :: (stringText key.toList ++ ':' :: ' ' :: (textOf v ++ entriesText entries))

end

/-- `json.dumps(value, sort_keys=True, ensure_ascii=False)` -/
def dumps (v : Json) : String := String.ofList (textOf (sortKeys v))

example : dumps (.dict [("b", .list [.int (-12), .null]), ("a", .str "x\"\n")])
    = "\x7b\"a\": \"x\\\"\\n\", \"b\": [-12, null]\x7d" := by decide +kernel

/-! ## Strings read back -/

variable {c : Char} {r r' : List Char}

/-- What an escape of one letter stands for. -/
def unescape (c : Char) : Char :=
  if c = 'n' then '\n'
  else if c = 'r' then '\r'
  else if c = 't' then '\t'
  else if c = 'f' then '\x0c'
  else if c = 'b' then '\x08'
  else c

/-- The first character of a string's text, and what follows its escape. -/
def readEscape : List Char → Option (Char × List Char)
  | '\\' :: 'u' :: '0' :: '0' :: h :: l :: cs =>
    some (Char.ofNat (16 * hexValue h + hexValue l), cs)
  | '\\' :: c :: cs => some (unescape c, cs)
  | c :: cs => some (c, cs)
  | [] => none

theorem readEscape_escape (c : Char) (r : List Char) :
    readEscape (escape c ++ r) = some (c, r) := by
  rw [escape]
  split_ifs with hquote hback hn hr ht hf hb hlow
  · rw [hquote]; rfl
  · rw [hback]; rfl
  · rw [hn]; rfl
  · rw [hr]; rfl
  · rw [ht]; rfl
  · rw [hf]; rfl
  · rw [hb]; rfl
  · have hchar : 16 * (c.toNat / 16) + c.toNat % 16 = c.toNat := by omega
    show some (Char.ofNat (16 * hexValue _ + hexValue _), r) = some (c, r)
    rw [hexValue_digitChar _ (by omega), hexValue_digitChar _ (by omega), hchar,
      Char.ofNat_toNat]
  · rw [List.singleton_append, readEscape.eq_def]
    split
    · rename_i heq; exact absurd (List.cons.inj heq).1 hback
    · rename_i heq; exact absurd (List.cons.inj heq).1 hback
    · rename_i heq; cases heq; rfl
    · rename_i heq; cases heq

theorem escape_append {c' : Char} (h : escape c ++ r = escape c' ++ r') : c = c' ∧ r = r' := by
  have hread := congrArg readEscape h
  rw [readEscape_escape, readEscape_escape] at hread
  exact Prod.mk.inj (Option.some.inj hread)

/-- An escape does not begin with the quote that ends the string. -/
theorem escape_ne_quote (c : Char) (r r' : List Char) : escape c ++ r ≠ '"' :: r' := by
  intro h
  rw [escape] at h
  split_ifs at h with hquote <;> first
    | exact absurd (List.cons.inj h).1 (by decide)
    | exact absurd (List.cons.inj h).1 hquote

theorem stringText_cons (c : Char) (cs : List Char) :
    stringText (c :: cs) = escape c ++ stringText cs := by
  simp [stringText]

/-- **A string ends where its text says.** -/
theorem stringText_append {cs cs' : List Char} (h : stringText cs ++ r = stringText cs' ++ r') :
    cs = cs' ∧ r = r' := by
  induction cs generalizing cs' with
  | nil =>
    cases cs' with
    | nil => exact ⟨rfl, List.append_cancel_left h⟩
    | cons c' cs' =>
      rw [stringText_cons, List.append_assoc] at h
      exact absurd h.symm (escape_ne_quote c' _ _)
  | cons c cs ih =>
    cases cs' with
    | nil =>
      rw [stringText_cons, List.append_assoc] at h
      exact absurd h (escape_ne_quote c _ _)
    | cons c' cs' =>
      rw [stringText_cons, stringText_cons, List.append_assoc, List.append_assoc] at h
      obtain ⟨rfl, hrest⟩ := escape_append h
      obtain ⟨rfl, hr⟩ := ih hrest
      exact ⟨rfl, hr⟩

/-! ## Numbers read back -/

variable {t : List Char}

/-- What follows cannot continue a number. -/
def Delimited (r : List Char) : Prop := ∀ c ∈ r.head?, isNumberChar c = false

theorem delimited_cons (h : isNumberChar c = false) (r : List Char) : Delimited (c :: r) := by
  intro d hd
  cases hd
  exact h

/-- **A number ends at the first character that cannot stand in one.** -/
theorem number_append {t' : List Char} (ht : t.all isNumberChar = true)
    (ht' : t'.all isNumberChar = true) (hr : Delimited r) (hr' : Delimited r')
    (h : t ++ r = t' ++ r') : t = t' ∧ r = r' := by
  have htake : ∀ {t r : List Char}, t.all isNumberChar = true → Delimited r →
      (t ++ r).takeWhile isNumberChar = t := by
    intro t r ht hr
    have hstop : r.takeWhile isNumberChar = [] := by
      cases r with
      | nil => rfl
      | cons c r => rw [List.takeWhile_cons, hr c rfl]; rfl
    rw [List.takeWhile_append_of_pos (fun c hc => List.all_eq_true.mp ht c hc), hstop,
      List.append_nil]
  have hnumber : t = t' := by rw [← htake ht hr, h, htake ht' hr']
  subst hnumber
  exact ⟨rfl, List.append_cancel_left h⟩

theorem isDigit_intText (n : Int) : ∀ c ∈ intText n, c.isDigit = true ∨ c = '-' := by
  intro c hc
  cases n with
  | ofNat n => exact Or.inl (Nat.isDigit_of_mem_toDigits (by decide) (by decide) hc)
  | negSucc n =>
    rcases List.mem_cons.mp hc with hsign | hc
    · exact Or.inr hsign
    · exact Or.inl (Nat.isDigit_of_mem_toDigits (by decide) (by decide) hc)

theorem intText_number (n : Int) : (intText n).all isNumberChar = true := by
  rw [List.all_eq_true]
  intro c hc
  rcases isDigit_intText n c hc with hd | rfl
  · simp [isNumberChar, hd]
  · rfl

/-- An integer has no point and no exponent. -/
theorem intText_not_float (n : Int) :
    (intText n).any (fun c => c == '.' || c == 'e') = false := by
  rw [List.any_eq_false]
  intro c hc hfloat
  have hchar : c = '.' ∨ c = 'e' := by simpa using hfloat
  rcases isDigit_intText n c hc with hd | rfl
  · rcases hchar with rfl | rfl <;> exact absurd hd (by decide)
  · rcases hchar with h | h <;> exact absurd h (by decide)

theorem toDigits_inj {m n : Nat} (h : Nat.toDigits 10 m = Nat.toDigits 10 n) : m = n := by
  rw [← Nat.ofDigitChars_ten_toDigits (n := m), h, Nat.ofDigitChars_ten_toDigits]

theorem toDigits_ne_sign (m : Nat) (cs : List Char) : Nat.toDigits 10 m ≠ '-' :: cs := by
  intro h
  have hd := Nat.isDigit_of_mem_toDigits (b := 10) (n := m) (c := '-') (by decide) (by decide)
    (by rw [h]; exact List.mem_cons_self ..)
  exact absurd hd (by decide)

theorem intText_inj {m n : Int} (h : intText m = intText n) : m = n := by
  cases m with
  | ofNat m =>
    cases n with
    | ofNat n => rw [toDigits_inj h]
    | negSucc n => exact absurd h (toDigits_ne_sign m _)
  | negSucc m =>
    cases n with
    | ofNat n => exact absurd h.symm (toDigits_ne_sign n _)
    | negSucc n => rw [Nat.succ.inj (toDigits_inj (List.cons.inj h).2)]

/-! ## Values read back

The first character of a text tells what kind of value it is. -/

variable {v v' : Json}

inductive Kind
  | null
  | true
  | false
  | number
  | str
  | list
  | dict
  deriving DecidableEq

def kind : Json → Kind
  | .null => .null
  | .bool true => .true
  | .bool false => .false
  | .int _ => .number
  | .float _ => .number
  | .str _ => .str
  | .list _ => .list
  | .dict _ => .dict

def kindOf (c : Char) : Option Kind :=
  if c = 'n' then some .null
  else if c = 't' then some .true
  else if c = 'f' then some .false
  else if c = '"' then some .str
  else if c = '[' then some .list
  else if c = '{' then some .dict
  else if isNumberChar c then some .number
  else none

theorem kindOf_number (h : isNumberChar c = true) : kindOf c = some .number := by
  rw [kindOf]
  split_ifs with hn ht hf hq hl hd
  · rw [hn] at h; exact absurd h (by decide)
  · rw [ht] at h; exact absurd h (by decide)
  · rw [hf] at h; exact absurd h (by decide)
  · rw [hq] at h; exact absurd h (by decide)
  · rw [hl] at h; exact absurd h (by decide)
  · rw [hd] at h; exact absurd h (by decide)
  · rfl

theorem kindOf_numberText (ht : t.all isNumberChar = true) (hne : t ≠ []) (r : List Char) :
    (t ++ r).head?.bind kindOf = some .number := by
  cases t with
  | nil => exact absurd rfl hne
  | cons c t => exact kindOf_number (List.all_eq_true.mp ht c (List.mem_cons_self ..))

theorem intText_ne_nil (n : Int) : intText n ≠ [] := by
  cases n with
  | ofNat n => exact Nat.toDigits_ne_nil
  | negSucc n => exact List.cons_ne_nil _ _

theorem kindOf_textOf (hv : valid v = true) (r : List Char) :
    (textOf v ++ r).head?.bind kindOf = some (kind v) := by
  cases v with
  | null => rfl
  | bool b => cases b <;> rfl
  | int n =>
    rw [textOf]
    exact kindOf_numberText (intText_number n) (intText_ne_nil n) r
  | float text =>
    rw [valid, isFloatText, Bool.and_eq_true] at hv
    have hne : text.toList ≠ [] := by
      intro hnil
      rw [hnil] at hv
      exact absurd hv.2 (by decide)
    rw [textOf]
    exact kindOf_numberText hv.1 hne r
  | str s => rfl
  | list items => cases items <;> rfl
  | dict entries => cases entries <;> rfl

/-- A value's text does not begin with this character. -/
theorem textOf_ne (hv : valid v = true) (hc : kindOf c = none) (r r' : List Char) :
    textOf v ++ r ≠ c :: r' := by
  intro h
  have hkind := kindOf_textOf hv r
  rw [h] at hkind
  exact absurd (hc.symm.trans hkind) (by simp)

theorem itemsText_delimited (items : List Json) (r : List Char) :
    Delimited (itemsText items ++ r) := by
  cases items with
  | nil | cons v items => exact delimited_cons (by decide) _

theorem entriesText_delimited (entries : List (String × Json)) (r : List Char) :
    Delimited (entriesText entries ++ r) := by
  cases entries with
  | nil | cons e entries => exact delimited_cons (by decide) _

/-- Two numbers with the same text. -/
theorem numberText_append (hv : valid v = true) (hv' : valid v' = true) (hkind : kind v = .number)
    (hkind' : kind v' = .number) (hr : Delimited r) (hr' : Delimited r')
    (h : textOf v ++ r = textOf v' ++ r') : v = v' ∧ r = r' := by
  have hnumber : ∀ {u : Json}, valid u = true → kind u = .number →
      (textOf u).all isNumberChar = true := by
    intro u hu hk
    cases u with
    | int n => rw [textOf]; exact intText_number n
    | float text =>
      rw [valid, isFloatText, Bool.and_eq_true] at hu
      rw [textOf]
      exact hu.1
    | bool b => cases b <;> cases hk
    | _ => cases hk
  have hfloat : ∀ {text : String}, valid (.float text) = true →
      text.toList.any (fun c => c == '.' || c == 'e') = true := by
    intro text hu
    rw [valid, isFloatText, Bool.and_eq_true] at hu
    exact hu.2
  obtain ⟨htext, hrest⟩ := number_append (hnumber hv hkind) (hnumber hv' hkind') hr hr' h
  refine ⟨?_, hrest⟩
  cases v with
  | int n =>
    cases v' with
    | int n' =>
      have hsame : intText n = intText n' := by simpa only [textOf] using htext
      rw [intText_inj hsame]
    | float text' =>
      have hpoint := hfloat hv'
      have hsame : intText n = text'.toList := by simpa only [textOf] using htext
      rw [← hsame, intText_not_float] at hpoint
      cases hpoint
    | bool b => cases b <;> cases hkind'
    | _ => cases hkind'
  | float text =>
    cases v' with
    | int n' =>
      have hpoint := hfloat hv
      have hsame : text.toList = intText n' := by simpa only [textOf] using htext
      rw [hsame, intText_not_float] at hpoint
      cases hpoint
    | float text' =>
      have hsame : text.toList = text'.toList := by simpa only [textOf] using htext
      rw [String.toList_inj.mp hsame]
    | bool b => cases b <;> cases hkind'
    | _ => cases hkind'
  | bool b => cases b <;> cases hkind
  | _ => cases hkind

/-! One induction over the three kinds of text: values, items and entries. -/

mutual

/-- **A value ends where its text says.** -/
theorem textOf_append : ∀ (v v' : Json) (r r' : List Char), valid v = true → valid v' = true →
    Delimited r → Delimited r' → textOf v ++ r = textOf v' ++ r' → v = v' ∧ r = r'
  | .list items, v', r, r', hv, hv', hr, hr', h => by
    have hkind := (kindOf_textOf hv r).symm.trans (h ▸ kindOf_textOf hv' r')
    cases v' with
    | list items' =>
      cases items with
      | nil =>
        cases items' with
        | nil => exact ⟨rfl, List.append_cancel_left h⟩
        | cons y items' =>
          simp only [textOf, List.cons_append, List.append_assoc, List.cons.injEq] at h
          simp only [valid, validItems, Bool.and_eq_true] at hv'
          exact absurd h.2.symm (textOf_ne hv'.1 rfl _ _)
      | cons x items =>
        simp only [valid, validItems, Bool.and_eq_true] at hv
        cases items' with
        | nil =>
          simp only [textOf, List.cons_append, List.append_assoc, List.cons.injEq] at h
          exact absurd h.2 (textOf_ne hv.1 rfl _ _)
        | cons y items' =>
          simp only [valid, validItems, Bool.and_eq_true] at hv'
          simp only [textOf, List.cons_append, List.append_assoc, List.cons.injEq] at h
          obtain ⟨rfl, hrest⟩ := textOf_append x y _ _ hv.1 hv'.1
            (itemsText_delimited _ _) (itemsText_delimited _ _) h.2
          obtain ⟨rfl, hr⟩ := itemsText_append items items' r r' hv.2 hv'.2 hrest
          exact ⟨rfl, hr⟩
    | bool b => cases b <;> cases hkind
    | _ => cases hkind
  | .dict entries, v', r, r', hv, hv', hr, hr', h => by
    have hkind := (kindOf_textOf hv r).symm.trans (h ▸ kindOf_textOf hv' r')
    cases v' with
    | dict entries' =>
      cases entries with
      | nil =>
        cases entries' with
        | nil => exact ⟨rfl, List.append_cancel_left h⟩
        | cons e' entries' =>
          obtain ⟨key', y⟩ := e'
          simp [textOf] at h
      | cons e entries =>
        obtain ⟨key, x⟩ := e
        cases entries' with
        | nil => simp [textOf] at h
        | cons e' entries' =>
          obtain ⟨key', y⟩ := e'
          simp only [valid, validEntries, Bool.and_eq_true] at hv hv'
          simp only [textOf, List.cons_append, List.append_assoc, List.cons.injEq] at h
          obtain ⟨hkey, hvalue⟩ := stringText_append h.2.2
          simp only [List.cons.injEq] at hvalue
          obtain ⟨rfl, hrest⟩ := textOf_append x y _ _ hv.1.2 hv'.1.2
            (entriesText_delimited _ _) (entriesText_delimited _ _) hvalue.2.2
          obtain ⟨rfl, hr⟩ := entriesText_append entries entries' r r' hv.2 hv'.2 hrest
          rw [String.toList_inj.mp hkey]
          exact ⟨rfl, hr⟩
    | bool b => cases b <;> cases hkind
    | _ => cases hkind
  | .str s, v', r, r', hv, hv', hr, hr', h => by
    have hkind := (kindOf_textOf hv r).symm.trans (h ▸ kindOf_textOf hv' r')
    cases v' with
    | str s' =>
      obtain ⟨hs, hrest⟩ := stringText_append (List.cons.inj h).2
      rw [String.toList_inj.mp hs]
      exact ⟨rfl, hrest⟩
    | bool b => cases b <;> cases hkind
    | _ => cases hkind
  | .null, v', r, r', hv, hv', hr, hr', h => by
    have hkind := (kindOf_textOf hv r).symm.trans (h ▸ kindOf_textOf hv' r')
    cases v' with
    | null => exact ⟨rfl, List.append_cancel_left h⟩
    | bool b => cases b <;> cases hkind
    | _ => cases hkind
  | .bool b, v', r, r', hv, hv', hr, hr', h => by
    have hkind := (kindOf_textOf hv r).symm.trans (h ▸ kindOf_textOf hv' r')
    cases v' with
    | bool b' =>
      have hb : b = b' := by cases b <;> cases b' <;> first | rfl | cases hkind
      subst hb
      exact ⟨rfl, List.append_cancel_left h⟩
    | _ => cases b <;> cases hkind
  | .int n, v', r, r', hv, hv', hr, hr', h => by
    have hkind := (kindOf_textOf hv r).symm.trans (h ▸ kindOf_textOf hv' r')
    exact numberText_append hv hv' rfl (Option.some.inj hkind).symm hr hr' h
  | .float text, v', r, r', hv, hv', hr, hr', h => by
    have hkind := (kindOf_textOf hv r).symm.trans (h ▸ kindOf_textOf hv' r')
    exact numberText_append hv hv' rfl (Option.some.inj hkind).symm hr hr' h

theorem itemsText_append : ∀ (items items' : List Json) (r r' : List Char),
    validItems items = true → validItems items' = true →
    itemsText items ++ r = itemsText items' ++ r' → items = items' ∧ r = r'
  | [], [], _, _, _, _, h => ⟨rfl, List.append_cancel_left h⟩
  | [], _ :: _, _, _, _, _, h => absurd (List.cons.inj h).1 (by decide)
  | _ :: _, [], _, _, _, _, h => absurd (List.cons.inj h).1 (by decide)
  | x :: items, y :: items', r, r', hv, hv', h => by
    simp only [validItems, Bool.and_eq_true] at hv hv'
    simp only [itemsText, List.cons_append, List.append_assoc, List.cons.injEq] at h
    obtain ⟨rfl, hrest⟩ := textOf_append x y _ _ hv.1 hv'.1
      (itemsText_delimited _ _) (itemsText_delimited _ _) h.2.2
    obtain ⟨rfl, hr⟩ := itemsText_append items items' r r' hv.2 hv'.2 hrest
    exact ⟨rfl, hr⟩

theorem entriesText_append : ∀ (entries entries' : List (String × Json)) (r r' : List Char),
    validEntries entries = true → validEntries entries' = true →
    entriesText entries ++ r = entriesText entries' ++ r' → entries = entries' ∧ r = r'
  | [], [], _, _, _, _, h => ⟨rfl, List.append_cancel_left h⟩
  | [], (_, _) :: _, _, _, _, _, h => absurd (List.cons.inj h).1 (by decide)
  | (_, _) :: _, [], _, _, _, _, h => absurd (List.cons.inj h).1 (by decide)
  | (key, x) :: entries, (key', y) :: entries', r, r', hv, hv', h => by
    simp only [validEntries, Bool.and_eq_true] at hv hv'
    simp only [entriesText, List.cons_append, List.append_assoc, List.cons.injEq] at h
    obtain ⟨hkey, hvalue⟩ := stringText_append h.2.2.2
    simp only [List.cons.injEq] at hvalue
    obtain ⟨rfl, hrest⟩ := textOf_append x y _ _ hv.1.2 hv'.1.2
      (entriesText_delimited _ _) (entriesText_delimited _ _) hvalue.2.2
    obtain ⟨rfl, hr⟩ := entriesText_append entries entries' r r' hv.2 hv'.2 hrest
    rw [String.toList_inj.mp hkey]
    exact ⟨rfl, hr⟩

end

/-! ## The order of the keys

Sorting the entries keeps the value valid, and keeps what each key holds. -/

theorem sortKeysEntries_map (entries : List (String × Json)) :
    sortKeysEntries entries = entries.map (fun e => (e.1, sortKeys e.2)) := by
  induction entries with
  | nil => rfl
  | cons e entries ih =>
    obtain ⟨key, v⟩ := e
    rw [sortKeysEntries, ih, List.map_cons]

/-- A dictionary is valid when its keys differ and its values are valid. -/
theorem validEntries_iff {entries : List (String × Json)} :
    validEntries entries = true ↔
      (entries.map (·.1)).Nodup ∧ ∀ e ∈ entries, valid e.2 = true := by
  induction entries with
  | nil => simp [validEntries]
  | cons e entries ih =>
    obtain ⟨key, v⟩ := e
    have hnew : (!entries.any (fun e => e.1 == key)) = true ↔ key ∉ entries.map (·.1) := by
      simp only [Bool.not_eq_true', List.any_eq_false, beq_iff_eq, List.mem_map, not_exists,
        not_and]
    rw [validEntries, Bool.and_eq_true, Bool.and_eq_true, hnew, ih, List.map_cons,
      List.nodup_cons, List.forall_mem_cons]
    constructor
    · rintro ⟨⟨hkey, hv⟩, hkeys, hvalues⟩
      exact ⟨⟨hkey, hkeys⟩, hv, hvalues⟩
    · rintro ⟨⟨hkey, hkeys⟩, hv, hvalues⟩
      exact ⟨⟨hkey, hv⟩, hkeys, hvalues⟩

mutual

theorem valid_sortKeys : ∀ v : Json, valid v = true → valid (sortKeys v) = true
  | .list items, h => by
    rw [valid] at h
    rw [sortKeys, valid]
    exact validItems_sortKeys items h
  | .dict entries, h => by
    rw [valid] at h
    have hentries := validEntries_iff.mp (validEntries_sortKeys entries h)
    have hperm := List.perm_insertionSort (fun e e' : String × Json => e.1 ≤ e'.1)
      (sortKeysEntries entries)
    rw [sortKeys, valid, validEntries_iff]
    exact ⟨(hperm.map _).nodup_iff.mpr hentries.1,
      fun e he => hentries.2 e (hperm.mem_iff.mp he)⟩
  | .null, _ | .bool _, _ | .int _, _ | .str _, _ => rfl
  | .float _, h => h

theorem validItems_sortKeys : ∀ items : List Json, validItems items = true →
    validItems (sortKeysItems items) = true
  | [], _ => rfl
  | v :: items, h => by
    rw [validItems, Bool.and_eq_true] at h
    rw [sortKeysItems, validItems, Bool.and_eq_true]
    exact ⟨valid_sortKeys v h.1, validItems_sortKeys items h.2⟩

theorem validEntries_sortKeys : ∀ entries : List (String × Json), validEntries entries = true →
    validEntries (sortKeysEntries entries) = true
  | [], _ => rfl
  | (key, v) :: entries, h => by
    rw [validEntries, Bool.and_eq_true, Bool.and_eq_true] at h
    have hkeys : (sortKeysEntries entries).any (fun e => e.1 == key)
        = entries.any (fun e => e.1 == key) := by
      rw [sortKeysEntries_map, List.any_map]
      rfl
    rw [sortKeysEntries, validEntries, Bool.and_eq_true, Bool.and_eq_true, hkeys]
    exact ⟨⟨h.1.1, valid_sortKeys v h.1.2⟩, validEntries_sortKeys entries h.2⟩

end

/-- **Only equal values have the same text.** -/
theorem dumps_inj (hv : valid v = true) (hv' : valid v' = true) :
    dumps v = dumps v' ↔ Same v v' := by
  constructor
  · intro h
    have htext : textOf (sortKeys v) ++ [] = textOf (sortKeys v') ++ [] := by
      rw [String.ofList_inj.mp h]
    exact (textOf_append _ _ [] [] (valid_sortKeys v hv) (valid_sortKeys v' hv')
      (fun c hc => by cases hc) (fun c hc => by cases hc) htext).1
  · intro h
    rw [dumps, dumps, show sortKeys v = sortKeys v' from h]

end MegaPanel.Lib.Json
