import MegaPanel.Rendering.Templates

set_option autoImplicit false

/-! # Phone numbers

`normalize_phone_e164` keeps the digits of a text and reads them as a Russian number: ten digits of
a national number, or eleven that begin with `7` or `8`. The digits are those of `\d`, which are
all decimal digits of Unicode. So the form is always reached, kept, and given back by the display
form, but it holds the digits as they were typed: it is the form of E.164 exactly when they are
ASCII digits.
-/

namespace MegaPanel.Rendering

open MegaPanel.Lib MegaPanel.Lib.Text

/-! ## The digits of a text -/

variable {value r : String}

/-- What `\D+` leaves of a text. -/
def phoneDigits (value : String) : List Char := value.toList.filter isDecimal

/-- The digits can be read as a number: ten, or eleven after a `7` or `8`. -/
def IsNumber (digits : List Char) : Prop :=
  digits.length = 10 ∨ (digits.length = 11 ∧ (digits.head? = some '7' ∨ digits.head? = some '8'))

instance (digits : List Char) : Decidable (IsNumber digits) :=
  inferInstanceAs (Decidable (_ ∨ _))

/-- `+7` and ten digits of a kind. -/
def IsForm (digit : Char → Bool) (text : String) : Prop :=
  ∃ national : List Char, national.length = 10 ∧ (∀ c ∈ national, digit c = true) ∧
    text = String.ofList ('+' :: '7' :: national)

/-- The ten digits behind the prefix: the last ten of all digits. -/
def nationalPart (digits : List Char) : List Char := digits.drop (digits.length - 10)

theorem length_nationalPart {digits : List Char} (h : IsNumber digits) :
    (nationalPart digits).length = 10 := by
  rw [nationalPart, List.length_drop]
  rcases h with h | ⟨h, _⟩ <;> omega

/-- A normal form is `+7` before the national part, and there is one for every number. -/
theorem normalizePhoneE164_eq (value : String) :
    normalizePhoneE164 value =
      if IsNumber (phoneDigits value) then
        some (String.ofList ('+' :: '7' :: nationalPart (phoneDigits value)))
      else none := by
  show (let digits := phoneDigits value
    let digits :=
      if digits.length = 10 then '7' :: digits
      else if digits.length = 11 ∧ digits.head? = some '8' then '7' :: digits.tail
      else digits
    if digits.length = 11 ∧ digits.head? = some '7' then some (String.ofList ('+' :: digits))
    else none) = _
  generalize phoneDigits value = digits
  unfold nationalPart
  by_cases hten : digits.length = 10
  · have hnumber : IsNumber digits := .inl hten
    rw [if_pos hnumber]
    simp [hten]
  by_cases heleven : digits.length = 11
  · obtain ⟨c, national, rfl⟩ : ∃ c national, digits = c :: national :=
      List.exists_cons_of_length_eq_add_one heleven
    have hlength : national.length = 10 := by simpa using heleven
    by_cases height : c = '8'
    · subst height
      have hnumber : IsNumber ('8' :: national) := .inr ⟨heleven, .inr rfl⟩
      rw [if_pos hnumber]
      simp [hlength]
    by_cases hseven : c = '7'
    · subst hseven
      have hnumber : IsNumber ('7' :: national) := .inr ⟨heleven, .inl rfl⟩
      rw [if_pos hnumber]
      simp [hlength]
    · have hnone : ¬ IsNumber (c :: national) := by
        rintro (h | ⟨_, h | h⟩)
        · exact hten h
        · exact hseven (Option.some.inj h)
        · exact height (Option.some.inj h)
      rw [if_neg hnone]
      simp [hlength, height, hseven]
  · have hnone : ¬ IsNumber digits := by
      rintro (h | ⟨h, _⟩)
      · exact hten h
      · exact heleven h
    rw [if_neg hnone]
    simp [hten, heleven]

/-- The results: `+7` before ten decimal digits. -/
theorem form_of_normalized (h : normalizePhoneE164 value = some r) : IsForm isDecimal r := by
  rw [normalizePhoneE164_eq] at h
  split_ifs at h with hnumber
  refine ⟨nationalPart (phoneDigits value), length_nationalPart hnumber, ?_,
    (Option.some.inj h).symm⟩
  intro c hc
  exact (List.mem_filter.mp (List.mem_of_mem_drop hc)).2

/-! ## A normal form stays -/

/-- A text whose digits are a prefix and ten others has these in its normal form. -/
theorem normalize_of_digits {c : Char} {national : List Char} (hc : c = '7' ∨ c = '8')
    (hlength : national.length = 10) (hdigits : phoneDigits value = c :: national) :
    normalizePhoneE164 value = some (String.ofList ('+' :: '7' :: national)) := by
  have hnumber : IsNumber (c :: national) := by
    refine .inr ⟨by rw [List.length_cons, hlength], ?_⟩
    rcases hc with rfl | rfl
    · exact .inl rfl
    · exact .inr rfl
  have hpart : nationalPart (c :: national) = national := by
    rw [nationalPart, List.length_cons, hlength]
    rfl
  rw [normalizePhoneE164_eq, hdigits, if_pos hnumber, hpart]

theorem filter_of_all {text : List Char} (h : ∀ c ∈ text, isDecimal c = true) :
    text.filter isDecimal = text := List.filter_eq_self.mpr h

/-- The normal form of a normal form is itself. -/
theorem normalize_form (h : IsForm isDecimal r) : normalizePhoneE164 r = some r := by
  obtain ⟨national, hlength, hall, rfl⟩ := h
  refine normalize_of_digits (.inl rfl) hlength ?_
  have hplus : isDecimal '+' = false := by decide
  have hseven : isDecimal '7' = true := by decide
  rw [phoneDigits, String.toList_ofList, List.filter_cons_of_neg (by rw [hplus]; decide),
    List.filter_cons_of_pos hseven, filter_of_all hall]

/-- The display form of a normal form has the same digits behind an `8`. -/
theorem normalize_display (h : IsForm isDecimal r) :
    normalizePhoneE164 (formatPhoneDisplay r) = some r := by
  have hself := normalize_form h
  obtain ⟨national, hlength, hall, rfl⟩ := h
  refine normalize_of_digits (.inr rfl) hlength ?_
  unfold formatPhoneDisplay
  rw [hself]
  dsimp only
  rw [phoneDigits, String.toList_ofList, String.toList_ofList]
  have height : isDecimal '8' = true := by decide
  have hopen : isDecimal '(' = false := by decide
  have hclose : isDecimal ')' = false := by decide
  have hdash : isDecimal '-' = false := by decide
  -- the four groups are the national part again
  have hgroups : national.take 3 ++ ((national.drop 3).take 3 ++ ((national.drop 6).take 2 ++
      national.drop 8)) = national := by
    have h8 : (national.drop 6).take 2 ++ national.drop 8 = national.drop 6 := by
      rw [show national.drop 8 = (national.drop 6).drop 2 by rw [List.drop_drop]]
      exact List.take_append_drop 2 _
    have h6 : (national.drop 3).take 3 ++ national.drop 6 = national.drop 3 := by
      rw [show national.drop 6 = (national.drop 3).drop 3 by rw [List.drop_drop]]
      exact List.take_append_drop 3 _
    rw [h8, h6, List.take_append_drop]
  have hfilter : ((national.take 3 ++ ((national.drop 3).take 3 ++ ((national.drop 6).take 2 ++
      national.drop 8))).filter isDecimal) = national := by
    rw [hgroups, filter_of_all hall]
  simp only [List.filter_append] at hfilter
  simp only [List.cons_append, List.drop_succ_cons, List.drop_zero, List.filter_cons,
    List.filter_append, height, hopen, hclose, hdash, if_true, Bool.false_eq_true, if_false,
    List.append_assoc]
  rw [hfilter]

/-! ## The form of E.164 -/

/-- **A normal form is `+7` and ten ASCII digits, is its own normal form and that of its display
form, exactly when the digits of a number in the text are ASCII digits.** -/
theorem phone_normal_iff (value : String) :
    (∀ r, normalizePhoneE164 value = some r →
        IsForm Char.isDigit r ∧ normalizePhoneE164 r = some r ∧
          normalizePhoneE164 (formatPhoneDisplay r) = some r) ↔
      (IsNumber (phoneDigits value) → ∀ c ∈ phoneDigits value, c.isDigit = true) := by
  constructor
  · intro h hnumber c hc
    have hr := normalizePhoneE164_eq value
    rw [if_pos hnumber] at hr
    obtain ⟨national, _, hall, htext⟩ := (h _ hr).1
    have hpart : nationalPart (phoneDigits value) = national := by
      have htext' := String.ofList_injective htext
      exact (List.cons.inj (List.cons.inj htext').2).2
    -- a digit before the national part is the `7` or `8`
    rw [← List.take_append_drop ((phoneDigits value).length - 10) (phoneDigits value)] at hc
    rcases List.mem_append.mp hc with hfront | hback
    · rcases hnumber with hten | ⟨heleven, hhead⟩
      · rw [hten] at hfront
        cases hfront
      · obtain ⟨d, digits, hdigits⟩ : ∃ d digits, phoneDigits value = d :: digits :=
          List.exists_cons_of_length_eq_add_one heleven
        rw [heleven, hdigits] at hfront
        have hcd : c = d := by simpa using hfront
        rw [hdigits] at hhead
        subst hcd
        rcases hhead with hhead | hhead
        · rw [Option.some.inj hhead]
          rfl
        · rw [Option.some.inj hhead]
          rfl
    · exact hall c (hpart ▸ hback)
  · intro h r hr
    have hform := form_of_normalized hr
    refine ⟨?_, normalize_form hform, normalize_display hform⟩
    rw [normalizePhoneE164_eq] at hr
    split_ifs at hr with hnumber
    exact ⟨_, length_nationalPart hnumber,
      fun c hc => h hnumber c (List.mem_of_mem_drop hc), (Option.some.inj hr).symm⟩

/-- Ten Arabic-Indic digits are taken for a number as they are. -/
theorem phone_normal_arabic :
    ¬ ∀ r, normalizePhoneE164 (String.ofList (List.replicate 10 '\u0669')) = some r →
        IsForm Char.isDigit r ∧ normalizePhoneE164 r = some r ∧
          normalizePhoneE164 (formatPhoneDisplay r) = some r := by
  intro h
  have hr : normalizePhoneE164 (String.ofList (List.replicate 10 '\u0669')) =
      some (String.ofList ('+' :: '7' :: List.replicate 10 '\u0669')) := by decide
  obtain ⟨national, _, hall, htext⟩ := (h _ hr).1
  have hnational : List.replicate 10 '\u0669' = national :=
    (List.cons.inj (List.cons.inj (String.ofList_injective htext)).2).2
  exact absurd (hall '\u0669' (hnational ▸ List.mem_replicate.mpr ⟨by decide, rfl⟩)) (by decide)

end MegaPanel.Rendering
