import Mathlib.Tactic

set_option autoImplicit false

/-! # Deciding properties of characters

Batteries decides a statement about every character by going through all of them. For the
characters of a text these instances come first: they look at the text only. -/

namespace MegaPanel.Lib

instance decidableForallMemChars {p : Char → Prop} [DecidablePred p] (text : List Char) :
    Decidable (∀ c ∈ text, p c) := List.decidableBAll p text

instance decidableForallMemChar {p : Char → Prop} [DecidablePred p] :
    ∀ char : Option Char, Decidable (∀ c ∈ char, p c)
  | none => .isTrue (fun _ h => by cases h)
  | some c => decidable_of_iff (p c) (by simp)

/-- The characters of a literal, which Lean reads as `String.ofList` of them. -/
theorem forall_mem_toList {p : Char → Prop} {text : List Char} (h : ∀ c ∈ text, p c) :
    ∀ c ∈ (String.ofList text).toList, p c := by
  rwa [String.toList_ofList]

/-- What decides whether a text is in a list of texts. -/
instance lawfulBEqChars : LawfulBEq (List Char) := inferInstance

end MegaPanel.Lib
