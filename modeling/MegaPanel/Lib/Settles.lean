import Mathlib.Tactic

set_option autoImplicit false

/-! # How a computation that may fail ends

`Settles H P x` says that `x : Except ε α` ends well: in a value with the property `P`, or in an
error that `H` admits. With `H` the errors a caller handles, it is the weakest precondition of
"no other error escapes, and what comes back has the property `P`". The rules below take a
computation apart along its structure: a sequence settles when its first part settles in a value
from which the rest settles, a loop when every turn does.
-/

namespace MegaPanel.Lib

universe u v

variable {ε : Type u} {α β : Type v} {H : ε → Prop}

/-- The computation returns a value with the property `P`, or fails with an error in `H`. -/
def Settles (H : ε → Prop) (P : α → Prop) : Except ε α → Prop
  | .ok a => P a
  | .error e => H e

@[simp] theorem settles_ok {P : α → Prop} {a : α} : Settles H P (.ok a) ↔ P a := Iff.rfl

@[simp] theorem settles_error {P : α → Prop} {e : ε} : Settles H P (.error e : Except ε α) ↔ H e :=
  Iff.rfl

/-- **The rule for a sequence.** -/
theorem settles_bind {P : β → Prop} {x : Except ε α} {f : α → Except ε β} :
    Settles H P (x >>= f) ↔ Settles H (fun a => Settles H P (f a)) x := by
  cases x with
  | ok a | error e => exact Iff.rfl

end MegaPanel.Lib
