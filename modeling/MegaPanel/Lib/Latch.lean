import MegaPanel.Lib.Run

set_option autoImplicit false

/-! # Latches

A latch is set when what it watches begins and cleared when it ends; it may also be released by
hand. A word of such edges *alternates* when a latch can produce it: the latch is set only while
it is clear, and cleared or released only while it is set. `alternates_emitted` is the rule for
a system that keeps a latch in its state: if the edges of each step lead the latch from its
value before the step to its value after it, then the edges of a whole run alternate.
-/

namespace MegaPanel.Lib

variable {σ α : Type*}

/-- What can happen to a latch. -/
inductive Edge
  | rise
  | fall
  | release
  deriving DecidableEq

/-- The latch is set (`true`) or clear (`false`). -/
def latchStep : Bool → Edge → Option Bool
  | false, .rise => some true
  | true, .fall => some false
  | true, .release => some false
  | _, _ => none

/-- The edges are those of a latch that starts as `b`. -/
def Alternates (b : Bool) (es : List Edge) : Prop := (exec latchStep b es).isSome

/-- **The run rule for latches.** -/
theorem alternates_emitted {step : σ → α → Option σ} {emit : σ → α → List Edge}
    {latch : σ → Bool} {I : σ → Prop}
    (hstep : ∀ s a t, I s → step s a = some t →
      I t ∧ exec latchStep (latch s) (emit s a) = some (latch t)) {s : σ} (hs : I s)
    (as : List α) : Alternates (latch s) (emitted step emit s as) := by
  have hrun := @emitted_rule σ α Edge step emit (fun _ _ _ => True)
    (fun t seen => I t ∧ exec latchStep (latch s) seen = some (latch t))
    (fun seen => Alternates (latch s) seen)
    (fun t a u seen ht _ htu => ?_) (fun t seen ht => by rw [Alternates, ht.2]; rfl) s as []
    ⟨hs, rfl⟩ (along_of_forall (Q := fun _ => True) (fun _ _ => trivial) s)
  · exact hrun
  · obtain ⟨hu, hedges⟩ := hstep t a u ht.1 htu
    refine ⟨hu, ?_⟩
    rw [exec_append, ht.2]
    exact hedges

end MegaPanel.Lib
