import Mathlib.Tactic

set_option autoImplicit false

/-! # Loops with a variant

A `while` loop is the function `body` that takes the state at the head of the loop to the state
at the next head, and is `none` where the loop is left. A natural number that every turn
decreases, the variant, makes the loop total: `Loop.run` is the state in which it is left.

An invariant of the turns holds of that state (`Loop.run_invariant`), what the turns relate
transitively is related to it (`Loop.run_rel`), and `Loop.runFor` computes it in a number of
turns given beforehand (`Loop.run_eq_runFor`), which is what a kernel can evaluate.
-/

namespace MegaPanel.Lib

variable {σ : Type*}

structure Loop (σ : Type*) where
  /-- One turn; `none` leaves the loop. -/
  body : σ → Option σ
  variant : σ → Nat
  decreases : ∀ s t, body s = some t → variant t < variant s

namespace Loop

/-- The state in which the loop is left. -/
def run (loop : Loop σ) (s : σ) : σ :=
  match _h : loop.body s with
  | none => s
  | some t => loop.run t
termination_by loop.variant s
decreasing_by exact loop.decreases s t _h

theorem run_of_none {loop : Loop σ} {s : σ} (h : loop.body s = none) : loop.run s = s := by
  rw [run]
  split
  · rfl
  · next t ht =>
    rw [h] at ht
    cases ht

theorem run_of_some {loop : Loop σ} {s t : σ} (h : loop.body s = some t) :
    loop.run s = loop.run t := by
  conv_lhs => rw [run]
  split
  · next hnone =>
    rw [h] at hnone
    cases hnone
  · next u hu =>
    rw [h] at hu
    cases hu
    rfl

/-- Induction over the turns of a loop, from its end. -/
theorem run_induction (loop : Loop σ) {motive : σ → Prop}
    (leave : ∀ s, loop.body s = none → motive s)
    (turn : ∀ s t, loop.body s = some t → motive t → motive s) (s : σ) : motive s := by
  induction hn : loop.variant s using Nat.strong_induction_on generalizing s with
  | _ n ih =>
    cases h : loop.body s with
    | none => exact leave s h
    | some t => exact turn s t h (ih _ (hn ▸ loop.decreases s t h) t rfl)

/-- **The rule of the invariant.** -/
theorem run_invariant (loop : Loop σ) {I : σ → Prop}
    (hturn : ∀ s t, I s → loop.body s = some t → I t) {s : σ} (hs : I s) : I (loop.run s) := by
  induction s using run_induction loop with
  | leave s h =>
    rw [run_of_none h]
    exact hs
  | turn s t h ih =>
    rw [run_of_some h]
    exact ih (hturn s t hs h)

/-- What relates the state before every turn to the one after it relates the first state to the
last one. -/
theorem run_rel (loop : Loop σ) {R : σ → σ → Prop} (hrefl : ∀ s, R s s)
    (htrans : ∀ s t u, R s t → R t u → R s u)
    (hturn : ∀ s t, loop.body s = some t → R s t) (s : σ) : R s (loop.run s) := by
  induction s using run_induction loop with
  | leave s h =>
    rw [run_of_none h]
    exact hrefl s
  | turn s t h ih =>
    rw [run_of_some h]
    exact htrans s t _ (hturn s t h) ih

/-! ## A number of turns given beforehand -/

def runFor (loop : Loop σ) : Nat → σ → σ
  | 0, s => s
  | n + 1, s =>
    match loop.body s with
    | none => s
    | some t => loop.runFor n t

/-- A number of turns after which the loop is left is enough. -/
theorem run_eq_runFor {loop : Loop σ} {n : Nat} {s : σ}
    (h : loop.body (loop.runFor n s) = none) : loop.run s = loop.runFor n s := by
  induction n generalizing s with
  | zero => exact run_of_none h
  | succ n ih =>
    simp only [runFor] at h ⊢
    cases hbody : loop.body s with
    | none => exact run_of_none hbody
    | some t =>
      rw [hbody] at h
      rw [run_of_some hbody]
      exact ih h

end Loop

end MegaPanel.Lib
