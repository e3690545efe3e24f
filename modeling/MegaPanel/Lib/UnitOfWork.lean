import Mathlib.Tactic

set_option autoImplicit false

/-! # Sessions with an identity map

An object-relational session keeps one instance per row it has loaded. Two of its habits
matter to a concurrency argument.

* A locking read (`SELECT ... FOR UPDATE`) of a row whose instance is already loaded takes
  the lock, but hands back the loaded instance with its in-memory attributes
  (`lockedRead`).
* A flush writes the columns that differ from the values they were loaded with, and no
  others (`writeCol`, applied to each column).

A session that has not loaded the row, or whose copy is still equal to it, behaves as if it
worked on the row itself: `lockedRead_self`, `writeCol_stored`.
-/

namespace MegaPanel.Lib

variable {ρ β : Type*}

/-- A locking read through a session holding `copy` of the row, if any. -/
def lockedRead (copy row : Option ρ) : Option ρ := row.map (fun r => copy.getD r)

@[simp] theorem lockedRead_none (copy : Option ρ) : lockedRead copy none = none := rfl

@[simp] theorem lockedRead_unloaded (row : Option ρ) : lockedRead none row = row := by
  cases row <;> rfl

@[simp] theorem lockedRead_loaded (c r : ρ) : lockedRead (some c) (some r) = some c := rfl

variable [DecidableEq β]

/-- The stored value of a column after a flush: `loaded` is the value the session read,
`current` the value it holds now, `stored` the value in the database. -/
def writeCol (loaded current stored : β) : β := if current = loaded then stored else current

@[simp] theorem writeCol_clean (loaded stored : β) : writeCol loaded loaded stored = stored :=
  if_pos rfl

theorem writeCol_dirty {loaded current : β} (h : current ≠ loaded) (stored : β) :
    writeCol loaded current stored = current := if_neg h

/-- Writing what is stored already changes nothing, whatever was loaded. -/
@[simp] theorem writeCol_same (loaded current : β) : writeCol loaded current current = current := by
  rw [writeCol, ite_self]

@[simp] theorem writeCol_stored (loaded current : β) :
    writeCol loaded current loaded = current := by
  rw [writeCol]
  split
  · next h => exact h.symm
  · rfl

end MegaPanel.Lib
