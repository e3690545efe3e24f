import MegaPanel.Lib.Table

set_option autoImplicit false

/-! # Sums over tables

`SELECT sum(f) FROM t`. The lemmas say how the sum of a table changes with one row: `total_set_new`
for an insert, `total_set_old` for an update, `total_erase` for a delete. They are equations between
sums, so that they also hold where there is no subtraction.
-/

namespace MegaPanel.Lib

variable {κ ρ M : Type*} [DecidableEq κ] [AddCommMonoid M]

/-- Leaving out the one entry of a key takes its value from the sum. -/
theorem sum_filter_key {g : κ × ρ → M} {k : κ} {r : ρ} {l : List (κ × ρ)}
    (hn : (l.map (·.1)).Nodup) (h : (k, r) ∈ l) :
    ((l.filter (fun x => decide (x.1 ≠ k))).map g).sum + g (k, r) = (l.map g).sum := by
  induction l with
  | nil => cases h
  | cons x l ih =>
    rw [List.map_cons, List.nodup_cons] at hn
    rcases List.mem_cons.mp h with rfl | hrest
    · -- The other entries have other keys.
      have hall : l.filter (fun x => decide (x.1 ≠ k)) = l := by
        refine List.filter_eq_self.mpr (fun y hy => ?_)
        have hne : y.1 ≠ k := fun heq => hn.1 (List.mem_map.mpr ⟨y, hy, heq⟩)
        exact decide_eq_true hne
      rw [List.filter_cons_of_neg (by simp), hall, List.map_cons, List.sum_cons, add_comm]
    · have hne : x.1 ≠ k := fun heq => hn.1 (List.mem_map.mpr ⟨_, hrest, heq.symm⟩)
      rw [List.filter_cons, if_pos (decide_eq_true hne), List.map_cons, List.map_cons,
        List.sum_cons, List.sum_cons, add_assoc, ih hn.2 hrest]

namespace Table

/-- The rows that a `DELETE` of one row leaves. -/
theorem rows_erase (t : Table κ ρ) (k : κ) :
    (t.erase k).rows = t.rows.filter (fun r => decide (r.1 ≠ k)) := by
  have hkeys : (t.erase k).keys = t.keys.filter (fun j => decide (j ≠ k)) := rfl
  rw [rows, rows, hkeys, List.filter_filterMap, List.filterMap_filter]
  refine List.filterMap_congr (fun j _ => ?_)
  rw [get_erase]
  by_cases hj : j = k
  · cases t.get j <;> simp [hj, Option.filter]
  · cases t.get j <;> simp [hj, Option.filter]

omit [DecidableEq κ] in
theorem rows_keys_nodup (t : Table κ ρ) : (t.rows.map (·.1)).Nodup := by
  rw [rows_keys]
  exact t.nodup

/-- `SELECT sum(f)` over the rows. -/
def total (t : Table κ ρ) (f : ρ → M) : M := (t.rows.map (fun r => f r.2)).sum

omit [DecidableEq κ] in
@[simp] theorem total_empty (f : ρ → M) : (empty : Table κ ρ).total f = 0 := rfl

theorem total_set_new {t : Table κ ρ} {k : κ} (h : t.get k = none) (r : ρ) (f : ρ → M) :
    (t.set k r).total f = t.total f + f r := by
  rw [total, rows_set_of_none h, List.map_append, List.sum_append]
  simp [total]

theorem total_erase {t : Table κ ρ} {k : κ} {r : ρ} (h : t.get k = some r) (f : ρ → M) :
    (t.erase k).total f + f r = t.total f := by
  rw [total, rows_erase]
  exact sum_filter_key (g := fun x => f x.2) t.rows_keys_nodup (mem_rows.mpr h)

theorem erase_set (t : Table κ ρ) (k : κ) (r : ρ) : ((t.set k r).erase k).rows = (t.erase k).rows := by
  have hkeys : ((t.set k r).erase k).keys = (t.erase k).keys := by
    show (if k ∈ t.keys then t.keys else t.keys ++ [k]).filter _ = t.keys.filter _
    split
    · rfl
    · rw [List.filter_append]
      simp
  rw [rows, rows, hkeys]
  refine List.filterMap_congr (fun j _ => ?_)
  rw [get_erase, get_erase, get_set]
  split <;> rfl

theorem total_set_old {t : Table κ ρ} {k : κ} {old : ρ} (h : t.get k = some old) (r : ρ)
    (f : ρ → M) : (t.set k r).total f + f old = t.total f + f r := by
  have hnew : (t.erase k).total f + f r = (t.set k r).total f := by
    rw [← total_erase (get_set_self t k r) f, total, total, erase_set]
  rw [← hnew, ← total_erase h f]
  exact add_right_comm _ _ _

/-- An update that leaves the value leaves the sum. -/
theorem total_set_same {M : Type*} [AddCommGroup M] {t : Table κ ρ} {k : κ} {old : ρ}
    (h : t.get k = some old) {r : ρ} {f : ρ → M} (hf : f r = f old) :
    (t.set k r).total f = t.total f := by
  have hset := total_set_old h r f
  rw [hf] at hset
  exact add_right_cancel hset

end Table

end MegaPanel.Lib
