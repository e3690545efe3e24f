import Mathlib.Tactic

set_option autoImplicit false

/-! # Keyed tables

A database table as a finite map from primary keys to rows. `get` is the row lookup, `keys`
lists the primary keys in insertion order, and the two fields `nodup` and `mem_keys` make a
table whose listing disagrees with its rows impossible to build. `set` inserts or replaces
one row, `erase` deletes one.
-/

namespace MegaPanel.Lib

variable {κ ρ : Type*}

/-- A table with primary keys in `κ` and rows in `ρ`. -/
structure Table (κ ρ : Type*) where
  keys : List κ
  get : κ → Option ρ
  nodup : keys.Nodup
  mem_keys : ∀ k, k ∈ keys ↔ (get k).isSome

namespace Table

/-- The table without rows. -/
def empty : Table κ ρ where
  keys := []
  get := fun _ => none
  nodup := List.nodup_nil
  mem_keys := by simp

@[simp] theorem get_empty (k : κ) : (empty : Table κ ρ).get k = none := rfl

@[simp] theorem keys_empty : (empty : Table κ ρ).keys = [] := rfl

theorem get_of_keys_nil {t : Table κ ρ} (h : t.keys = []) (k : κ) : t.get k = none := by
  cases hget : t.get k with
  | none => rfl
  | some r =>
    have hmem := (t.mem_keys k).mpr (by rw [hget]; rfl)
    rw [h] at hmem
    cases hmem

variable [DecidableEq κ]

/-- Insert the row `r` under the key `k`, or replace the row that is there. -/
def set (t : Table κ ρ) (k : κ) (r : ρ) : Table κ ρ where
  keys := if k ∈ t.keys then t.keys else t.keys ++ [k]
  get := Function.update t.get k (some r)
  nodup := by
    split
    · exact t.nodup
    · next h => exact List.nodup_append.mpr ⟨t.nodup, by simp, by
        intro a ha b hb hab
        rw [List.mem_singleton] at hb
        exact h (hb ▸ hab ▸ ha)⟩
  mem_keys := by
    intro j
    by_cases hj : j = k
    · subst hj
      split <;> simp_all
    · rw [Function.update_of_ne hj]
      split
      · exact t.mem_keys j
      · rw [List.mem_append, List.mem_singleton, or_iff_left hj]
        exact t.mem_keys j

@[simp] theorem get_set_self (t : Table κ ρ) (k : κ) (r : ρ) : (t.set k r).get k = some r :=
  Function.update_self ..

theorem get_set_ne (t : Table κ ρ) {j k : κ} (h : j ≠ k) (r : ρ) :
    (t.set k r).get j = t.get j := Function.update_of_ne h ..

theorem get_set (t : Table κ ρ) (j k : κ) (r : ρ) :
    (t.set k r).get j = if j = k then some r else t.get j := Function.update_apply ..

/-- A row found after a `set` is the row written or one that was there before. -/
theorem get_set_eq_some {t : Table κ ρ} {j k : κ} {r x : ρ} :
    (t.set k r).get j = some x ↔ (j = k ∧ x = r) ∨ (j ≠ k ∧ t.get j = some x) := by
  rw [get_set]
  by_cases h : j = k
  · simp [h, eq_comm]
  · simp [h]

/-- What holds of every row and of the row written holds after a `set`. -/
theorem forall_set {P : κ → ρ → Prop} {t : Table κ ρ} {k : κ} {r : ρ}
    (h : ∀ j x, t.get j = some x → P j x) (hnew : P k r) (j : κ) (x : ρ)
    (hx : (t.set k r).get j = some x) : P j x := by
  rcases get_set_eq_some.mp hx with ⟨rfl, rfl⟩ | ⟨_, hold⟩
  · exact hnew
  · exact h j x hold

/-- Apply `f` to the row under the key `k`, if there is one. -/
def modify (t : Table κ ρ) (k : κ) (f : ρ → ρ) : Table κ ρ :=
  match t.get k with
  | some r => t.set k (f r)
  | none => t

theorem modify_of_some {t : Table κ ρ} {k : κ} {r : ρ} (h : t.get k = some r) (f : ρ → ρ) :
    t.modify k f = t.set k (f r) := by
  rw [modify, h]

theorem keys_modify (t : Table κ ρ) (k : κ) (f : ρ → ρ) : (t.modify k f).keys = t.keys := by
  unfold modify
  split
  · next r hr => exact if_pos ((t.mem_keys k).mpr (by rw [hr]; rfl))
  · rfl

theorem get_modify (t : Table κ ρ) (j k : κ) (f : ρ → ρ) :
    (t.modify k f).get j = if j = k then (t.get k).map f else t.get j := by
  unfold modify
  split
  · next r hr => rw [get_set, hr, Option.map_some]
  · next hr =>
    split
    · next hj => rw [hj, hr, Option.map_none]
    · rfl

theorem get_modify_ne (t : Table κ ρ) {j k : κ} (h : j ≠ k) (f : ρ → ρ) :
    (t.modify k f).get j = t.get j := by
  rw [get_modify, if_neg h]

@[simp] theorem get_modify_self (t : Table κ ρ) (k : κ) (f : ρ → ρ) :
    (t.modify k f).get k = (t.get k).map f := by
  rw [get_modify, if_pos rfl]

/-- Apply `f` to every row. -/
def mapRows (t : Table κ ρ) (f : κ → ρ → ρ) : Table κ ρ where
  keys := t.keys
  get := fun k => (t.get k).map (f k)
  nodup := t.nodup
  mem_keys := fun k => by rw [Option.isSome_map]; exact t.mem_keys k

omit [DecidableEq κ] in
@[simp] theorem get_mapRows (t : Table κ ρ) (f : κ → ρ → ρ) (k : κ) :
    (t.mapRows f).get k = (t.get k).map (f k) := rfl

/-- Delete the row under the key `k`. -/
def erase (t : Table κ ρ) (k : κ) : Table κ ρ where
  keys := t.keys.filter (· ≠ k)
  get := Function.update t.get k none
  nodup := t.nodup.filter _
  mem_keys := by
    intro j
    by_cases hj : j = k
    · simp [hj]
    · rw [Function.update_of_ne hj, List.mem_filter]
      simp [hj, t.mem_keys j]

@[simp] theorem get_erase_self (t : Table κ ρ) (k : κ) : (t.erase k).get k = none :=
  Function.update_self ..

theorem get_erase_ne (t : Table κ ρ) {j k : κ} (h : j ≠ k) : (t.erase k).get j = t.get j :=
  Function.update_of_ne h ..

theorem get_erase (t : Table κ ρ) (j k : κ) :
    (t.erase k).get j = if j = k then none else t.get j := Function.update_apply ..

theorem get_erase_eq_some {t : Table κ ρ} {j k : κ} {r : ρ} :
    (t.erase k).get j = some r ↔ j ≠ k ∧ t.get j = some r := by
  rw [get_erase]
  by_cases h : j = k
  · simp [h]
  · simp [h]

/-- Delete the rows whose keys satisfy `p`. -/
def deleteWhere (t : Table κ ρ) (p : κ → Bool) : Table κ ρ where
  keys := t.keys.filter (fun k => !p k)
  get := fun k => if p k then none else t.get k
  nodup := t.nodup.filter _
  mem_keys := by
    intro k
    rw [List.mem_filter]
    cases hp : p k with
    | true => simp
    | false => simpa using t.mem_keys k

omit [DecidableEq κ] in
@[simp] theorem get_deleteWhere (t : Table κ ρ) (p : κ → Bool) (k : κ) :
    (t.deleteWhere p).get k = if p k then none else t.get k := rfl

/-- The rows with their keys, in insertion order. -/
def rows (t : Table κ ρ) : List (κ × ρ) :=
  t.keys.filterMap (fun k => (t.get k).map (fun r => (k, r)))

omit [DecidableEq κ] in
theorem mem_rows {t : Table κ ρ} {k : κ} {r : ρ} : (k, r) ∈ t.rows ↔ t.get k = some r := by
  simp only [rows, List.mem_filterMap, Option.map_eq_some_iff, Prod.mk.injEq]
  constructor
  · rintro ⟨j, _, x, hx, rfl, rfl⟩
    exact hx
  · intro h
    exact ⟨k, (t.mem_keys k).mpr (by simp [h]), r, h, rfl, rfl⟩

omit [DecidableEq κ] in
theorem rows_keys (t : Table κ ρ) : t.rows.map (·.1) = t.keys := by
  have hrun : ∀ l : List κ, (∀ k ∈ l, (t.get k).isSome) →
      (l.filterMap (fun k => (t.get k).map (fun r => (k, r)))).map (·.1) = l := by
    intro l
    induction l with
    | nil => intro _; rfl
    | cons k l ih =>
      intro hl
      obtain ⟨r, hr⟩ := Option.isSome_iff_exists.mp (hl k (by simp))
      rw [List.filterMap_cons_some (by rw [hr]; rfl), List.map_cons,
        ih (fun j hj => hl j (by simp [hj]))]
  exact hrun t.keys (fun k hk => (t.mem_keys k).mp hk)

/-- A row under a new key is listed last. -/
theorem rows_set_of_none {t : Table κ ρ} {k : κ} (h : t.get k = none) (r : ρ) :
    (t.set k r).rows = t.rows ++ [(k, r)] := by
  have hk : k ∉ t.keys := fun hmem => by
    rw [t.mem_keys, h] at hmem
    cases hmem
  have hkeys : (t.set k r).keys = t.keys ++ [k] := if_neg hk
  have hold : t.keys.filterMap (fun j => ((t.set k r).get j).map (fun x => (j, x))) = t.rows := by
    refine List.filterMap_congr (fun j hj => ?_)
    have hjk : j ≠ k := fun heq => hk (heq ▸ hj)
    rw [get_set_ne t hjk]
  rw [rows, hkeys, List.filterMap_append, hold]
  simp

theorem keys_set_of_some {t : Table κ ρ} {k : κ} {old : ρ} (h : t.get k = some old) (r : ρ) :
    (t.set k r).keys = t.keys := if_pos ((t.mem_keys k).mpr (by rw [h]; rfl))

omit [DecidableEq κ] in
/-- What is selected from the rows, key by key. -/
theorem filterMap_rows {γ : Type*} (t : Table κ ρ) (f : ρ → Option γ) :
    (t.rows.map (·.2)).filterMap f = t.keys.filterMap (fun k => (t.get k).bind f) := by
  rw [rows, List.map_filterMap, List.filterMap_filterMap]
  refine List.filterMap_congr (fun k _ => ?_)
  cases t.get k <;> rfl

/-- Insert several rows. -/
def insertAll (t : Table κ ρ) (rs : List (κ × ρ)) : Table κ ρ :=
  rs.foldl (fun t r => t.set r.1 r.2) t

@[simp] theorem insertAll_nil (t : Table κ ρ) : t.insertAll [] = t := rfl

theorem insertAll_cons (t : Table κ ρ) (r : κ × ρ) (rs : List (κ × ρ)) :
    t.insertAll (r :: rs) = (t.set r.1 r.2).insertAll rs := rfl

theorem get_insertAll_of_notMem {rs : List (κ × ρ)} {k : κ} (h : k ∉ rs.map (·.1)) :
    ∀ t : Table κ ρ, (t.insertAll rs).get k = t.get k := by
  induction rs with
  | nil => intro t; rfl
  | cons r rs ih =>
    intro t
    rw [List.map_cons, List.mem_cons, not_or] at h
    rw [insertAll_cons, ih h.2, get_set_ne t h.1]

theorem get_insertAll_eq_some {rs : List (κ × ρ)} {k : κ} {x : ρ} :
    ∀ {t : Table κ ρ}, (t.insertAll rs).get k = some x → t.get k = some x ∨ (k, x) ∈ rs := by
  induction rs with
  | nil => intro t h; exact .inl h
  | cons r rs ih =>
    intro t h
    rw [insertAll_cons] at h
    rcases ih h with hset | hmem
    · rcases get_set_eq_some.mp hset with ⟨rfl, rfl⟩ | ⟨_, hold⟩
      · exact .inr (List.mem_cons_self ..)
      · exact .inl hold
    · exact .inr (List.mem_cons_of_mem _ hmem)

theorem get_insertAll_of_mem {rs : List (κ × ρ)} (hn : (rs.map (·.1)).Nodup) {k : κ} {x : ρ}
    (h : (k, x) ∈ rs) : ∀ t : Table κ ρ, (t.insertAll rs).get k = some x := by
  induction rs with
  | nil => cases h
  | cons r rs ih =>
    intro t
    rw [List.map_cons, List.nodup_cons] at hn
    rw [insertAll_cons]
    rcases List.mem_cons.mp h with rfl | hrest
    · rw [get_insertAll_of_notMem hn.1, get_set_self]
    · exact ih hn.2 hrest _

/-- Rows under new keys are listed last, in the order they were inserted. -/
theorem rows_insertAll {rs : List (κ × ρ)} (hn : (rs.map (·.1)).Nodup) :
    ∀ {t : Table κ ρ}, (∀ k ∈ rs.map (·.1), t.get k = none) →
      (t.insertAll rs).rows = t.rows ++ rs := by
  induction rs with
  | nil => intro t _; simp
  | cons r rs ih =>
    intro t hnew
    rw [List.map_cons, List.nodup_cons] at hn
    have hrest : ∀ k ∈ rs.map (·.1), (t.set r.1 r.2).get k = none := fun k hk => by
      have hkr : k ≠ r.1 := fun heq => hn.1 (heq ▸ hk)
      rw [get_set_ne t hkr]
      exact hnew k (List.mem_cons_of_mem _ hk)
    rw [insertAll_cons, ih hn.2 hrest, rows_set_of_none (hnew r.1 (List.mem_cons_self ..)),
      List.append_assoc]
    rfl

theorem keys_insertAll {rs : List (κ × ρ)} (hn : (rs.map (·.1)).Nodup) {t : Table κ ρ}
    (hnew : ∀ k ∈ rs.map (·.1), t.get k = none) :
    (t.insertAll rs).keys = t.keys ++ rs.map (·.1) := by
  rw [← rows_keys, rows_insertAll hn hnew, List.map_append, rows_keys]

/-- `SELECT ... WHERE id IN (...)`: each row once, however often its key is listed. -/
def selectIn (t : Table κ ρ) (ks : List κ) : List (κ × ρ) := t.rows.filter (fun r => r.1 ∈ ks)

theorem mem_selectIn {t : Table κ ρ} {ks : List κ} {k : κ} {r : ρ} :
    (k, r) ∈ t.selectIn ks ↔ t.get k = some r ∧ k ∈ ks := by
  simp [selectIn, mem_rows]

/-- A selection by keys that all exist has as many rows as there are distinct keys. -/
theorem length_selectIn {t : Table κ ρ} {ks : List κ} (h : ∀ k ∈ ks, (t.get k).isSome) :
    (t.selectIn ks).length = ks.dedup.length := by
  have hfst : (t.selectIn ks).map (·.1) = t.keys.filter (fun k => k ∈ ks) := by
    rw [← t.rows_keys, List.filter_map]
    rfl
  have hperm : (t.keys.filter (fun k => k ∈ ks)).Perm ks.dedup := by
    refine (List.perm_ext_iff_of_nodup (t.nodup.filter _) ks.nodup_dedup).mpr (fun k => ?_)
    rw [List.mem_filter, List.mem_dedup, decide_eq_true_eq, and_iff_right_iff_imp]
    exact fun hk => (t.mem_keys k).mpr (h k hk)
  rw [← List.length_map (f := (·.1)), hfst, hperm.length_eq]

/-- Counting the rows of a selection against the list of keys detects repeated keys. -/
theorem length_selectIn_eq_iff {t : Table κ ρ} {ks : List κ} (h : ∀ k ∈ ks, (t.get k).isSome) :
    (t.selectIn ks).length = ks.length ↔ ks.Nodup := by
  rw [length_selectIn h]
  constructor
  · intro hlen
    have heq : ks.dedup = ks := (List.dedup_sublist ks).eq_of_length hlen
    rw [← heq]
    exact ks.nodup_dedup
  · intro hn
    rw [hn.dedup]

end Table

/-! ## Sweeps

A sweep visits keys one after the other and changes at most what it sees of the key it is
at. Then what is seen of a key in the end depends on that key alone. -/

/-- A sweep over a list of keys leaves the others alone. -/
theorem foldl_unvisited {β ω : Type*} (view : β → κ → ω) {f : β → κ → β}
    (hother : ∀ b k j, j ≠ k → view (f b k) j = view b j) {keys : List κ} {k : κ}
    (hk : k ∉ keys) (b : β) : view (keys.foldl f b) k = view b k := by
  induction keys generalizing b with
  | nil => rfl
  | cons j keys ih =>
    rw [List.mem_cons, not_or] at hk
    rw [List.foldl_cons, ih hk.2, hother b j k hk.1]

/-- **Sweeps are pointwise.** `view` is what a store shows of one key, `f` one visit, `g` the
effect of a visit on the key visited. -/
theorem foldl_pointwise {β ω : Type*} (view : β → κ → ω) {f : β → κ → β} {g : κ → ω → ω}
    (hself : ∀ b k, view (f b k) k = g k (view b k))
    (hother : ∀ b k j, j ≠ k → view (f b k) j = view b j) {keys : List κ} (hn : keys.Nodup)
    (b : β) {k : κ} : k ∈ keys → view (keys.foldl f b) k = g k (view b k) := by
  induction keys generalizing b with
  | nil => intro hk; cases hk
  | cons j keys ih =>
    intro hk
    obtain ⟨hj, hn'⟩ := List.nodup_cons.mp hn
    rw [List.foldl_cons]
    rcases List.mem_cons.mp hk with rfl | hk'
    · rw [foldl_unvisited view hother hj, hself]
    · have hkj : k ≠ j := fun h => hj (h ▸ hk')
      rw [ih hn' _ hk', hother b j k hkj]

end MegaPanel.Lib
