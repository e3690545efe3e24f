import Mathlib.Tactic

set_option autoImplicit false

/-! # Grouped rows

`GROUP BY` on a list of rows: one group for each key that some row has, with all rows of that
key. Rows without a key are in no group. `count(*)` of a group is its length and
`count(distinct x)` is `countDistinct`, which passes over rows where `x` is NULL.
-/

namespace MegaPanel.Lib

variable {α β κ : Type*} [DecidableEq β] [DecidableEq κ]

/-- The rows of one group. -/
def group (key : α → Option κ) (k : κ) (xs : List α) : List α :=
  xs.filter (fun x => decide (key x = some k))

/-- The groups of a list of rows, with their keys. -/
def groupRows (key : α → Option κ) (xs : List α) : List (κ × List α) :=
  (xs.filterMap key).dedup.map (fun k => (k, group key k xs))

/-- `count(distinct value)` -/
def countDistinct (value : α → Option β) (xs : List α) : Nat :=
  (xs.filterMap value).dedup.length

theorem mem_group {key : α → Option κ} {k : κ} {xs : List α} {x : α} :
    x ∈ group key k xs ↔ x ∈ xs ∧ key x = some k := by
  rw [group, List.mem_filter, decide_eq_true_iff]

theorem group_length (key : α → Option κ) (k : κ) (xs : List α) :
    (group key k xs).length = xs.countP (fun x => decide (key x = some k)) :=
  List.countP_eq_length_filter.symm

theorem groupRows_keys (key : α → Option κ) (xs : List α) :
    (groupRows key xs).map (·.1) = (xs.filterMap key).dedup := by
  rw [groupRows, List.map_map]
  exact List.map_id _

theorem groupRows_nodup (key : α → Option κ) (xs : List α) :
    ((groupRows key xs).map (·.1)).Nodup := by
  rw [groupRows_keys]
  exact List.nodup_dedup _

/-- A key has a group exactly when a row has the key. -/
theorem mem_groupRows {key : α → Option κ} {xs : List α} {k : κ} {rows : List α} :
    (k, rows) ∈ groupRows key xs ↔
      rows = group key k xs ∧ 0 < xs.countP (fun x => decide (key x = some k)) := by
  rw [groupRows, List.mem_map, List.countP_pos_iff]
  constructor
  · rintro ⟨k', hk', heq⟩
    cases heq
    obtain ⟨x, hx, hkey⟩ := List.mem_filterMap.mp (List.mem_dedup.mp hk')
    exact ⟨rfl, x, hx, decide_eq_true hkey⟩
  · rintro ⟨rfl, x, hx, hkey⟩
    exact ⟨k, List.mem_dedup.mpr (List.mem_filterMap.mpr ⟨x, hx, of_decide_eq_true hkey⟩), rfl⟩

/-! ## Sums over groups -/

theorem count_filterMap (key : α → Option κ) (xs : List α) (k : κ) :
    (xs.filterMap key).count k = (group key k xs).length := by
  induction xs with
  | nil => rfl
  | cons x xs ih =>
    rw [group_length, List.countP_cons, ← group_length, ← ih]
    cases hx : key x with
    | none => rw [List.filterMap_cons_none hx, if_neg (by simp), Nat.add_zero]
    | some k' =>
      rw [List.filterMap_cons_some hx, List.count_cons]
      simp only [beq_iff_eq, decide_eq_true_eq, Option.some.injEq]

/-- The group of one key among all groups. -/
theorem groupRows_filter (key : α → Option κ) (xs : List α) (k : κ) :
    (groupRows key xs).filter (fun g => decide (g.1 = k))
      = if group key k xs = [] then [] else [(k, group key k xs)] := by
  have hmem : k ∈ xs.filterMap key ↔ group key k xs ≠ [] := by
    rw [← List.count_pos_iff, count_filterMap, List.length_pos_iff]
  rw [groupRows, List.filter_map]
  change List.map _ ((xs.filterMap key).dedup.filter (fun k' => decide (k' = k))) = _
  rw [List.filter_eq, List.count_dedup]
  by_cases h : group key k xs = []
  · rw [if_neg (fun hk => hmem.mp hk h), if_pos h]
    rfl
  · rw [if_pos (hmem.mpr h), if_neg h]
    rfl

/-- Every row with a key is in one group. -/
theorem sum_length_groupRows (key : α → Option κ) (xs : List α) :
    ((groupRows key xs).map (fun g => g.2.length)).sum = (xs.filterMap key).length := by
  rw [groupRows, List.map_map, ← List.sum_map_count_dedup_eq_length]
  exact congrArg List.sum (List.map_congr_left (fun k _ => (count_filterMap key xs k).symm))

/-- The key of a row with the value that is counted. -/
def keyed (key : α → Option κ) (value : α → Option β) (x : α) : Option (κ × β) :=
  (key x).bind (fun k => (value x).map (fun v => (k, v)))

omit [DecidableEq β] [DecidableEq κ] in
theorem keyed_eq_some {key : α → Option κ} {value : α → Option β} {x : α} {k : κ} {v : β} :
    keyed key value x = some (k, v) ↔ key x = some k ∧ value x = some v := by
  rw [keyed, Option.bind_eq_some_iff]
  constructor
  · rintro ⟨k', hk, hmap⟩
    obtain ⟨v', hv, heq⟩ := Option.map_eq_some_iff.mp hmap
    cases heq
    exact ⟨hk, hv⟩
  · rintro ⟨hk, hv⟩
    exact ⟨k, hk, by rw [hv]; rfl⟩

theorem countDistinct_eq_card (value : α → Option β) (xs : List α) :
    countDistinct value xs = (xs.filterMap value).toFinset.card :=
  (List.card_toFinset _).symm

/-- **Distinct values by group.** The sum of the distinct counts of the groups counts distinct
pairs of a key and a value. -/
theorem sum_countDistinct_groupRows (key : α → Option κ) (value : α → Option β) (xs : List α) :
    ((groupRows key xs).map (fun g => countDistinct value g.2)).sum
      = countDistinct (keyed key value) xs := by
  have hmaps : ∀ p ∈ (xs.filterMap (keyed key value)).toFinset,
      p.1 ∈ (xs.filterMap key).toFinset := by
    rintro ⟨k, v⟩ hp
    obtain ⟨x, hx, hkeyed⟩ := List.mem_filterMap.mp (List.mem_toFinset.mp hp)
    exact List.mem_toFinset.mpr
      (List.mem_filterMap.mpr ⟨x, hx, (keyed_eq_some.mp hkeyed).1⟩)
  have hfiber : ∀ k ∈ (xs.filterMap key).toFinset,
      ((xs.filterMap (keyed key value)).toFinset.filter (fun p => p.1 = k)).card
        = countDistinct value (group key k xs) := by
    intro k _
    rw [countDistinct_eq_card]
    refine Finset.card_bij (fun p _ => p.2) ?_ ?_ ?_
    · rintro ⟨k', v⟩ hp
      obtain ⟨hmem, hk'⟩ := Finset.mem_filter.mp hp
      obtain rfl : k' = k := hk'
      obtain ⟨x, hx, hkeyed⟩ := List.mem_filterMap.mp (List.mem_toFinset.mp hmem)
      obtain ⟨hk, hv⟩ := keyed_eq_some.mp hkeyed
      exact List.mem_toFinset.mpr (List.mem_filterMap.mpr ⟨x, mem_group.mpr ⟨hx, hk⟩, hv⟩)
    · rintro ⟨k₁, v₁⟩ h₁ ⟨k₂, v₂⟩ h₂ hv
      obtain rfl : k₁ = k := (Finset.mem_filter.mp h₁).2
      obtain rfl : k₂ = k₁ := (Finset.mem_filter.mp h₂).2
      obtain rfl : v₁ = v₂ := hv
      rfl
    · intro v hv
      obtain ⟨x, hx, hvalue⟩ := List.mem_filterMap.mp (List.mem_toFinset.mp hv)
      obtain ⟨hmem, hk⟩ := mem_group.mp hx
      exact ⟨(k, v), Finset.mem_filter.mpr ⟨List.mem_toFinset.mpr (List.mem_filterMap.mpr
        ⟨x, hmem, keyed_eq_some.mpr ⟨hk, hvalue⟩⟩), rfl⟩, rfl⟩
  have hdedup : (xs.filterMap key).toFinset = (xs.filterMap key).dedup.toFinset := by
    ext k
    simp
  rw [countDistinct_eq_card, Finset.card_eq_sum_card_fiberwise hmaps, Finset.sum_congr rfl hfiber,
    hdedup, List.sum_toFinset _ (List.nodup_dedup _), groupRows, List.map_map]
  rfl

omit [DecidableEq κ] in
theorem image_keyed [DecidableEq κ] {key : α → Option κ} (value : α → Option β) {xs : List α}
    (hkey : ∀ x ∈ xs, (key x).isSome = true) :
    (xs.filterMap value).toFinset = (xs.filterMap (keyed key value)).toFinset.image (·.2) := by
  ext v
  simp only [Finset.mem_image, List.mem_toFinset, List.mem_filterMap]
  constructor
  · rintro ⟨x, hx, hv⟩
    obtain ⟨k, hk⟩ := Option.isSome_iff_exists.mp (hkey x hx)
    exact ⟨(k, v), ⟨x, hx, keyed_eq_some.mpr ⟨hk, hv⟩⟩, rfl⟩
  · rintro ⟨⟨k, v'⟩, ⟨x, hx, hkeyed⟩, rfl⟩
    exact ⟨x, hx, (keyed_eq_some.mp hkeyed).2⟩

/-- Counted over all groups at once, a value is counted no more often than group by group. -/
theorem countDistinct_le_keyed {key : α → Option κ} (value : α → Option β) {xs : List α}
    (hkey : ∀ x ∈ xs, (key x).isSome = true) :
    countDistinct value xs ≤ countDistinct (keyed key value) xs := by
  rw [countDistinct_eq_card, countDistinct_eq_card, image_keyed value hkey]
  exact Finset.card_image_le

theorem countDistinct_keyed_pos {key : α → Option κ} {value : α → Option β} {xs : List α}
    (hkey : ∀ x ∈ xs, (key x).isSome = true) :
    0 < countDistinct (keyed key value) xs ↔ 0 < countDistinct value xs := by
  rw [countDistinct_eq_card, countDistinct_eq_card, image_keyed value hkey, Finset.card_pos,
    Finset.card_pos, Finset.image_nonempty]

/-- The two counts agree exactly when no value is found under two keys. -/
theorem countDistinct_eq_keyed_iff {key : α → Option κ} {value : α → Option β} {xs : List α}
    (hkey : ∀ x ∈ xs, (key x).isSome = true) :
    countDistinct value xs = countDistinct (keyed key value) xs ↔
      ∀ x ∈ xs, ∀ y ∈ xs, (value x).isSome = true → value x = value y → key x = key y := by
  rw [countDistinct_eq_card, countDistinct_eq_card, image_keyed value hkey, Finset.card_image_iff]
  constructor
  · intro hinj x hx y hy hsome hvalue
    obtain ⟨v, hv⟩ := Option.isSome_iff_exists.mp hsome
    obtain ⟨k, hk⟩ := Option.isSome_iff_exists.mp (hkey x hx)
    obtain ⟨l, hl⟩ := Option.isSome_iff_exists.mp (hkey y hy)
    have hmem : ∀ z ∈ xs, ∀ m, key z = some m → value z = some v →
        (m, v) ∈ (xs.filterMap (keyed key value)).toFinset := fun z hz m hm hvz =>
      List.mem_toFinset.mpr (List.mem_filterMap.mpr ⟨z, hz, keyed_eq_some.mpr ⟨hm, hvz⟩⟩)
    have heq := hinj (hmem x hx k hk hv) (hmem y hy l hl (hvalue ▸ hv)) rfl
    rw [hk, hl, (Prod.mk.inj heq).1]
  · rintro honly ⟨k, v⟩ hk ⟨l, w⟩ hl hvw
    obtain ⟨x, hx, hkeyed⟩ := List.mem_filterMap.mp (List.mem_toFinset.mp hk)
    obtain ⟨y, hy, hkeyed'⟩ := List.mem_filterMap.mp (List.mem_toFinset.mp hl)
    obtain ⟨hkx, hvx⟩ := keyed_eq_some.mp hkeyed
    obtain ⟨hky, hvy⟩ := keyed_eq_some.mp hkeyed'
    obtain rfl : v = w := hvw
    have heq := honly x hx y hy (by rw [hvx]; rfl) (hvx.trans hvy.symm)
    rw [Option.some.inj (hkx.symm.trans (heq.trans hky))]

end MegaPanel.Lib
