import Mathlib.Logic.Relation
import MegaPanel.Lib.Dict

set_option autoImplicit false

/-! # Dictionaries of parents

A dictionary that gives each of its keys a parent, or none. `follow` goes from a key to its parent,
on to the parent of that, and keeps what it has visited; it stops at a root, at a key that it has
visited before, or at one that the dictionary does not have. Every step visits a new key of the
dictionary, so that it always stops.

When every parent is a key, the walks from all keys end at roots exactly when the relation of child
and parent has no cycle (`follow_root_iff`).
-/

namespace MegaPanel.Lib

variable {κ : Type*} [DecidableEq κ]

/-! ## Walks -/

/-- Where a walk over parents stops. -/
inductive Walk (κ : Type*)
  | root
  /-- It comes back to a key. -/
  | back (key : κ)
  /-- The dictionary does not have the key. -/
  | missing (key : κ)
  deriving DecidableEq

/-- The keys that a walk has not visited. -/
def unvisited (parents : List (κ × Option κ)) (visited : List κ) : List κ :=
  (parents.map (·.1)).filter (fun key => decide (key ∉ visited))

/-- A step to a new key leaves fewer keys. -/
theorem unvisited_cons_lt {parents : List (κ × Option κ)} {visited : List κ} {key : κ}
    {parent : Option κ} (hget : dictGet parents key = some parent) (hnew : key ∉ visited) :
    (unvisited parents (key :: visited)).length < (unvisited parents visited).length := by
  have hmem : key ∈ unvisited parents visited :=
    List.mem_filter.mpr ⟨List.mem_map_of_mem (dictGet_eq_some hget), decide_eq_true hnew⟩
  have hsplit : unvisited parents (key :: visited)
      = (unvisited parents visited).filter (fun other => decide (other ≠ key)) := by
    rw [unvisited, unvisited, List.filter_filter]
    refine List.filter_congr (fun other _ => ?_)
    simp [List.mem_cons, not_or]
  rw [hsplit]
  exact List.length_filter_lt_length_iff_exists.mpr ⟨key, hmem, by simp⟩

/-- From a key to its parent, and on. -/
def follow (parents : List (κ × Option κ)) (visited : List κ) : Option κ → Walk κ
  | none => .root
  | some key =>
    if _hvisited : key ∈ visited then .back key
    else
      match _hget : dictGet parents key with
      | none => .missing key
      | some parent => follow parents (key :: visited) parent
termination_by (unvisited parents visited).length
decreasing_by exact unvisited_cons_lt _hget _hvisited

/-! ## The relation -/

def IsParent (parents : List (κ × Option κ)) (child parent : κ) : Prop :=
  dictGet parents child = some (some parent)

/-- Every parent is a key. -/
def Closed (parents : List (κ × Option κ)) : Prop :=
  ∀ child parent, IsParent parents child parent → (dictGet parents parent).isSome = true

/-- A walk that ends at a root starts from a key whose chain of parents is finite. -/
theorem acc_of_follow_root {parents : List (κ × Option κ)} {visited : List κ} {current : Option κ}
    (h : follow parents visited current = .root) {key : κ} (hkey : current = some key) :
    Acc (fun parent child => IsParent parents child parent) key := by
  fun_induction follow parents visited current generalizing key with
  | case1 => cases hkey
  | case2 | case3 => cases h
  | case4 visited key' hnew parent hget ih =>
    cases hkey
    refine Acc.intro _ (fun other hother => ih h ?_)
    exact Option.some.inj (hget.symm.trans hother)

/-- A walk comes back only to a key on a cycle, when all that it has visited leads to where it is. -/
theorem cycle_of_follow_back {parents : List (κ × Option κ)} {visited : List κ}
    {current : Option κ} {key : κ} (h : follow parents visited current = .back key)
    (hleads : ∀ v ∈ visited, ∀ k, current = some k → Relation.TransGen (IsParent parents) v k) :
    Relation.TransGen (IsParent parents) key key := by
  fun_induction follow parents visited current with
  | case1 => cases h
  | case2 visited key' hvisited =>
    cases h
    exact hleads key hvisited key rfl
  | case3 => cases h
  | case4 visited key' hnew parent hget ih =>
    refine ih h (fun v hv k hk => ?_)
    have hstep : IsParent parents key' k := by rw [IsParent, hget, hk]
    rcases List.mem_cons.mp hv with rfl | hold
    · exact .single hstep
    · exact (hleads v hold key' rfl).tail hstep

/-- A walk misses a key only if it starts from one, or if a parent is not a key. -/
theorem missing_of_follow {parents : List (κ × Option κ)} (hclosed : Closed parents)
    {visited : List κ} {current : Option κ} {key : κ}
    (hcurrent : ∀ k, current = some k → (dictGet parents k).isSome = true) :
    follow parents visited current ≠ .missing key := by
  fun_induction follow parents visited current with
  | case1 | case2 => exact nofun
  | case3 visited key' hnew hget =>
    have hsome := hcurrent key' rfl
    rw [hget] at hsome
    cases hsome
  | case4 visited key' hnew parent hget ih =>
    refine ih (fun k hk => hclosed key' k ?_)
    rw [IsParent, hget, hk]

/-- A walk that goes down in rank does not come back. -/
theorem follow_ne_back {parents : List (κ × Option κ)} {rank : κ → Nat}
    (hrank : ∀ child parent, IsParent parents child parent → rank parent < rank child)
    {visited : List κ} {current : Option κ} {key : κ}
    (hvisited : ∀ k, current = some k → ∀ v ∈ visited, rank k < rank v) :
    follow parents visited current ≠ .back key := by
  fun_induction follow parents visited current with
  | case1 | case3 => exact nofun
  | case2 visited key' hmem => exact absurd (hvisited key' rfl key' hmem) (Nat.lt_irrefl _)
  | case4 visited key' hnew parent hget ih =>
    refine ih (fun k hk => ?_)
    have hlt := hrank key' k (by rw [IsParent, hget, hk])
    exact List.forall_mem_cons.mpr ⟨hlt, fun v hv => hlt.trans (hvisited key' rfl v hv)⟩

/-- A key whose chain of parents is finite is not on a cycle. -/
theorem not_cycle_of_acc {parents : List (κ × Option κ)} {key : κ}
    (h : Acc (fun parent child => IsParent parents child parent) key) :
    ¬ Relation.TransGen (IsParent parents) key key := by
  induction h with
  | intro key _ ih =>
    intro hcycle
    obtain ⟨parent, hparent, hback⟩ := Relation.TransGen.head'_iff.mp hcycle
    exact ih parent hparent (Relation.TransGen.tail' hback hparent)

theorem isSome_dictGet {parents : List (κ × Option κ)} {key : κ} :
    (dictGet parents key).isSome = true ↔ key ∈ parents.map (·.1) := by
  rw [Option.isSome_iff_ne_none, ne_eq, dictGet_eq_none]
  constructor
  · intro hsome
    by_contra hnot
    exact hsome (fun e he hkey => hnot (hkey ▸ List.mem_map_of_mem he))
  · rintro hmem hnone
    obtain ⟨e, he, hkey⟩ := List.mem_map.mp hmem
    exact hnone e he hkey

/-- **Walks and cycles.** When every parent is a key, the walks from all keys end at roots if and
only if the relation of child and parent has no cycle. -/
theorem follow_root_iff {parents : List (κ × Option κ)} (hclosed : Closed parents) :
    (∀ key ∈ parents.map (·.1), follow parents [] (some key) = .root) ↔
      ∀ key, ¬ Relation.TransGen (IsParent parents) key key := by
  constructor
  · intro hroots key hcycle
    obtain ⟨parent, hparent, _⟩ := Relation.TransGen.head'_iff.mp hcycle
    have hmem : key ∈ parents.map (·.1) := isSome_dictGet.mp (by rw [hparent]; rfl)
    exact not_cycle_of_acc (acc_of_follow_root (hroots key hmem) rfl) hcycle
  · intro hacyclic key hmem
    cases hwalk : follow parents [] (some key) with
    | root => rfl
    | back back =>
      exact absurd (cycle_of_follow_back hwalk (fun v hv => absurd hv List.not_mem_nil))
        (hacyclic back)
    | missing missing =>
      refine absurd hwalk (missing_of_follow hclosed (fun k hk => ?_))
      cases hk
      exact isSome_dictGet.mpr hmem

end MegaPanel.Lib
