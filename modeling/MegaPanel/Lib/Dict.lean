import Mathlib.Tactic

set_option autoImplicit false

/-! # Dictionaries filled by a loop

A dictionary that a loop or a comprehension fills, as the list of its assignments: the last
one for a key is the one that counts.
-/

namespace MegaPanel.Lib

variable {α κ ν : Type*} [DecidableEq κ]

/-- `d.get(key)` after the assignments. -/
def dictGet (assignments : List (κ × ν)) (key : κ) : Option ν :=
  (assignments.reverse.find? (fun e => e.1 = key)).map (·.2)

theorem dictGet_eq_some {assignments : List (κ × ν)} {key : κ} {v : ν}
    (h : dictGet assignments key = some v) : (key, v) ∈ assignments := by
  obtain ⟨e, he, rfl⟩ := Option.map_eq_some_iff.mp h
  have hkey : e.1 = key := by simpa using List.find?_some he
  rw [← hkey]
  exact List.mem_reverse.mp (List.mem_of_find?_eq_some he)

theorem dictGet_eq_none {assignments : List (κ × ν)} {key : κ} :
    dictGet assignments key = none ↔ ∀ e ∈ assignments, e.1 ≠ key := by
  simp [dictGet]

/-- Where every key is assigned at most once, the assignment is what the dictionary holds. -/
theorem dictGet_filterMap {xs : List α} (key : α → κ) (val : α → Option ν)
    (hn : (xs.map key).Nodup) {x : α} (hx : x ∈ xs) :
    dictGet (xs.filterMap (fun y => (val y).map (fun v => (key y, v)))) (key x) = val x := by
  have honly : ∀ y ∈ xs, key y = key x → y = x := fun y hy h => List.inj_on_of_nodup_map hn hy hx h
  cases hval : val x with
  | none =>
    rw [dictGet_eq_none]
    intro e he hkey
    obtain ⟨y, hy, hmap⟩ := List.mem_filterMap.mp he
    obtain ⟨v, hv, rfl⟩ := Option.map_eq_some_iff.mp hmap
    rw [honly y hy hkey, hval] at hv
    cases hv
  | some v =>
    have hmem : (key x, v) ∈ xs.filterMap (fun y => (val y).map (fun v => (key y, v))) :=
      List.mem_filterMap.mpr ⟨x, hx, by rw [hval]; rfl⟩
    cases hget : dictGet (xs.filterMap (fun y => (val y).map (fun v => (key y, v)))) (key x) with
    | none => exact absurd rfl (dictGet_eq_none.mp hget _ hmem)
    | some w =>
      obtain ⟨y, hy, hmap⟩ := List.mem_filterMap.mp (dictGet_eq_some hget)
      obtain ⟨u, hu, heq⟩ := Option.map_eq_some_iff.mp hmap
      obtain ⟨hkey, rfl⟩ := Prod.mk.inj heq
      rw [honly y hy hkey, hval] at hu
      rw [hu]

theorem dictGet_map {xs : List α} (key : α → κ) (val : α → ν) (hn : (xs.map key).Nodup)
    {x : α} (hx : x ∈ xs) :
    dictGet (xs.map (fun y => (key y, val y))) (key x) = some (val x) := by
  rw [← dictGet_filterMap key (fun y => some (val y)) hn hx]
  simp

/-- Later assignments come first. -/
theorem dictGet_append (xs ys : List (κ × ν)) (key : κ) :
    dictGet (xs ++ ys) key = (dictGet ys key).or (dictGet xs key) := by
  rw [dictGet, List.reverse_append, List.find?_append, Option.map_or]
  rfl

theorem dictGet_append_of_notMem {xs ys : List (κ × ν)} {key : κ}
    (h : ∀ e ∈ ys, e.1 ≠ key) : dictGet (xs ++ ys) key = dictGet xs key := by
  rw [dictGet_append, dictGet_eq_none.mpr h, Option.none_or]

/-- Where all assignments to a key put the same there, that is what is there. -/
theorem dictGet_eq_some_of_unique {assignments : List (κ × ν)} {key : κ} {v : ν}
    (hmem : (key, v) ∈ assignments) (honly : ∀ e ∈ assignments, e.1 = key → e.2 = v) :
    dictGet assignments key = some v := by
  cases hget : dictGet assignments key with
  | none => exact absurd rfl (dictGet_eq_none.mp hget (key, v) hmem)
  | some other => exact congrArg some (honly (key, other) (dictGet_eq_some hget) rfl)

/-- With distinct keys an entry is what was assigned. -/
theorem dictGet_eq_some_iff_mem {assignments : List (κ × ν)}
    (hn : (assignments.map Prod.fst).Nodup) {key : κ} {v : ν} :
    dictGet assignments key = some v ↔ (key, v) ∈ assignments := by
  constructor
  · exact dictGet_eq_some
  · intro h
    refine dictGet_eq_some_of_unique h (fun e he hkey => ?_)
    rw [List.inj_on_of_nodup_map hn he h hkey]

/-! ## Comprehensions over a call that may raise -/

omit [DecidableEq κ] in
/-- A comprehension that returns has returned the value of every call. -/
theorem mapM_ok {ε : Type*} {f : α → Except ε ν} {xs : List α} {ys : List ν}
    (h : xs.mapM f = .ok ys) (g : α → ν) (hg : ∀ x ∈ xs, ∀ y, f x = .ok y → y = g x) :
    ys = xs.map g := by
  induction xs generalizing ys with
  | nil =>
    cases h
    rfl
  | cons x xs ih =>
    rw [List.mapM_cons] at h
    cases hx : f x with
    | error e => rw [hx] at h; cases h
    | ok y =>
      cases hxs : xs.mapM f with
      | error e => rw [hx, hxs] at h; cases h
      | ok zs =>
        rw [hx, hxs] at h
        cases h
        rw [List.map_cons, hg x (by simp) y hx, ih hxs (fun z hz => hg z (by simp [hz]))]

omit [DecidableEq κ] in
/-- Each value of a comprehension is what one of the calls returned. -/
theorem mapM_mem {ε : Type*} {f : α → Except ε ν} {xs : List α} {ys : List ν}
    (h : xs.mapM f = .ok ys) {y : ν} (hy : y ∈ ys) : ∃ x ∈ xs, f x = .ok y := by
  induction xs generalizing ys with
  | nil =>
    cases h
    cases hy
  | cons x xs ih =>
    rw [List.mapM_cons] at h
    cases hx : f x with
    | error e => rw [hx] at h; cases h
    | ok z =>
      cases hxs : xs.mapM f with
      | error e => rw [hx, hxs] at h; cases h
      | ok zs =>
        rw [hx, hxs] at h
        cases h
        rcases List.mem_cons.mp hy with rfl | hmem
        · exact ⟨x, List.mem_cons_self .., hx⟩
        · obtain ⟨x', hx', hfx⟩ := ih hxs hmem
          exact ⟨x', List.mem_cons_of_mem _ hx', hfx⟩

omit [DecidableEq κ] in
/-- A comprehension that returns has the value of each call at its place. -/
theorem mapM_forall₂ {ε : Type*} {f : α → Except ε ν} {xs : List α} {ys : List ν}
    (h : xs.mapM f = .ok ys) : List.Forall₂ (fun x y => f x = .ok y) xs ys := by
  induction xs generalizing ys with
  | nil =>
    cases h
    exact .nil
  | cons x xs ih =>
    rw [List.mapM_cons] at h
    cases hx : f x with
    | error e => rw [hx] at h; cases h
    | ok y =>
      cases hxs : xs.mapM f with
      | error e => rw [hx, hxs] at h; cases h
      | ok zs =>
        rw [hx, hxs] at h
        cases h
        exact .cons hx (ih hxs)

omit [DecidableEq κ] in
/-- A comprehension over the values of another list, whose calls all return, returns. -/
theorem mapM_map_of_ok {β ε : Type*} {f : β → Except ε ν} {k : α → β} {g : α → ν} {xs : List α}
    (h : ∀ x ∈ xs, f (k x) = .ok (g x)) : (xs.map k).mapM f = .ok (xs.map g) := by
  induction xs with
  | nil => rfl
  | cons x xs ih =>
    rw [List.map_cons, List.mapM_cons, h x (by simp), ih (fun z hz => h z (by simp [hz]))]
    rfl

omit [DecidableEq κ] in
/-- A comprehension returns when every call does. -/
theorem mapM_isOk_iff {ε : Type*} {f : α → Except ε ν} {xs : List α} :
    (∃ ys, xs.mapM f = .ok ys) ↔ ∀ x ∈ xs, ∃ y, f x = .ok y := by
  constructor
  · rintro ⟨ys, h⟩ x hx
    have hall := mapM_forall₂ h
    clear h
    induction hall with
    | nil => cases hx
    | cons hy _ ih =>
      rcases List.mem_cons.mp hx with rfl | hmem
      · exact ⟨_, hy⟩
      · exact ih hmem
  · intro h
    induction xs with
    | nil => exact ⟨[], rfl⟩
    | cons x xs ih =>
      obtain ⟨y, hy⟩ := h x (List.mem_cons_self ..)
      obtain ⟨ys, hys⟩ := ih (fun z hz => h z (List.mem_cons_of_mem _ hz))
      exact ⟨y :: ys, by rw [List.mapM_cons, hy, hys]; rfl⟩

omit [DecidableEq κ] in
theorem forM_eq_ok {ε : Type*} {f : α → Except ε Unit} {xs : List α} :
    xs.forM f = .ok () ↔ ∀ x ∈ xs, f x = .ok () := by
  induction xs with
  | nil => exact iff_of_true rfl (fun x hx => absurd hx List.not_mem_nil)
  | cons x xs ih =>
    rw [List.forall_mem_cons, ← ih]
    show (f x >>= fun _ => xs.forM f) = .ok () ↔ _
    cases f x with
    | error e => exact iff_of_false nofun (fun h => absurd h.1 nofun)
    | ok u => exact ⟨fun h => ⟨rfl, h⟩, fun h => h.2⟩

theorem bind_eq_ok.{u, v} {ε : Type u} {α β : Type v} {x : Except ε α} {f : α → Except ε β}
    {b : β} :
    x >>= f = .ok b ↔ ∃ a, x = .ok a ∧ f a = .ok b := by
  cases x with
  | error e => exact iff_of_false nofun (fun ⟨_, h, _⟩ => nomatch h)
  | ok a => exact ⟨fun h => ⟨a, rfl, h⟩, fun ⟨_, h, h'⟩ => by cases h; exact h'⟩

omit [DecidableEq κ] in
theorem toOption_eq_some {ε : Type*} {x : Except ε α} {v : α} :
    x.toOption = some v ↔ x = .ok v := by
  cases x with
  | error e => exact ⟨fun h => (by cases h), fun h => (by cases h)⟩
  | ok w => exact ⟨fun h => (by cases h; rfl), fun h => (by cases h; rfl)⟩

omit [DecidableEq κ] in
theorem map_eq_ok {ε β : Type*} {x : Except ε α} {f : α → β} {y : β} (h : x.map f = .ok y) :
    ∃ v, x = .ok v ∧ y = f v := by
  cases x with
  | error e => cases h
  | ok v =>
    cases h
    exact ⟨v, rfl, rfl⟩

omit [DecidableEq κ] in
/-- A step that a call must allow is taken with the value of the call. -/
theorem toOption_map_eq_some {ε β : Type*} {x : Except ε α} {f : α → β} {y : β}
    (h : x.toOption.map f = some y) : ∃ v, x = .ok v ∧ y = f v := by
  cases x with
  | error e => cases h
  | ok v => exact ⟨v, rfl, (Option.some.inj h).symm⟩

end MegaPanel.Lib
