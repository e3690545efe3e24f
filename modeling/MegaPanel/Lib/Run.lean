import Mathlib.Tactic

set_option autoImplicit false

/-! # Runs of a labelled transition system

A system is a partial function `step : σ → α → Option σ`: the action `a` taken in the state
`s` leads to `t` when `step s a = some t` and is refused when `step s a = none`. A *run* is
a list of actions, executed by `exec`. Nondeterminism (who moves next, what the environment
answers) is in the actions, so a statement about every list of actions is a statement about
every interleaving.

`Along step Q s as` says that every step taken by the run `as` from `s` satisfies `Q`. It
serves in both directions: as a hypothesis it restricts the runs under consideration, as a
conclusion it states a property of steps rather than of states. The rules below turn a fact
about one step into a fact about whole runs. `emitted` lists what the steps of a run emit.
`withGhost` adds a history variable to a system without changing what the system does.
-/

namespace MegaPanel.Lib

variable {σ α γ : Type*}

/-! ## Executing a run -/

/-- Execute a list of actions; `none` as soon as one of them is refused. -/
def exec (step : σ → α → Option σ) : σ → List α → Option σ
  | s, [] => some s
  | s, a :: as => (step s a).bind (fun t => exec step t as)

@[simp] theorem exec_nil (step : σ → α → Option σ) (s : σ) : exec step s [] = some s := rfl

theorem exec_cons (step : σ → α → Option σ) (s : σ) (a : α) (as : List α) :
    exec step s (a :: as) = (step s a).bind (fun t => exec step t as) := rfl

theorem exec_cons_eq_some {step : σ → α → Option σ} {s u : σ} {a : α} {as : List α} :
    exec step s (a :: as) = some u ↔ ∃ t, step s a = some t ∧ exec step t as = some u := by
  rw [exec_cons, Option.bind_eq_some_iff]

theorem exec_append (step : σ → α → Option σ) (s : σ) (as bs : List α) :
    exec step s (as ++ bs) = (exec step s as).bind (fun t => exec step t bs) := by
  induction as generalizing s with
  | nil => rfl
  | cons a as ih =>
    rw [List.cons_append, exec_cons, exec_cons]
    cases step s a with
    | none => rfl
    | some t => exact ih t

/-! ## Properties of the steps of a run -/

/-- Every step taken by the run `as` from `s` satisfies `Q`. -/
def Along (step : σ → α → Option σ) (Q : σ → α → σ → Prop) : σ → List α → Prop
  | _, [] => True
  | s, a :: as => ∀ t, step s a = some t → Q s a t ∧ Along step Q t as

@[simp] theorem along_nil (step : σ → α → Option σ) (Q : σ → α → σ → Prop) (s : σ) :
    Along step Q s [] := trivial

theorem along_cons {step : σ → α → Option σ} {Q : σ → α → σ → Prop} {s : σ} {a : α}
    {as : List α} :
    Along step Q s (a :: as) ↔ ∀ t, step s a = some t → Q s a t ∧ Along step Q t as := Iff.rfl

/-- Whether a step property holds along a run is decided by executing the run. -/
def decidableAlong (step : σ → α → Option σ) (Q : σ → α → σ → Prop)
    (hQ : ∀ s a t, Decidable (Q s a t)) : ∀ (s : σ) (as : List α), Decidable (Along step Q s as)
  | _, [] => .isTrue trivial
  | s, a :: as =>
    match h : step s a with
    | none => .isTrue (fun t ht => by rw [h] at ht; cases ht)
    | some t =>
      match hQ s a t, decidableAlong step Q hQ t as with
      | .isTrue hq, .isTrue hrest =>
        .isTrue (fun u hu => by
          rw [h] at hu
          exact Option.some.inj hu ▸ ⟨hq, hrest⟩)
      | .isFalse hq, _ => .isFalse (fun hall => hq (hall t h).1)
      | _, .isFalse hrest => .isFalse (fun hall => hrest (hall t h).2)

instance {step : σ → α → Option σ} {Q : σ → α → σ → Prop} [hQ : ∀ s a t, Decidable (Q s a t)]
    (s : σ) (as : List α) : Decidable (Along step Q s as) := decidableAlong step Q hQ s as

/-- A condition on actions alone holds along a run of such actions. -/
theorem along_of_forall {step : σ → α → Option σ} {Q : α → Prop} {as : List α}
    (h : ∀ a ∈ as, Q a) (s : σ) : Along step (fun _ a _ => Q a) s as := by
  induction as generalizing s with
  | nil => trivial
  | cons a as ih =>
    intro t _
    exact ⟨h a (List.mem_cons_self ..), ih (fun b hb => h b (List.mem_cons_of_mem _ hb)) t⟩

theorem along_append {step : σ → α → Option σ} {Q : σ → α → σ → Prop} {s t : σ} {as bs : List α}
    (ht : exec step s as = some t) :
    Along step Q s (as ++ bs) ↔ Along step Q s as ∧ Along step Q t bs := by
  induction as generalizing s with
  | nil =>
    cases ht
    exact ⟨fun h => ⟨trivial, h⟩, fun h => h.2⟩
  | cons a as ih =>
    obtain ⟨r, hr, ht'⟩ := exec_cons_eq_some.mp ht
    constructor
    · intro h
      have hrest := (ih ht').mp (h r hr).2
      exact ⟨fun u hu => Option.some.inj (hr.symm.trans hu) ▸ ⟨(h r hr).1, hrest.1⟩, hrest.2⟩
    · intro h u hu
      cases hr.symm.trans hu
      exact ⟨(h.1 r hr).1, (ih ht').mpr ⟨(h.1 r hr).2, h.2⟩⟩

/-- A property of all steps of a run holds of each step the run takes. -/
theorem Along.at {step : σ → α → Option σ} {Q : σ → α → σ → Prop} {s t u : σ} {as bs : List α}
    {a : α} (h : Along step Q s (as ++ a :: bs)) (ht : exec step s as = some t)
    (hu : step t a = some u) : Q t a u := by
  induction as generalizing s with
  | nil =>
    cases ht
    exact (h u hu).1
  | cons b as ih =>
    obtain ⟨r, hr, ht'⟩ := exec_cons_eq_some.mp ht
    exact ih (h r hr).2 ht'

/-- **The run rule for states.** An invariant kept by every step that meets the condition
`G` holds after every run whose steps all meet it. -/
theorem exec_invariant {step : σ → α → Option σ} {G : σ → α → σ → Prop} {I : σ → Prop}
    (hstep : ∀ s a t, I s → G s a t → step s a = some t → I t) :
    ∀ {s t : σ} {as : List α}, I s → Along step G s as → exec step s as = some t → I t := by
  intro s t as
  induction as generalizing s with
  | nil =>
    intro hs _ he
    cases he
    exact hs
  | cons a as ih =>
    intro hs hG he
    obtain ⟨u, hu, he'⟩ := exec_cons_eq_some.mp he
    obtain ⟨hg, hG'⟩ := hG u hu
    exact ih (hstep s a u hs hg hu) hG' he'

/-- **The run rule for conditional step properties.** If, on states satisfying the invariant
`I`, every step that meets the condition `G` keeps `I` and has the property `P`, then every step
of a run whose steps all meet `G` has the property `P`. -/
theorem along_rule {step : σ → α → Option σ} {G P : σ → α → σ → Prop} {I : σ → Prop}
    (hstep : ∀ s a t, I s → G s a t → step s a = some t → I t ∧ P s a t) :
    ∀ {s : σ} {as : List α}, I s → Along step G s as → Along step P s as := by
  intro s as
  induction as generalizing s with
  | nil => intro _ _; trivial
  | cons a as ih =>
    intro hs hG t ht
    obtain ⟨hg, hG'⟩ := hG t ht
    obtain ⟨ht', hp⟩ := hstep s a t hs hg ht
    exact ⟨hp, ih ht' hG'⟩

theorem Along.mono {step : σ → α → Option σ} {P Q : σ → α → σ → Prop} {s : σ} {as : List α}
    (hPQ : ∀ s a t, P s a t → Q s a t) (h : Along step P s as) : Along step Q s as :=
  along_rule (I := fun _ => True) (fun s a t _ hp _ => ⟨trivial, hPQ s a t hp⟩) trivial h

/-- **The run rule for steps.** If, on states satisfying an invariant kept by every step,
`P` and `Q` say the same of each step, then they say the same of every run. -/
theorem along_iff {step : σ → α → Option σ} {P Q : σ → α → σ → Prop} {I : σ → Prop}
    (hstep : ∀ s a t, I s → step s a = some t → I t)
    (hPQ : ∀ s a t, I s → step s a = some t → (P s a t ↔ Q s a t)) :
    ∀ {s : σ} {as : List α}, I s → (Along step P s as ↔ Along step Q s as) := by
  intro s as
  induction as generalizing s with
  | nil => intro _; exact Iff.rfl
  | cons a as ih =>
    intro hs
    rw [along_cons, along_cons]
    refine forall_congr' (fun t => imp_congr_right (fun ht => ?_))
    exact and_congr (hPQ s a t hs ht) (ih (hstep s a t hs ht))

/-- **The run rule for a property that carries an invariant.** `J` is kept by every step, and
a step with the property `P` keeps `I`. If, on states satisfying `J` and `I`, a step has the
property `P` exactly when it meets the condition `Q`, then all steps of a run have the property
exactly when all of them meet the condition. -/
theorem along_conditional_iff {step : σ → α → Option σ} {P Q : σ → α → σ → Prop} {I J : σ → Prop}
    (hkept : ∀ s a t, J s → step s a = some t → J t)
    (hkeeps : ∀ s a t, P s a t → I t)
    (hstep : ∀ s a t, J s → I s → step s a = some t → (P s a t ↔ Q s a t)) :
    ∀ {s : σ} {as : List α}, J s → I s → (Along step P s as ↔ Along step Q s as) := by
  intro s as
  induction as generalizing s with
  | nil => intro _ _; exact Iff.rfl
  | cons a as ih =>
    intro hj hi
    rw [along_cons, along_cons]
    refine forall_congr' (fun t => imp_congr_right (fun ht => ?_))
    have hj' := hkept s a t hj ht
    constructor
    · rintro ⟨hp, hrest⟩
      exact ⟨(hstep s a t hj hi ht).mp hp, (ih hj' (hkeeps s a t hp)).mp hrest⟩
    · rintro ⟨hq, hrest⟩
      have hp := (hstep s a t hj hi ht).mpr hq
      exact ⟨hp, (ih hj' (hkeeps s a t hp)).mpr hrest⟩

/-- **The run rule for a conditional invariant.** `J` is kept by every step. If a step from a
state satisfying `J` and `I` leads to one satisfying `I` exactly when it meets the condition
`Q`, then all states of a run satisfy `I` exactly when all its steps meet `Q`. -/
theorem along_invariant_iff {step : σ → α → Option σ} {Q : σ → α → σ → Prop} {I J : σ → Prop}
    (hkept : ∀ s a t, J s → step s a = some t → J t)
    (hstep : ∀ s a t, J s → I s → step s a = some t → (I t ↔ Q s a t)) :
    ∀ {s : σ} {as : List α}, J s → I s →
      (Along step (fun _ _ t => I t) s as ↔ Along step Q s as) :=
  along_conditional_iff (P := fun _ _ t => I t) hkept (fun _ _ _ hi => hi) hstep

/-! ## What a run emits -/

/-- What the steps of a run emit, in order; `emit s a` is what the action `a` emits in `s`. -/
def emitted {β : Type*} (step : σ → α → Option σ) (emit : σ → α → List β) : σ → List α → List β
  | _, [] => []
  | s, a :: as =>
    match step s a with
    | none => []
    | some t => emit s a ++ emitted step emit t as

theorem emitted_cons {β : Type*} {step : σ → α → Option σ} (emit : σ → α → List β) {s t : σ}
    {a : α} (as : List α) (h : step s a = some t) :
    emitted step emit s (a :: as) = emit s a ++ emitted step emit t as := by
  simp only [emitted, h]

/-- **The run rule for what is emitted.** `I` relates the state to what was emitted on the way
to it; what it implies about the emitted list holds of every run. -/
theorem emitted_rule {β : Type*} {step : σ → α → Option σ} {emit : σ → α → List β}
    {G : σ → α → σ → Prop} {I : σ → List β → Prop} {P : List β → Prop}
    (hstep : ∀ s a t seen, I s seen → G s a t → step s a = some t → I t (seen ++ emit s a))
    (hP : ∀ s seen, I s seen → P seen) :
    ∀ {s : σ} {as : List α} {seen : List β}, I s seen → Along step G s as →
      P (seen ++ emitted step emit s as) := by
  intro s as
  induction as generalizing s with
  | nil =>
    intro seen hs _
    rw [emitted, List.append_nil]
    exact hP s seen hs
  | cons a as ih =>
    intro seen hs hG
    cases hstep' : step s a with
    | none =>
      rw [emitted, hstep', List.append_nil]
      exact hP s seen hs
    | some t =>
      obtain ⟨hg, hG'⟩ := hG t hstep'
      rw [emitted_cons emit as hstep', ← List.append_assoc]
      exact ih (hstep s a t seen hs hg hstep') hG'

/-! ## History variables -/

/-- The system `step` with a history variable, updated by `note` at every step. -/
def withGhost (step : σ → α → Option σ) (note : σ → α → γ → γ) :
    σ × γ → α → Option (σ × γ) :=
  fun s a => (step s.1 a).map (fun t => (t, note s.1 a s.2))

theorem withGhost_eq_some {step : σ → α → Option σ} {note : σ → α → γ → γ} {s t : σ × γ}
    {a : α} :
    withGhost step note s a = some t ↔ step s.1 a = some t.1 ∧ t.2 = note s.1 a s.2 := by
  simp only [withGhost, Option.map_eq_some_iff]
  constructor
  · rintro ⟨u, hu, rfl⟩
    exact ⟨hu, rfl⟩
  · rintro ⟨hu, hg⟩
    exact ⟨t.1, hu, by rw [← hg]⟩

/-- A run of the extended system is a run of the original one. -/
theorem exec_of_withGhost {step : σ → α → Option σ} {note : σ → α → γ → γ} {x y : σ × γ}
    {as : List α} (h : exec (withGhost step note) x as = some y) :
    exec step x.1 as = some y.1 := by
  induction as generalizing x with
  | nil =>
    cases h
    rfl
  | cons a as ih =>
    obtain ⟨u, hu, h'⟩ := exec_cons_eq_some.mp h
    exact exec_cons_eq_some.mpr ⟨u.1, (withGhost_eq_some.mp hu).1, ih h'⟩

/-- Every run of the original system is one of the extended system. -/
theorem exec_withGhost {step : σ → α → Option σ} {s t : σ} {as : List α}
    (h : exec step s as = some t) (note : σ → α → γ → γ) (g : γ) :
    ∃ g', exec (withGhost step note) (s, g) as = some (t, g') := by
  induction as generalizing s g with
  | nil =>
    cases h
    exact ⟨g, rfl⟩
  | cons a as ih =>
    obtain ⟨u, hu, h'⟩ := exec_cons_eq_some.mp h
    obtain ⟨g', hg'⟩ := ih h' (note s a g)
    exact ⟨g', exec_cons_eq_some.mpr ⟨(u, note s a g), withGhost_eq_some.mpr ⟨hu, rfl⟩, hg'⟩⟩

/-- A property of steps that does not mention the history variable holds along a run of the
extended system exactly when it holds along the same run of the original one. -/
theorem along_withGhost {step : σ → α → Option σ} (note : σ → α → γ → γ)
    {Q : σ → α → σ → Prop} {s : σ} {g : γ} {as : List α} :
    Along (withGhost step note) (fun s a t => Q s.1 a t.1) (s, g) as ↔ Along step Q s as := by
  induction as generalizing s g with
  | nil => exact Iff.rfl
  | cons a as ih =>
    rw [along_cons, along_cons]
    constructor
    · intro h t ht
      obtain ⟨hq, hrest⟩ := h (t, note s a g) (withGhost_eq_some.mpr ⟨ht, rfl⟩)
      exact ⟨hq, ih.mp hrest⟩
    · rintro h ⟨t, g'⟩ ht
      obtain ⟨hs, hg⟩ := withGhost_eq_some.mp ht
      obtain ⟨hq, hrest⟩ := h t hs
      exact ⟨hq, ih.mpr hrest⟩

/-- **The run rule for steps, with a history variable.** If `P` and `Q` say the same of each step
from a state that satisfies, with its history, an invariant kept by every step, then they say the
same of every run. -/
theorem ghost_along_iff {step : σ → α → Option σ} {note : σ → α → γ → γ}
    {P Q : σ → γ → α → Prop} {I : σ → γ → Prop}
    (hstep : ∀ s g a t, I s g → step s a = some t → I t (note s a g))
    (hPQ : ∀ s g a t, I s g → step s a = some t → (P s g a ↔ Q s g a)) {s : σ} {g : γ}
    {as : List α} (hs : I s g) :
    Along (withGhost step note) (fun x a _ => P x.1 x.2 a) (s, g) as ↔
      Along (withGhost step note) (fun x a _ => Q x.1 x.2 a) (s, g) as := by
  refine along_iff (I := fun x : σ × γ => I x.1 x.2) (fun x a y hx hxy => ?_)
    (fun x a y hx hxy => ?_) hs
  · obtain ⟨hy, hnote⟩ := withGhost_eq_some.mp hxy
    rw [hnote]
    exact hstep x.1 x.2 a y.1 hx hy
  · exact hPQ x.1 x.2 a y.1 hx (withGhost_eq_some.mp hxy).1

end MegaPanel.Lib
