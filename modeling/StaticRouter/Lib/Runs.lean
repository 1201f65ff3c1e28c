import Mathlib.Data.List.Chain
import Mathlib.Logic.Function.Iterate
import Mathlib.Logic.Relation
import Mathlib.Order.WellFounded
import Mathlib.Tactic.Choose
import Mathlib.Tactic.Push
import Mathlib.Tactic.SplitIfs

/-!
# Runs of a labelled transition system

The runs whose steps satisfy a condition on their label and on the state before them, and the rule for
invariants: what holds at the start and is kept by every step holds in every state reached. Runs can be
computed, and runs can be endless.
-/

namespace Runs

variable {σ ι : Type*} (Init : σ → Prop) (Step : ι → σ → σ → Prop)

/-- The states of the runs in which every step satisfies `C` on the state before it. -/
inductive RunOf (C : ι → σ → Prop) : σ → Prop where
  | init {s : σ} (h : Init s) : RunOf C s
  | step {i : ι} {s s' : σ} (hs : RunOf C s) (hc : C i s) (h : Step i s s') : RunOf C s'

/-- The states that further steps lead to. -/
abbrev Later : σ → σ → Prop := Relation.ReflTransGen fun s s' => ∃ i, Step i s s'

variable {Init Step} {C : ι → σ → Prop}

/-- What holds at the start and is kept by every step of the run. -/
theorem RunOf.invariant {I : σ → Prop} (hinit : ∀ s, Init s → I s)
    (hstep : ∀ i s s', RunOf Init Step C s → C i s → I s → Step i s s' → I s') {s : σ}
    (h : RunOf Init Step C s) : I s := by
  induction h with
  | init h => exact hinit _ h
  | step hs hc h ih => exact hstep _ _ _ hs hc ih h

theorem RunOf.mono {C' : ι → σ → Prop} (hC : ∀ i s, C i s → C' i s) {s : σ} (h : RunOf Init Step C s) :
    RunOf Init Step C' s := by
  induction h with
  | init h => exact .init h
  | step _ hc hstep ih => exact ih.step (hC _ _ hc) hstep

theorem Later.runOf {s s' : σ} (hs : RunOf Init Step (fun _ _ => True) s) (h : Later Step s s') :
    RunOf Init Step (fun _ _ => True) s' := by
  induction h with
  | refl => exact hs
  | tail _ h ih =>
    obtain ⟨i, h⟩ := h
    exact ih.step trivial h

/-! ## Steps with their labels -/

variable (Step) in
/-- The steps with the labels `is`, each of which satisfies `C` on the state before it, lead from one state
to the other. -/
inductive Steps (C : ι → σ → Prop) : List ι → σ → σ → Prop where
  | refl (s : σ) : Steps C [] s s
  | step {is : List ι} {i : ι} {s s₁ s₂ : σ} (h : Steps C is s s₁) (hc : C i s₁) (hs : Step i s₁ s₂) :
      Steps C (is ++ [i]) s s₂

theorem Steps.trans {is js : List ι} {s s₁ s₂ : σ} (h : Steps Step C is s s₁) (h' : Steps Step C js s₁ s₂) :
    Steps Step C (is ++ js) s s₂ := by
  induction h' with
  | refl => rwa [List.append_nil]
  | step _ hc hs ih =>
    rw [← List.append_assoc]
    exact .step (ih h) hc hs

theorem Steps.mono {C' : ι → σ → Prop} {is : List ι} {s s' : σ} (hC : ∀ i ∈ is, ∀ s, C i s → C' i s)
    (h : Steps Step C is s s') : Steps Step C' is s s' := by
  induction h with
  | refl => exact .refl _
  | step _ hc hs ih =>
    exact .step (ih fun i hi => hC i (List.mem_append_left _ hi)) (hC _ (by simp) _ hc) hs

theorem Steps.runOf {is : List ι} {s s' : σ} (h : Steps Step C is s s') (hs : RunOf Init Step C s) :
    RunOf Init Step C s' := by
  induction h with
  | refl => exact hs
  | step _ hc hstep ih => exact (ih hs).step hc hstep

/-- What every one of the steps keeps. -/
theorem Steps.invariant {I : σ → Prop} (hI : ∀ i s s', C i s → I s → Step i s s' → I s') {is : List ι} {s s' : σ}
    (h : Steps Step C is s s') (hs : I s) : I s' := by
  induction h with
  | refl => exact hs
  | step _ hc hstep ih => exact hI _ _ _ hc (ih hs) hstep

/-! ## Computed runs -/

section Replay

variable (C) (exec : ι → σ → Option σ) [∀ i s, Decidable (C i s)]

/-- The state after the steps `is`, if every step satisfies `C` and can be made. -/
def replay : List ι → σ → Option σ
  | [], s => some s
  | i :: is, s => if C i s then (exec i s).bind (replay is) else none

variable {C exec}

/-- A replay makes its steps. -/
theorem Steps.replayed (hexec : ∀ i s s', exec i s = some s' → Step i s s') {is : List ι} {s s' : σ}
    (h : replay C exec is s = some s') : Steps Step C is s s' := by
  induction is generalizing s with
  | nil => exact Option.some.inj h ▸ .refl s
  | cons i is ih =>
    rw [replay] at h
    split_ifs at h with hc
    obtain ⟨s₁, h₁, h⟩ := Option.bind_eq_some_iff.mp h
    exact Steps.trans (show Steps Step C [i] s s₁ from .step (.refl s) hc (hexec i s s₁ h₁)) (ih h)

/-- What a replay shows of its last state is true of some state that its steps lead to. -/
theorem Steps.of_replay (hexec : ∀ i s s', exec i s = some s' → Step i s s') {is : List ι} {s : σ}
    {P : σ → Prop} [DecidablePred P] (h : (replay C exec is s).any (P ·) = true) :
    ∃ s', Steps Step C is s s' ∧ P s' := by
  cases hr : replay C exec is s with
  | none => rw [hr] at h; cases h
  | some s' =>
    rw [hr] at h
    exact ⟨s', Steps.replayed hexec hr, by simpa using h⟩

/-- A replay is a run. -/
theorem RunOf.replayed (hexec : ∀ i s s', exec i s = some s' → Step i s s') {is : List ι} {s s' : σ}
    (hs : RunOf Init Step C s) (h : replay C exec is s = some s') : RunOf Init Step C s' := by
  induction is generalizing s with
  | nil => exact Option.some.inj h ▸ hs
  | cons i is ih =>
    rw [replay] at h
    split_ifs at h with hc
    obtain ⟨s₁, h₁, h⟩ := Option.bind_eq_some_iff.mp h
    exact ih (hs.step hc (hexec i s s₁ h₁)) h

/-- What a replay from the start shows of its last state is true of some state of a run. -/
theorem RunOf.of_replay (hexec : ∀ i s s', exec i s = some s' → Step i s s') (is : List ι) {s : σ}
    (hs : Init s) (P : σ → Prop) [DecidablePred P] (h : (replay C exec is s).any (P ·) = true) :
    ∃ s', RunOf Init Step C s' ∧ P s' := by
  cases hr : replay C exec is s with
  | none => rw [hr] at h; cases h
  | some s' =>
    rw [hr] at h
    exact ⟨s', RunOf.replayed hexec (.init hs) hr, by simpa using h⟩

end Replay

/-! ## Chains -/

/-- A chain along which a measure falls, and stays at `m` or above, is no longer than the way from the
measure of its head down to `m`. -/
theorem add_length_le_of_isChain {α : Type*} {R : α → α → Prop} (μ : α → ℕ) {m : ℕ} {a : α} {l : List α}
    (hm : ∀ x ∈ a :: l, m ≤ μ x) (hR : ∀ x ∈ a :: l, ∀ y, R x y → μ y < μ x) (h : (a :: l).IsChain R) :
    m + l.length ≤ μ a := by
  induction l generalizing a with
  | nil => exact hm a List.mem_cons_self
  | cons b l ih =>
    obtain ⟨hab, h⟩ := List.isChain_cons_cons.mp h
    have hlt := hR a List.mem_cons_self b hab
    have hrest := ih (fun x hx => hm x (List.mem_cons_of_mem a hx))
      (fun x hx => hR x (List.mem_cons_of_mem a hx)) h
    rw [List.length_cons]
    omega

/-! ## Endless runs -/

variable (Step) in
/-- The endless run from `s` with the states `f` and the labels `x`. -/
structure Endless (s : σ) (f : ℕ → σ) (x : ℕ → ι) : Prop where
  start : f 0 = s
  step : ∀ n, Step (x n) (f n) (f (n + 1))

/-- Where every state with `I` has a step to another one, an endless run begins. -/
theorem exists_endless {I : σ → Prop} {D : ι → σ → Prop}
    (h : ∀ s, I s → ∃ i s', D i s ∧ Step i s s' ∧ I s') {s : σ} (hs : I s) :
    ∃ f x, Endless Step s f x ∧ ∀ n, D (x n) (f n) := by
  have : Nonempty ι := let ⟨i, _⟩ := h s hs; ⟨i⟩
  choose! x g hD hstep hI using h
  have hf : ∀ n, I (g^[n] s) := by
    intro n
    induction n with
    | zero => exact hs
    | succ n ih =>
      rw [Function.iterate_succ_apply']
      exact hI _ ih
  refine ⟨fun n => g^[n] s, fun n => x (g^[n] s), ⟨rfl, fun n => ?_⟩, fun n => hD _ (hf n)⟩
  rw [Function.iterate_succ_apply']
  exact hstep _ (hf n)

/-- Where every step other than those with `D` makes `μ` smaller, the steps with `D` recur in every
endless run. -/
theorem Endless.recurs {α : Type*} {r : α → α → Prop} (hr : WellFounded r) (μ : σ → α) {I : σ → Prop}
    {D : ι → σ → Prop} (hI : ∀ i s s', I s → Step i s s' → I s')
    (hμ : ∀ i s s', I s → ¬ D i s → Step i s s' → r (μ s') (μ s)) {s : σ} {f : ℕ → σ} {x : ℕ → ι}
    (h : Endless Step s f x) (hs : I s) (n : ℕ) : ∃ m, n ≤ m ∧ D (x m) (f m) := by
  have hf : ∀ m, I (f m) := by
    intro m
    induction m with
    | zero => rw [h.start]; exact hs
    | succ m ih => exact hI _ _ _ ih (h.step m)
  by_contra hno
  push Not at hno
  -- the states from `n` on would have no smallest measure
  obtain ⟨a, ⟨m, hm, rfl⟩, hmin⟩ := hr.has_min {a | ∃ m, n ≤ m ∧ μ (f m) = a} ⟨_, n, Nat.le_refl n, rfl⟩
  exact hmin _ ⟨m + 1, Nat.le_succ_of_le hm, rfl⟩ (hμ _ _ _ (hf m) (hno m hm) (h.step m))

end Runs
