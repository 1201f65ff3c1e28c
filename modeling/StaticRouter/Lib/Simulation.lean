import Mathlib.Data.List.Forall2
import Mathlib.Data.List.Nodup
import Mathlib.Data.List.Pairwise
import StaticRouter.Lib.SafeTraversal

/-!
# Computations that have the same outcome

Two computations, on two kinds of states, agree if both end in related states or both fail in the same
way. Agreement goes through sequencing and through safe traversals, so that a program on one kind of
states is compared with another one function by function.
-/

namespace CMem

variable {α β γ δ : Type}

/-! ## Related lists -/

section Related

variable {R : α → β → Prop} {l : List α} {l' : List β}

/-- Searches in related lists find related elements. -/
theorem forall₂_find? (h : List.Forall₂ R l l') {p : α → Bool} {q : β → Bool}
    (hpq : ∀ a b, R a b → p a = q b) :
    (l.find? p = none ∧ l'.find? q = none) ∨ ∃ a b, l.find? p = some a ∧ l'.find? q = some b ∧ R a b := by
  induction h with
  | nil => exact Or.inl ⟨rfl, rfl⟩
  | @cons a b l l' hab _ ih =>
    rw [List.find?_cons, List.find?_cons, hpq a b hab]
    cases q b with
    | true => exact Or.inr ⟨a, b, rfl, rfl, hab⟩
    | false => exact ih

theorem forall₂_filter (h : List.Forall₂ R l l') {p : α → Bool} {q : β → Bool}
    (hpq : ∀ a b, R a b → p a = q b) : List.Forall₂ R (l.filter p) (l'.filter q) :=
  List.rel_filter (fun a b hab => iff_of_eq (congrArg (· = true) (hpq a b hab))) h

/-- The images of related lists under functions that agree. -/
theorem forall₂_map_eq (h : List.Forall₂ R l l') {f : α → γ} {g : β → γ}
    (hfg : ∀ a b, R a b → f a = g b) : l.map f = l'.map g := by
  rw [← List.forall₂_eq_eq_eq]
  exact List.rel_map (fun a b hab => hfg a b hab) h

/-- A split of the first list splits the second one. -/
theorem forall₂_split {A B : List α} {a : α} (h : List.Forall₂ R (A ++ a :: B) l') :
    ∃ A' b B', l' = A' ++ b :: B' ∧ List.Forall₂ R A A' ∧ R a b ∧ List.Forall₂ R B B' := by
  induction A generalizing l' with
  | nil =>
    obtain ⟨b, B', hab, hB, rfl⟩ := List.forall₂_cons_left_iff.mp h
    exact ⟨[], b, B', rfl, .nil, hab, hB⟩
  | cons x A ih =>
    obtain ⟨y, rest, hxy, hrest, rfl⟩ := List.forall₂_cons_left_iff.mp h
    obtain ⟨A', b, B', rfl, hA, hab, hB⟩ := ih hrest
    exact ⟨y :: A', b, B', rfl, .cons hxy hA, hab, hB⟩

/-- What stands for an element of the first list. -/
theorem forall₂_mem (h : List.Forall₂ R l l') {a : α} (ha : a ∈ l) : ∃ b ∈ l', R a b := by
  obtain ⟨A, B, rfl⟩ := List.append_of_mem ha
  obtain ⟨A', b, B', rfl, -, hab, -⟩ := forall₂_split h
  exact ⟨b, by simp, hab⟩

end Related

/-- What no two parts share belongs to one part only. -/
theorem eq_of_mem_flatMap {f : α → List β} {l : List α} (hnd : (l.flatMap f).Nodup) {a a' : α} (ha : a ∈ l)
    (ha' : a' ∈ l) {b : β} (hb : b ∈ f a) (hb' : b ∈ f a') : a = a' := by
  have : Std.Symm (Function.onFun List.Disjoint f) := ⟨fun _ _ hd t h₁ h₂ => hd h₂ h₁⟩
  have hdisj := (List.nodup_flatMap.mp hnd).2
  by_contra hne
  exact hdisj.forall ha ha' hne hb hb'

/-! ## Agreement -/

/-- Both computations end, in related states, or both fail in the same way. -/
def Agree (R : α → β → Prop) : Except Fault α → Except Fault β → Prop
  | .ok a, .ok b => R a b
  | .error e, .error e' => e = e'
  | _, _ => False

namespace Agree

variable {R R' : α → β → Prop} {Q : γ → δ → Prop} {x : Except Fault α} {y : Except Fault β}

@[simp] theorem ok_ok {a : α} {b : β} : Agree R (.ok a) (.ok b) ↔ R a b := Iff.rfl

@[simp] theorem error_error {e e' : Fault} : Agree R (.error e) (.error e') ↔ e = e' := Iff.rfl

theorem mono (h : Agree R x y) (hR : ∀ a b, R a b → R' a b) : Agree R' x y := by
  cases x <;> cases y <;> first | exact h | exact hR _ _ h

/-- Sequencing. -/
theorem bind {f : α → Except Fault γ} {g : β → Except Fault δ} (h : Agree R x y)
    (hfg : ∀ a b, R a b → Agree Q (f a) (g b)) : Agree Q (x >>= f) (y >>= g) := by
  cases x with
  | ok a =>
    cases y with
    | ok b => exact hfg a b h
    | error e => exact h.elim
  | error e =>
    cases y with
    | ok b => exact h.elim
    | error e' => exact h

/-- A pure step that both programs make. -/
theorem bind_same {z : Except Fault γ} {f : γ → Except Fault α} {g : γ → Except Fault β}
    (hfg : ∀ c, z = .ok c → Agree R (f c) (g c)) : Agree R (z >>= f) (z >>= g) := by
  cases z with
  | ok c => exact hfg c rfl
  | error e => exact rfl

/-- What follows from the end of the second program. -/
theorem exists_ok {b : β} (h : Agree R x y) (hy : y = .ok b) : ∃ a, x = .ok a ∧ R a b := by
  subst hy
  cases x with
  | ok a => exact ⟨a, rfl, h⟩
  | error e => exact h.elim

/-- What follows from the end of the first program. -/
theorem exists_ok_right {a : α} (h : Agree R x y) (hx : x = .ok a) : ∃ b, y = .ok b ∧ R a b := by
  subst hx
  cases y with
  | ok b => exact ⟨b, rfl, h⟩
  | error e => exact h.elim

section Traversal

variable {nodes : α → List Nat} {nodes' : β → List Nat} {body : Nat → α → Except Fault α}
  {body' : Nat → β → Except Fault β}

/-- Safe traversals agree if their bodies do and the lists have the same nodes. -/
theorem safeLoop (hn : ∀ a b, R a b → nodes a = nodes' b)
    (hb : ∀ p a b, R a b → Agree R (body p a) (body' p b)) (fuel : Nat) (pos q : Option Nat) {a : α} {b : β}
    (h : R a b) : Agree R (safeLoop nodes body fuel pos q a) (safeLoop nodes' body' fuel pos q b) := by
  induction fuel generalizing pos q a b with
  | zero =>
    cases pos with
    | none => exact h
    | some p => exact rfl
  | succ fuel ih =>
    cases pos with
    | none => exact h
    | some p =>
      refine Agree.bind (hb p a b h) fun a' b' h' => ?_
      rw [hn a' b' h']
      exact ih _ _ h'

theorem forEachSafe (hn : ∀ a b, R a b → nodes a = nodes' b)
    (hb : ∀ p a b, R a b → Agree R (body p a) (body' p b)) (fuel : Nat) {a : α} {b : β} (h : R a b) :
    Agree R (forEachSafe nodes body fuel a) (forEachSafe nodes' body' fuel b) := by
  unfold CMem.forEachSafe
  rw [hn a b h]
  exact safeLoop hn hb fuel _ _ h

end Traversal

end Agree

end CMem
