import Mathlib.Data.List.Nodup
import StaticRouter.Lib.Buffer

/-!
# Safe traversal of a list that changes underneath

A `list_for_each_entry_safe` loop keeps the current node and the next one, which it reads from the list
before the body runs for the current node. The body may delete the current node and link further nodes
in at the tail. Nodes are named by numbers; no next node means that the next link leads back to the
list head.
-/

namespace CMem

/-- The node linked behind `x` in the list `l`. -/
def nextOf (l : List Nat) (x : Nat) : Option Nat := (l.dropWhile (· ≠ x)).tail.head?

section Traversal

variable {σ : Type} (nodes : σ → List Nat) (body : Nat → σ → Except Fault σ)

/-- The loop with current node `pos` and saved next node `q`, for at most `fuel` rounds. -/
def safeLoop : Nat → Option Nat → Option Nat → σ → Except Fault σ
  | _, none, _, s => .ok s
  | 0, some _, _, _ => .error .outOfFuel
  | fuel + 1, some p, q, s => do
    let s ← body p s
    safeLoop fuel q (q.bind (nextOf (nodes s))) s

/-- `list_for_each_entry_safe` over the list `nodes`. -/
def forEachSafe (fuel : Nat) (s : σ) : Except Fault σ :=
  safeLoop nodes body fuel (nodes s).head? ((nodes s).head?.bind (nextOf (nodes s))) s

end Traversal

theorem nextOf_append {pre rest : List Nat} {x : Nat} (h : x ∉ pre) :
    nextOf (pre ++ x :: rest) x = rest.head? := by
  have hd : (pre ++ x :: rest).dropWhile (· ≠ x) = x :: rest := by
    induction pre with
    | nil => simp
    | cons a pre ih =>
      have ha : a ≠ x := fun e => h (by simp [e])
      have hpre : x ∉ pre := fun hx => h (List.mem_cons_of_mem a hx)
      simpa [List.dropWhile_cons, ha] using ih hpre
  rw [nextOf, hd, List.tail_cons]

/-! ## The traversal by the nodes ahead of it -/

section Ahead

variable {σ : Type} {nodes : σ → List Nat} {body : Nat → σ → Except Fault σ}

variable (nodes body) in
/-- The loop with the nodes `ahead`, the current one first, still to come. -/
def safeLoopFrom (fuel : Nat) (ahead : List Nat) (s : σ) : Except Fault σ :=
  safeLoop nodes body fuel ahead.head? ahead.tail.head? s

@[simp] theorem safeLoopFrom_nil (fuel : Nat) (s : σ) : safeLoopFrom nodes body fuel [] s = .ok s := by
  cases fuel <;> rfl

@[simp] theorem safeLoopFrom_zero (p : Nat) (t : List Nat) (s : σ) :
    safeLoopFrom nodes body 0 (p :: t) s = .error .outOfFuel := rfl

theorem safeLoopFrom_error {fuel p : Nat} {t : List Nat} {s : σ} {e : Fault} (hb : body p s = .error e) :
    safeLoopFrom nodes body (fuel + 1) (p :: t) s = .error e := by
  simp [safeLoopFrom, safeLoop, hb]

/-- One round: the nodes `t` behind the current one are still ahead, and so are the nodes `new` that the
body has linked in at the tail, unless there was no next node when the round began. -/
theorem safeLoopFrom_ok {fuel p : Nat} {pre t new : List Nat} {s s' : σ} (hb : body p s = .ok s')
    (hn : nodes s' = pre ++ (t ++ new)) (hnd : (nodes s').Nodup) :
    safeLoopFrom nodes body (fuel + 1) (p :: t) s =
      safeLoopFrom nodes body fuel (if t = [] then [] else t ++ new) s' := by
  cases t with
  | nil => simp [safeLoopFrom, safeLoop, hb]
  | cons a t =>
    have ha : a ∉ pre := by
      rw [hn, List.nodup_append] at hnd
      exact fun h => hnd.2.2 a h a (by simp) rfl
    simp [safeLoopFrom, safeLoop, hb, hn, nextOf_append ha]

theorem forEachSafe_eq {fuel : Nat} {s : σ} :
    forEachSafe nodes body fuel s = safeLoopFrom nodes body fuel (nodes s) s := by
  unfold forEachSafe safeLoopFrom
  cases h : nodes s with
  | nil => rfl
  | cons p t =>
    have hp : nextOf ([] ++ p :: t) p = t.head? := nextOf_append (by simp)
    rw [List.nil_append] at hp
    simp [hp]

/-- What the body keeps holds when the loop ends. -/
theorem safeLoop_invariant {I : σ → Prop} (hI : ∀ p s s', I s → body p s = .ok s' → I s') {fuel : Nat}
    {pos q : Option Nat} {s s' : σ} (hs : I s) (h : safeLoop nodes body fuel pos q s = .ok s') : I s' := by
  induction fuel generalizing pos q s with
  | zero =>
    cases pos with
    | none => exact Except.ok.inj h ▸ hs
    | some p => cases h
  | succ fuel ih =>
    cases pos with
    | none => exact Except.ok.inj h ▸ hs
    | some p =>
      rw [safeLoop, bind_ok] at h
      obtain ⟨s₁, h₁, h⟩ := h
      exact ih (hI p s s₁ hs h₁) h

/-- What a round does to the list: the node `q` may be unlinked, the nodes behind it stay, and others may be
linked in at the tail. -/
def Advances (q : Nat) (l l' : List Nat) : Prop :=
  l'.Nodup ∧ ∀ pre t, l = pre ++ q :: t → ∃ pre' new, l' = pre' ++ (t ++ new)

/-- A node that is still ahead is visited. `B` holds until it is, `A` from then on. -/
theorem safeLoopFrom_visits {I B A : σ → Prop} {p : Nat}
    (hI : ∀ q s s', I s → body q s = .ok s' → I s' ∧ Advances q (nodes s) (nodes s'))
    (hbefore : ∀ q s s', I s → body q s = .ok s' → q ≠ p → B s → B s')
    (hvisit : ∀ s s', I s → body p s = .ok s' → B s → A s')
    (hafter : ∀ q s s', I s → body q s = .ok s' → A s → A s') {fuel : Nat} {ahead : List Nat}
    {s s' : σ} (hs : I s) (hn : ∃ pre, nodes s = pre ++ ahead) (hp : p ∈ ahead) (hb : B s)
    (h : safeLoopFrom nodes body fuel ahead s = .ok s') : A s' := by
  induction fuel generalizing ahead s with
  | zero =>
    cases ahead with
    | nil => cases hp
    | cons q t => cases h
  | succ fuel ih =>
    cases ahead with
    | nil => cases hp
    | cons q t =>
      cases hq : body q s with
      | error e => rw [safeLoopFrom_error hq] at h; cases h
      | ok s₁ =>
        obtain ⟨hs₁, hnd, hadv⟩ := hI q s s₁ hs hq
        obtain ⟨pre, hn⟩ := hn
        obtain ⟨pre', new, hn'⟩ := hadv pre t hn
        rw [safeLoopFrom_ok hq hn' hnd] at h
        by_cases he : q = p
        · subst he
          have hI' : ∀ q s s', I s ∧ A s → body q s = .ok s' → I s' ∧ A s' :=
            fun q s s' hs h => ⟨(hI q s s' hs.1 h).1, hafter q s s' hs.1 h hs.2⟩
          exact (safeLoop_invariant hI' ⟨hs₁, hvisit s s₁ hs hq hb⟩ h).2
        · have hpt : p ∈ t := (List.mem_cons.mp hp).resolve_left (Ne.symm he)
          rw [if_neg (List.ne_nil_of_mem hpt)] at h
          exact ih hs₁ ⟨pre', hn'⟩ (List.mem_append_left new hpt) (hbefore q s s₁ hs hq he hb) h

/-- Every node that is on the list when the traversal begins is visited. -/
theorem forEachSafe_visits {I B A : σ → Prop} {p : Nat}
    (hI : ∀ q s s', I s → body q s = .ok s' → I s' ∧ Advances q (nodes s) (nodes s'))
    (hbefore : ∀ q s s', I s → body q s = .ok s' → q ≠ p → B s → B s')
    (hvisit : ∀ s s', I s → body p s = .ok s' → B s → A s')
    (hafter : ∀ q s s', I s → body q s = .ok s' → A s → A s') {fuel : Nat} {s s' : σ} (hs : I s)
    (hp : p ∈ nodes s) (hb : B s) (h : forEachSafe nodes body fuel s = .ok s') : A s' := by
  rw [forEachSafe_eq] at h
  exact safeLoopFrom_visits hI hbefore hvisit hafter hs ⟨[], rfl⟩ hp hb h

/-- The loop faults for want of rounds, or as its body does. -/
theorem forEachSafe_error {E : Fault → Prop} (hfuel : E .outOfFuel)
    (hE : ∀ p s e, body p s = .error e → E e) {fuel : Nat} {s : σ} {e : Fault}
    (h : forEachSafe nodes body fuel s = .error e) : E e := by
  have hloop : ∀ fuel pos q s, safeLoop nodes body fuel pos q s = .error e → E e := by
    intro fuel
    induction fuel with
    | zero =>
      intro pos q s h
      cases pos with
      | none => cases h
      | some p => exact Except.error.inj h ▸ hfuel
    | succ fuel ih =>
      intro pos q s h
      cases pos with
      | none => cases h
      | some p =>
        rw [safeLoop] at h
        rcases bind_error h with h | ⟨s₁, -, h⟩
        · exact hE p s e h
        · exact ih _ _ _ h
  exact hloop _ _ _ _ h

end Ahead

end CMem
