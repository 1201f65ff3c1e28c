import Mathlib.Data.List.Chain
import Mathlib.Data.List.Nodup
import Mathlib.Logic.Function.Basic

/-!
# Rings of doubly linked nodes

A list that is kept by two pointers in each node is a ring through a node of its own, the head. Linking a
node in and taking one out change two neighbours.
-/

namespace Rings

variable {α : Type*}

/-- The pointers in the nodes. -/
structure Links (α : Type*) where
  next : α → α
  prev : α → α

/-- The same nodes read in the other direction. -/
def Links.swap (h : Links α) : Links α := ⟨h.prev, h.next⟩

@[simp] theorem Links.swap_next (h : Links α) : h.swap.next = h.prev := rfl
@[simp] theorem Links.swap_prev (h : Links α) : h.swap.prev = h.next := rfl

/-! ## Ways through the nodes -/

/-- The pointers `f` lead through the nodes of `l`, from one to the next. -/
def Follows (f : α → α) (l : List α) : Prop := l.IsChain fun x y => f x = y

theorem follows_split {f : α → α} {A B : List α} {x : α} :
    Follows f (A ++ x :: B) ↔ Follows f (A ++ [x]) ∧ Follows f (x :: B) := List.isChain_split

/-- The pointer of the last node does not matter. -/
theorem Follows.congr {f g : α → α} {l : List α} (h : Follows f l) (hfg : ∀ x ∈ l.dropLast, g x = f x) :
    Follows g l := by
  induction l with
  | nil => exact List.isChain_nil
  | cons x l ih =>
    cases l with
    | nil => exact List.isChain_singleton x
    | cons y l =>
      obtain ⟨hxy, hl⟩ := List.isChain_cons_cons.mp h
      have hx : g x = f x := hfg x (by simp)
      refine List.isChain_cons_cons.mpr ⟨hx.trans hxy, ih hl fun z hz => hfg z ?_⟩
      rw [List.dropLast_cons_of_ne_nil (List.cons_ne_nil y l)]
      exact List.mem_cons_of_mem x hz

/-- A pointer leads to the neighbour. -/
theorem Follows.next_eq {f : α → α} {A B : List α} {x y : α} (h : Follows f (A ++ x :: y :: B)) : f x = y :=
  (List.isChain_cons_cons.mp (follows_split.mp h).2).1

section Edit

variable [DecidableEq α] {f : α → α} {A B : List α} {p n : α}

/-- A node is linked in between `p` and `n`. -/
theorem Follows.link (h : Follows f (A ++ p :: n :: B)) {new : α} (hne : new ≠ p)
    (hA : ∀ x ∈ A, x ≠ p ∧ x ≠ new) (hB : ∀ x ∈ (n :: B).dropLast, x ≠ p ∧ x ≠ new) :
    Follows (Function.update (Function.update f p new) new n) (A ++ p :: new :: n :: B) := by
  obtain ⟨hleft, hright⟩ := follows_split.mp h
  have hsame : ∀ x, x ≠ p ∧ x ≠ new → Function.update (Function.update f p new) new n x = f x := by
    rintro x ⟨hxp, hxn⟩
    rw [Function.update_of_ne hxn, Function.update_of_ne hxp]
  refine follows_split.mpr ⟨hleft.congr fun x hx => ?_, ?_⟩
  · rw [List.dropLast_concat] at hx
    exact hsame x (hA x hx)
  · refine List.isChain_cons_cons.mpr ⟨?_, List.isChain_cons_cons.mpr ⟨?_, ?_⟩⟩
    · rw [Function.update_of_ne (Ne.symm hne), Function.update_self]
    · rw [Function.update_self]
    · exact Follows.congr (List.isChain_cons_cons.mp hright).2 fun x hx => hsame x (hB x hx)

/-- The node between `p` and `n` is taken out. -/
theorem Follows.unlink {e : α} (h : Follows f (A ++ p :: e :: n :: B)) (hA : ∀ x ∈ A, x ≠ p)
    (hB : ∀ x ∈ (n :: B).dropLast, x ≠ p) : Follows (Function.update f p n) (A ++ p :: n :: B) := by
  obtain ⟨hleft, hright⟩ := follows_split.mp h
  have hsame : ∀ x, x ≠ p → Function.update f p n x = f x := fun x hx => Function.update_of_ne hx n f
  refine follows_split.mpr ⟨hleft.congr fun x hx => ?_, ?_⟩
  · rw [List.dropLast_concat] at hx
    exact hsame x (hA x hx)
  · refine List.isChain_cons_cons.mpr ⟨Function.update_self p n f, ?_⟩
    have hrest := (List.isChain_cons_cons.mp (List.isChain_cons_cons.mp hright).2).2
    exact Follows.congr hrest fun x hx => hsame x (hB x hx)

end Edit

/-! ## Rings -/

/-- The nodes `xs` are linked in a ring through the head `b`. -/
structure Ring (h : Links α) (b : α) (xs : List α) : Prop where
  forward : Follows h.next (b :: (xs ++ [b]))
  backward : Follows h.prev (b :: (xs.reverse ++ [b]))
  nodup : (b :: xs).Nodup

variable {h h' : Links α} {b : α} {xs : List α}

theorem Ring.swap (hr : Ring h b xs) : Ring h.swap b xs.reverse where
  forward := hr.backward
  backward := by rw [List.reverse_reverse]; exact hr.forward
  nodup := by
    obtain ⟨hb, hnd⟩ := List.nodup_cons.mp hr.nodup
    exact List.nodup_cons.mpr ⟨fun hm => hb (List.mem_reverse.mp hm), by simpa using hnd⟩

theorem Ring.of_swap (hr : Ring h.swap b xs.reverse) : Ring h b xs := by
  have hs := hr.swap
  rw [List.reverse_reverse] at hs
  exact hs

/-- A ring depends on the pointers of its own nodes. -/
theorem Ring.congr (hr : Ring h b xs) (hs : ∀ x ∈ b :: xs, h'.next x = h.next x ∧ h'.prev x = h.prev x) :
    Ring h' b xs where
  forward := hr.forward.congr fun x hx => by
    rw [← List.cons_append, List.dropLast_concat] at hx
    exact (hs x hx).1
  backward := hr.backward.congr fun x hx => by
    rw [← List.cons_append, List.dropLast_concat] at hx
    exact (hs x (by simpa using hx)).2
  nodup := hr.nodup

/-- An empty ring. -/
theorem Ring.nil (hn : h.next b = b) (hp : h.prev b = b) : Ring h b [] where
  forward := List.isChain_cons_cons.mpr ⟨hn, List.isChain_singleton b⟩
  backward := List.isChain_cons_cons.mpr ⟨hp, List.isChain_singleton b⟩
  nodup := by simp

/-- In a ring `prev` undoes `next`. -/
theorem Ring.prev_next (hr : Ring h b xs) {x : α} (hx : x ∈ b :: xs) : h.prev (h.next x) = x := by
  obtain ⟨A, B, hl⟩ := List.append_of_mem hx
  obtain ⟨y, C, hC⟩ : ∃ y C, B ++ [b] = y :: C := List.exists_cons_of_ne_nil (by simp)
  have hring : b :: (xs ++ [b]) = A ++ x :: y :: C := by
    rw [← List.cons_append, hl, List.append_assoc, List.cons_append, hC]
  have hnext : h.next x = y := by
    have hf := hr.forward
    rw [hring] at hf
    exact hf.next_eq
  have hback : b :: (xs.reverse ++ [b]) = C.reverse ++ y :: x :: A.reverse := by
    have hrev := congrArg List.reverse hring
    simpa using hrev
  have hb := hr.backward
  rw [hback] at hb
  rw [hnext, hb.next_eq]

/-- And `next` undoes `prev`. -/
theorem Ring.next_prev (hr : Ring h b xs) {x : α} (hx : x ∈ b :: xs) : h.next (h.prev x) = x :=
  hr.swap.prev_next (by simpa using hx)

/-- The pointer of the head. -/
theorem Ring.next_head (hr : Ring h b xs) : h.next b = (xs ++ [b]).head (by simp) := by
  have hf := hr.forward
  cases xs with
  | nil => exact (List.isChain_cons_cons.mp hf).1
  | cons x xs => exact (List.isChain_cons_cons.mp hf).1

/-- The pointers stay in the ring. -/
theorem Ring.next_mem (hr : Ring h b xs) {x : α} (hx : x ∈ b :: xs) : h.next x ∈ b :: xs := by
  obtain ⟨A, B, hl⟩ := List.append_of_mem hx
  obtain ⟨y, C, hC⟩ : ∃ y C, B ++ [b] = y :: C := List.exists_cons_of_ne_nil (by simp)
  have hring : b :: (xs ++ [b]) = A ++ x :: y :: C := by
    rw [← List.cons_append, hl, List.append_assoc, List.cons_append, hC]
  have hf := hr.forward
  rw [hring] at hf
  have hy : y ∈ b :: (xs ++ [b]) := by
    rw [hring]
    simp
  rw [hf.next_eq]
  rcases List.mem_cons.mp hy with he | hm
  · exact he ▸ List.mem_cons_self
  · simpa [or_comm] using hm

theorem Ring.prev_mem (hr : Ring h b xs) {x : α} (hx : x ∈ b :: xs) : h.prev x ∈ b :: xs := by
  have hm := hr.swap.next_mem (x := x) (by simpa using hx)
  simpa using hm

/-- The pointers around a node `e` of the ring. -/
theorem Ring.around {X Y : List α} {e : α} (hr : Ring h b (X ++ e :: Y)) :
    ∃ A B p n, b :: X = A ++ [p] ∧ Y ++ [b] = n :: B ∧ h.next e = n ∧ h.prev e = p := by
  obtain ⟨n, B, hB⟩ : ∃ n B, Y ++ [b] = n :: B := List.exists_cons_of_ne_nil (by simp)
  have hA : b :: X = (b :: X).dropLast ++ [(b :: X).getLast (by simp)] :=
    (List.dropLast_append_getLast (by simp)).symm
  refine ⟨_, B, _, n, hA, hB, ?_, ?_⟩
  · have hf := hr.forward
    have hl : b :: ((X ++ e :: Y) ++ [b]) = (b :: X) ++ e :: n :: B := by
      rw [List.append_assoc, List.cons_append, hB, ← List.cons_append]
    rw [hl] at hf
    exact hf.next_eq
  · have hf := hr.backward
    have hl : b :: ((X ++ e :: Y).reverse ++ [b]) = (b :: Y.reverse) ++ e :: (b :: X).reverse := by simp
    rw [hl, hA, List.reverse_append] at hf
    exact hf.next_eq

/-- The pointer of a node leads to the node behind it, or back to the head. -/
theorem Ring.next_of {X Y : List α} {x : α} (hr : Ring h b (X ++ x :: Y)) :
    h.next x = (Y ++ [b]).head (by simp) := by
  obtain ⟨-, B, -, n, -, hB, hn, -⟩ := hr.around
  rw [hn]
  simp only [hB, List.head_cons]

/-- A node of the ring does not point at itself. -/
theorem Ring.next_ne (hr : Ring h b xs) {e : α} (he : e ∈ xs) : h.next e ≠ e := by
  obtain ⟨X, Y, rfl⟩ := List.append_of_mem he
  obtain ⟨A, B, p, n, -, hB, hn, -⟩ := hr.around
  have hnm : n ∈ Y ++ [b] := by
    rw [hB]
    simp
  obtain ⟨hb, hnd⟩ := List.nodup_cons.mp hr.nodup
  rw [hn]
  rintro rfl
  rcases List.mem_append.mp hnm with hY | hb'
  · exact (List.nodup_cons.mp (List.nodup_append.mp hnd).2.1).1 hY
  · exact hb (List.mem_singleton.mp hb' ▸ he)

section Edit

variable [DecidableEq α]

/-- A node is linked in behind the head. -/
theorem Ring.linkHead (hr : Ring h b xs) {new : α} (hnew : new ∉ b :: xs) :
    Ring ⟨Function.update (Function.update h.next b new) new (h.next b),
      Function.update (Function.update h.prev (h.next b) new) new b⟩ b (new :: xs) := by
  obtain ⟨hb, hnd⟩ := List.nodup_cons.mp hr.nodup
  have hnb : new ≠ b := fun he => hnew (he ▸ List.mem_cons_self)
  have hnx : new ∉ xs := fun hm => hnew (List.mem_cons_of_mem b hm)
  obtain ⟨y, C, hC⟩ : ∃ y C, xs ++ [b] = y :: C := List.exists_cons_of_ne_nil (by simp)
  have hy : h.next b = y := by
    have hf := hr.forward
    rw [hC] at hf
    exact (List.isChain_cons_cons.mp hf).1
  have hyC : (y :: C).Nodup := by
    rw [← hC]
    exact List.Nodup.append hnd (by simp) (by simpa using hb)
  have hnC : new ∉ y :: C := by
    rw [← hC]
    simp [hnb, hnx]
  have hrev : b :: xs.reverse = C.reverse ++ [y] := by
    have hrev := congrArg List.reverse hC
    simpa using hrev
  refine ⟨?_, ?_, List.nodup_cons.mpr ⟨fun hm => ?_, List.nodup_cons.mpr ⟨hnx, hnd⟩⟩⟩
  · have hf : Follows h.next ([] ++ b :: y :: C) := by
      rw [← hC]
      exact hr.forward
    rw [hy, List.cons_append, hC]
    refine hf.link hnb (by simp) fun x hx => ?_
    rw [← hC, List.dropLast_concat] at hx
    exact ⟨fun he => hb (he ▸ hx), fun he => hnx (he ▸ hx)⟩
  · have hf : Follows h.prev (C.reverse ++ y :: b :: []) := by
      have hb' := hr.backward
      rw [← List.cons_append, hrev, List.append_assoc] at hb'
      exact hb'
    have hgoal : b :: ((new :: xs).reverse ++ [b]) = C.reverse ++ y :: new :: b :: [] := by
      rw [List.reverse_cons, List.append_assoc, ← List.cons_append, hrev, List.append_assoc]
      rfl
    rw [hy, hgoal]
    refine hf.link (fun he => hnC (he ▸ List.mem_cons_self)) (fun x hx => ?_) (by simp)
    have hxC : x ∈ C := List.mem_reverse.mp hx
    exact ⟨fun he => (List.nodup_cons.mp hyC).1 (he ▸ hxC), fun he => hnC (List.mem_cons_of_mem y (he ▸ hxC))⟩
  · rcases List.mem_cons.mp hm with he | hm
    · exact hnb he.symm
    · exact hb hm

/-- A node is linked in before the head. -/
theorem Ring.linkTail (hr : Ring h b xs) {new : α} (hnew : new ∉ b :: xs) :
    Ring ⟨Function.update (Function.update h.next (h.prev b) new) new b,
      Function.update (Function.update h.prev b new) new (h.prev b)⟩ b (xs ++ [new]) := by
  have hnew' : new ∉ b :: xs.reverse := by simpa using hnew
  have hs := hr.swap.linkHead hnew'
  refine Ring.of_swap ?_
  rw [List.reverse_append]
  exact hs

/-- A node is taken out of one direction. -/
theorem Follows.out {f : α → α} {X Y A B : List α} {e p n : α} (hf : Follows f (b :: ((X ++ e :: Y) ++ [b])))
    (hnd : (b :: (X ++ e :: Y)).Nodup) (hA : b :: X = A ++ [p]) (hB : Y ++ [b] = n :: B) :
    Follows (Function.update f p n) (b :: ((X ++ Y) ++ [b])) := by
  have hl : b :: ((X ++ e :: Y) ++ [b]) = A ++ p :: e :: n :: B := by
    rw [List.append_assoc, List.cons_append, hB, ← List.cons_append, hA, List.append_assoc]
    rfl
  have hl' : b :: ((X ++ Y) ++ [b]) = A ++ p :: n :: B := by
    rw [List.append_assoc, hB, ← List.cons_append, hA, List.append_assoc]
    rfl
  have hdist : (A ++ p :: e :: Y).Nodup := by
    have heq : b :: (X ++ e :: Y) = A ++ p :: e :: Y := by
      rw [← List.cons_append, hA, List.append_assoc]
      rfl
    rw [← heq]
    exact hnd
  obtain ⟨-, hpY, hdis⟩ := List.nodup_append.mp hdist
  rw [hl']
  rw [hl] at hf
  refine hf.unlink (fun x hx => ?_) fun x hx => ?_
  · exact hdis x hx p List.mem_cons_self
  · rw [← hB, List.dropLast_concat] at hx
    exact fun he => (List.nodup_cons.mp hpY).1 (he ▸ List.mem_cons_of_mem e hx)

/-- A node is taken out of the ring. -/
theorem Ring.unlink {X Y : List α} {e : α} (hr : Ring h b (X ++ e :: Y)) :
    Ring ⟨Function.update h.next (h.prev e) (h.next e), Function.update h.prev (h.next e) (h.prev e)⟩ b
      (X ++ Y) := by
  obtain ⟨A, B, p, n, hA, hB, hn, hp⟩ := hr.around
  rw [hn, hp]
  refine ⟨hr.forward.out hr.nodup hA hB, ?_, ?_⟩
  · have hf := hr.backward
    have hrev : (X ++ e :: Y).reverse = Y.reverse ++ e :: X.reverse := by simp
    have hA' : b :: Y.reverse = B.reverse ++ [n] := by
      have hrev := congrArg List.reverse hB
      simpa using hrev
    have hB' : X.reverse ++ [b] = p :: A.reverse := by
      have hrev := congrArg List.reverse hA
      simpa using hrev
    have hnd := hr.swap.nodup
    rw [hrev] at hf hnd
    rw [List.reverse_append]
    exact hf.out hnd hA' hB'
  · refine hr.nodup.sublist (List.Sublist.cons_cons b ?_)
    exact List.Sublist.append_left (List.sublist_cons_self e Y) X

/-- The nodes `V` between two others are passed over in one direction. -/
theorem Follows.cut {f : α → α} {U V W A B : List α} {p n : α} (hf : Follows f (b :: ((U ++ V ++ W) ++ [b])))
    (hnd : (b :: (U ++ V ++ W)).Nodup) (hA : b :: U = A ++ [p]) (hB : W ++ [b] = n :: B) :
    Follows (Function.update f p n) (b :: ((U ++ W) ++ [b])) := by
  have hl : b :: ((U ++ V ++ W) ++ [b]) = A ++ p :: (V ++ n :: B) := by
    rw [List.append_assoc, List.append_assoc, hB, ← List.cons_append, hA, List.append_assoc]
    rfl
  have hl' : b :: ((U ++ W) ++ [b]) = A ++ p :: n :: B := by
    rw [List.append_assoc, hB, ← List.cons_append, hA, List.append_assoc]
    rfl
  have hdist : (A ++ p :: (V ++ W)).Nodup := by
    have heq : b :: (U ++ V ++ W) = A ++ p :: (V ++ W) := by
      rw [List.append_assoc, ← List.cons_append, hA, List.append_assoc]
      rfl
    rw [← heq]
    exact hnd
  obtain ⟨-, hpW, hdis⟩ := List.nodup_append.mp hdist
  rw [hl] at hf
  rw [hl']
  obtain ⟨hleft, hright⟩ := follows_split.mp hf
  rw [← List.cons_append] at hright
  have hrest : Follows f (n :: B) := (follows_split.mp hright).2
  have hsame : ∀ x, x ≠ p → Function.update f p n x = f x := fun x hx => Function.update_of_ne hx n f
  refine follows_split.mpr ⟨hleft.congr fun x hx => ?_,
    List.isChain_cons_cons.mpr ⟨Function.update_self p n f, hrest.congr fun x hx => ?_⟩⟩
  · rw [List.dropLast_concat] at hx
    exact hsame x fun he => hdis x hx p List.mem_cons_self he
  · rw [← hB, List.dropLast_concat] at hx
    refine hsame x fun he => (List.nodup_cons.mp hpW).1 ?_
    exact he ▸ List.mem_append_right V hx

/-- Two nodes of the ring are linked with each other, and what was between them is cut off. -/
theorem Ring.cut {U V W A B : List α} {p n : α} (hr : Ring h b (U ++ V ++ W)) (hA : b :: U = A ++ [p])
    (hB : W ++ [b] = n :: B) : Ring ⟨Function.update h.next p n, Function.update h.prev n p⟩ b (U ++ W) := by
  refine ⟨hr.forward.cut hr.nodup hA hB, ?_, ?_⟩
  · have hf := hr.backward
    have hnd := hr.swap.nodup
    have hrev : (U ++ V ++ W).reverse = W.reverse ++ V.reverse ++ U.reverse := by simp
    have hA' : b :: W.reverse = B.reverse ++ [n] := by simpa using congrArg List.reverse hB
    have hB' : U.reverse ++ [b] = p :: A.reverse := by simpa using congrArg List.reverse hA
    rw [hrev] at hf hnd
    rw [List.reverse_append]
    exact hf.cut hnd hA' hB'
  · refine hr.nodup.sublist (List.Sublist.cons_cons b ?_)
    exact (List.sublist_append_left U V).append_right W

end Edit

end Rings
