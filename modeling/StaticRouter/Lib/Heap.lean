import Mathlib.Data.List.Nodup
import StaticRouter.Lib.Buffer

/-!
# A heap of blocks

`malloc` hands out blocks, each under an address of its own, and `free` takes them back. An access to a
block that is not live, because it was freed or never handed out, has no meaning in C, and neither has a
second `free` of it: the pointer leads nowhere.
-/

namespace CMem

variable {β : Type}

/-- The live blocks with what they hold, and the address that comes next. -/
structure Heap (β : Type) where
  blocks : List (Nat × β)
  next : Nat
  nodup : (blocks.map (·.1)).Nodup
  fresh : ∀ x ∈ blocks, x.1 < next

namespace Heap

/-- No block has been handed out. -/
def empty : Heap β := ⟨[], 0, by simp, by simp⟩

/-- What the block holds, if it is live. -/
def get (h : Heap β) (a : Nat) : Option β := (h.blocks.find? (·.1 = a)).map (·.2)

/-- `malloc`: the address of a block with the contents `b`, and the heap with it. -/
def malloc (b : β) (h : Heap β) : Nat × Heap β :=
  (h.next, {
    blocks := (h.next, b) :: h.blocks
    next := h.next + 1
    nodup := by
      refine List.nodup_cons.mpr ⟨fun hm => ?_, h.nodup⟩
      obtain ⟨x, hx, he⟩ := List.mem_map.mp hm
      exact absurd he (Nat.ne_of_lt (h.fresh x hx))
    fresh := by
      intro x hx
      rcases List.mem_cons.mp hx with rfl | hx
      · exact Nat.lt_succ_self _
      · exact Nat.lt_succ_of_lt (h.fresh x hx) })

/-- An access to a live block. -/
def load (a : Nat) (h : Heap β) : Except Fault β :=
  match h.get a with
  | some b => .ok b
  | none => .error .outOfBounds

/-- The live block gets the contents `b`. -/
def store (a : Nat) (b : β) (h : Heap β) : Except Fault (Heap β) :=
  match h.get a with
  | none => .error .outOfBounds
  | some _ => .ok {
      blocks := h.blocks.map fun x => if x.1 = a then (a, b) else x
      next := h.next
      nodup := by
        have hkeys : (h.blocks.map fun x => if x.1 = a then (a, b) else x).map (·.1) =
            h.blocks.map (·.1) := by
          rw [List.map_map]
          refine List.map_congr_left fun x _ => ?_
          by_cases hx : x.1 = a
          · simp [hx]
          · simp [hx]
        rw [hkeys]
        exact h.nodup
      fresh := by
        intro x hx
        obtain ⟨y, hy, rfl⟩ := List.mem_map.mp hx
        have hlt := h.fresh y hy
        split_ifs with he
        · exact he ▸ hlt
        · exact hlt }

/-- `free` -/
def free (a : Nat) (h : Heap β) : Except Fault (Heap β) :=
  match h.get a with
  | none => .error .outOfBounds
  | some _ => .ok {
      blocks := h.blocks.filter (·.1 ≠ a)
      next := h.next
      nodup := h.nodup.sublist (List.filter_sublist.map _)
      fresh := fun x hx => h.fresh x (List.mem_of_mem_filter hx) }

/-- The blocks are freed one after the other. -/
def freeAll (as : List Nat) (h : Heap β) : Except Fault (Heap β) := as.foldlM (fun h a => h.free a) h

theorem freeAll_append (as bs : List Nat) (h : Heap β) :
    h.freeAll (as ++ bs) = h.freeAll as >>= fun h => h.freeAll bs := by
  unfold freeAll
  rw [List.foldlM_append]

/-- The number of live blocks whose contents satisfy `p`. -/
def count (p : β → Bool) (h : Heap β) : Nat := h.blocks.countP fun x => p x.2

/-! ## What the blocks hold -/

variable {h h' : Heap β} {a x : Nat} {b c : β}

theorem get_eq_some : h.get a = some b ↔ (a, b) ∈ h.blocks := by
  unfold get
  rw [Option.map_eq_some_iff]
  constructor
  · rintro ⟨⟨a', b'⟩, hf, rfl⟩
    have ha : a' = a := by simpa using List.find?_some hf
    exact ha ▸ List.mem_of_find?_eq_some hf
  · intro hm
    cases hf : h.blocks.find? (·.1 = a) with
    | none =>
      rw [List.find?_eq_none] at hf
      exact absurd (by simp) (hf _ hm)
    | some y =>
      have hy : y.1 = a := by simpa using List.find?_some hf
      have heq := List.inj_on_of_nodup_map h.nodup (List.mem_of_find?_eq_some hf) hm hy
      exact ⟨y, rfl, by rw [heq]⟩

theorem lt_next (hg : h.get a = some b) : a < h.next := h.fresh _ (get_eq_some.mp hg)

/-- The next address is not that of a live block. -/
theorem get_next (h : Heap β) : h.get h.next = none := by
  by_contra hne
  obtain ⟨b, hb⟩ := Option.ne_none_iff_exists'.mp hne
  exact absurd (lt_next hb) (Nat.lt_irrefl _)

@[simp] theorem malloc_fst (b : β) (h : Heap β) : (h.malloc b).1 = h.next := rfl

@[simp] theorem malloc_next (b : β) (h : Heap β) : (h.malloc b).2.next = h.next + 1 := rfl

theorem get_malloc (b : β) (h : Heap β) (x : Nat) :
    (h.malloc b).2.get x = if x = h.next then some b else h.get x := by
  unfold get malloc
  by_cases hx : x = h.next
  · simp [hx]
  · have hx' : ¬ h.next = x := fun he => hx he.symm
    simp [hx, hx']

/-- The blocks of before stay as they are. -/
theorem get_malloc_of_get (hg : h.get x = some c) : (h.malloc b).2.get x = some c := by
  rw [get_malloc, if_neg (Nat.ne_of_lt (lt_next hg)), hg]

theorem load_ok : h.load a = .ok b ↔ h.get a = some b := by
  unfold load
  cases h.get a <;> simp

theorem store_ok (hs : h.store a b = .ok h') (x : Nat) :
    h'.get x = if x = a then some b else h.get x := by
  unfold store at hs
  split at hs
  · cases hs
  next c hc =>
    rw [← Except.ok.inj hs]
    refine Option.ext fun d => ?_
    rw [get_eq_some, List.mem_map]
    by_cases hx : x = a
    · subst hx
      rw [if_pos rfl, Option.some_inj]
      constructor
      · rintro ⟨y, hy, he⟩
        split_ifs at he with hya
        · exact (Prod.mk.inj he).2
        · exact absurd (congrArg Prod.fst he) hya
      · rintro rfl
        exact ⟨(x, c), get_eq_some.mp hc, by simp⟩
    · rw [if_neg hx, get_eq_some]
      constructor
      · rintro ⟨y, hy, he⟩
        split_ifs at he with hya
        · exact absurd (Prod.mk.inj he).1.symm hx
        · exact he ▸ hy
      · exact fun hm => ⟨(x, d), hm, by simp [hx]⟩

theorem exists_store (hg : h.get a = some b) (c : β) : ∃ h', h.store a c = .ok h' := by
  unfold store
  rw [hg]
  exact ⟨_, rfl⟩

theorem next_of_store (hs : h.store a b = .ok h') : h'.next = h.next := by
  unfold store at hs
  split at hs
  · cases hs
  · rw [← Except.ok.inj hs]

theorem next_of_free (hf : h.free a = .ok h') : h'.next = h.next := by
  unfold free at hf
  split at hf
  · cases hf
  · rw [← Except.ok.inj hf]

theorem free_ok (hf : h.free a = .ok h') (x : Nat) : h'.get x = if x = a then none else h.get x := by
  unfold free at hf
  split at hf
  · cases hf
  · rw [← Except.ok.inj hf]
    refine Option.ext fun d => ?_
    rw [get_eq_some, List.mem_filter]
    by_cases hx : x = a
    · simp [hx]
    · simp [hx, get_eq_some]

theorem exists_free (hg : h.get a = some b) : ∃ h', h.free a = .ok h' := by
  unfold free
  rw [hg]
  exact ⟨_, rfl⟩

/-- A block that has been freed is not live. -/
theorem free_notLive (hg : h.get a = none) : h.free a = .error .outOfBounds := by
  unfold free
  rw [hg]

/-- Live blocks, each of which is named once, can be freed. -/
theorem exists_freeAll {as : List Nat} (hnd : as.Nodup) (hl : ∀ a ∈ as, ∃ b, h.get a = some b) :
    ∃ h', h.freeAll as = .ok h' ∧ ∀ x, h'.get x = if x ∈ as then none else h.get x := by
  induction as generalizing h with
  | nil => exact ⟨h, rfl, fun x => by simp⟩
  | cons a as ih =>
    obtain ⟨ha, hnd⟩ := List.nodup_cons.mp hnd
    obtain ⟨b, hb⟩ := hl a List.mem_cons_self
    obtain ⟨h₁, hf⟩ := exists_free hb
    have hl₁ : ∀ c ∈ as, ∃ b, h₁.get c = some b := by
      intro c hc
      have hne : c ≠ a := fun he => ha (he ▸ hc)
      rw [free_ok hf, if_neg hne]
      exact hl c (List.mem_cons_of_mem a hc)
    obtain ⟨h', hf', hget⟩ := ih hnd hl₁
    refine ⟨h', ?_, fun x => ?_⟩
    · rw [freeAll, List.foldlM_cons, hf, ok_bind]
      exact hf'
    · rw [hget, free_ok hf]
      by_cases hx : x = a
      · simp [hx]
      · simp [hx]

/-! ## How many there are -/

variable (p : β → Bool)

theorem count_malloc (b : β) (h : Heap β) :
    (h.malloc b).2.count p = h.count p + if p b then 1 else 0 := List.countP_cons

/-- Counting splits at the block with the address `a`. -/
theorem count_split (hg : h.get a = some b) :
    h.count p = (h.blocks.filter (·.1 ≠ a)).countP (fun x => p x.2) + if p b then 1 else 0 := by
  have hm := get_eq_some.mp hg
  have hnd := h.nodup
  unfold count
  generalize h.blocks = l at hm hnd
  induction l with
  | nil => cases hm
  | cons y l ih =>
    obtain ⟨hy, hnd⟩ := List.nodup_cons.mp hnd
    rcases List.mem_cons.mp hm with rfl | hm
    · have hrest : l.filter (·.1 ≠ a) = l :=
        List.filter_eq_self.mpr fun z hz => by
          simpa using fun he : z.1 = a => hy (List.mem_map.mpr ⟨z, hz, he⟩)
      rw [List.countP_cons, List.filter_cons_of_neg (by simp), hrest]
    · have hne : y.1 ≠ a := fun he => hy (List.mem_map.mpr ⟨(a, b), hm, he.symm⟩)
      rw [List.countP_cons, List.filter_cons_of_pos (by simpa using hne), List.countP_cons, ih hm hnd]
      omega

theorem count_free (hf : h.free a = .ok h') (hg : h.get a = some b) :
    h'.count p + (if p b then 1 else 0) = h.count p := by
  rw [count_split p hg]
  unfold free at hf
  rw [hg] at hf
  rw [← Except.ok.inj hf]
  rfl

theorem count_freeAll {as : List Nat} (hf : h.freeAll as = .ok h') (hnd : as.Nodup)
    (hl : ∀ a ∈ as, ∃ b, h.get a = some b) :
    h'.count p + (as.countP fun a => (h.get a).any p) = h.count p := by
  induction as generalizing h with
  | nil =>
    obtain rfl : h = h' := Except.ok.inj hf
    simp
  | cons a as ih =>
    obtain ⟨ha, hnd⟩ := List.nodup_cons.mp hnd
    obtain ⟨b, hb⟩ := hl a List.mem_cons_self
    rw [freeAll, List.foldlM_cons, bind_ok] at hf
    obtain ⟨h₁, h₁f, hf⟩ := hf
    have hget : ∀ c ∈ as, h₁.get c = h.get c := by
      intro c hc
      have hne : c ≠ a := fun he => ha (he ▸ hc)
      rw [free_ok h₁f, if_neg hne]
    have hrest := ih hf hnd fun c hc => by
      rw [hget c hc]
      exact hl c (List.mem_cons_of_mem a hc)
    have hsame : (as.countP fun a => (h₁.get a).any p) = as.countP fun a => (h.get a).any p :=
      List.countP_congr fun c hc => by rw [hget c hc]
    have hone := count_free p h₁f hb
    rw [hsame] at hrest
    rw [List.countP_cons, hb, Option.any_some]
    omega

theorem count_store (hs : h.store a c = .ok h') (hg : h.get a = some b) (hp : p c = p b) :
    h'.count p = h.count p := by
  have hg' : h'.get a = some c := by rw [store_ok hs, if_pos rfl]
  rw [count_split p hg', count_split p hg, hp]
  unfold store at hs
  rw [hg] at hs
  rw [← Except.ok.inj hs]
  congr 2
  rw [List.filter_map]
  have hkeep : ∀ x : Nat × β, ((x.1 ≠ a : Bool) = true) →
      (if x.1 = a then (a, c) else x) = x := by
    intro x hx
    rw [if_neg (by simpa using hx)]
  have hpred : ((fun x : Nat × β => decide (x.1 ≠ a)) ∘ fun x => if x.1 = a then (a, c) else x) =
      fun x => decide (x.1 ≠ a) := by
    funext x
    by_cases hx : x.1 = a
    · simp [hx]
    · simp [hx]
  rw [hpred]
  exact (List.map_congr_left fun x hx => hkeep x (List.mem_filter.mp hx).2).trans (List.map_id' _)

end Heap

end CMem
