import StaticRouter.Proofs.LinkedListProofs
import StaticRouter.Replay
import StaticRouter.RouteHeap

/-!
# The routing table refines its entries

A write through a pointer to a live node is the write of the intrusive lists, and no other entry changes. With
that every operation of `rtable.c` keeps the entries on a ring through the head, each in a block of its own.
-/

namespace StaticRouter

open CMem Rings

namespace RtStore

variable {s s' : RtStore} {p q : NodePtr} {a : Nat}

/-! ## Accesses to live nodes -/

/-- The node can be accessed. -/
def Live : NodePtr → RtStore → Prop
  | none, _ => True
  | some a, s => (s.entryAt a).isSome

theorem live_some : Live (some a) s ↔ (s.entryAt a).isSome := Iff.rfl

/-- The same entries are live, and the heap has handed out nothing. -/
def SameEntries (s s' : RtStore) : Prop := (∀ a, s'.entryAt a = s.entryAt a) ∧ s'.heap.next = s.heap.next

theorem SameEntries.trans {s'' : RtStore} (h : SameEntries s s') (h' : SameEntries s' s'') :
    SameEntries s s'' := ⟨fun a => (h'.1 a).trans (h.1 a), h'.2.trans h.2⟩

theorem SameEntries.live (h : SameEntries s s') (hp : Live p s) : Live p s' := by
  cases p with
  | none => trivial
  | some a =>
    show (s'.entryAt a).isSome
    rw [h.1]
    exact hp

theorem Live.get (h : Live (some a) s) : ∃ n, s.heap.get a = some n := by
  obtain ⟨e, he⟩ := Option.isSome_iff_exists.mp h
  obtain ⟨n, hn, -⟩ := Option.map_eq_some_iff.mp he
  exact ⟨n, hn⟩

theorem getNext_live (h : Live p s) : getNext p s = .ok (s.links.next p) := by
  cases p with
  | none => rfl
  | some a =>
    obtain ⟨n, hn⟩ := h.get
    simp only [getNext, links, Heap.load_ok.mpr hn, ok_bind, hn, Option.map_some, Option.getD_some]
    rfl

theorem getPrev_live (h : Live p s) : getPrev p s = .ok (s.links.prev p) := by
  cases p with
  | none => rfl
  | some a =>
    obtain ⟨n, hn⟩ := h.get
    simp only [getPrev, links, Heap.load_ok.mpr hn, ok_bind, hn, Option.map_some, Option.getD_some]
    rfl

/-- The block of the node gets other pointers. -/
theorem store_live {n m : RtNode} (hn : s.heap.get a = some n) (hm : m.entry = n.entry) :
    ∃ heap, s.heap.store a m = .ok heap ∧ SameEntries s { s with heap := heap } ∧
      ∀ x, heap.get x = if x = a then some m else s.heap.get x := by
  obtain ⟨heap, hs⟩ := Heap.exists_store hn m
  refine ⟨heap, hs, ⟨fun x => ?_, Heap.next_of_store hs⟩, Heap.store_ok hs⟩
  unfold entryAt
  simp only [Heap.store_ok hs]
  split_ifs with hx
  · rw [hx, hn, Option.map_some, Option.map_some, hm]
  · rfl

/-- So do the pointers that it holds. -/
theorem links_store {m : RtNode} {heap : Heap RtNode}
    (hget : ∀ x, heap.get x = if x = a then some m else s.heap.get x) :
    links { s with heap := heap } =
      ⟨Function.update s.links.next (some a) m.next, Function.update s.links.prev (some a) m.prev⟩ := by
  unfold links
  congr 1
  all_goals
    funext x
    cases x with
    | none => simp [Function.update]
    | some x => by_cases hx : x = a <;> simp [hget, hx]

theorem setNext_live (h : Live p s) (q : NodePtr) : ∃ s', setNext p q s = .ok s' ∧
    s'.links = StaticRouter.setNext p q s.links ∧ SameEntries s s' := by
  cases p with
  | none =>
    refine ⟨_, rfl, ?_, fun _ => rfl, rfl⟩
    unfold links StaticRouter.setNext
    congr 1
    funext x
    cases x <;> simp [Function.update]
  | some a =>
    obtain ⟨n, hn⟩ := h.get
    obtain ⟨heap, hs, hsame, hget⟩ := store_live (m := { n with next := q }) hn rfl
    have hprev : s.links.prev (some a) = n.prev := by simp [links, hn]
    refine ⟨{ s with heap := heap }, ?_, ?_, hsame⟩
    · simp only [setNext, Heap.load_ok.mpr hn, ok_bind, hs]
      rfl
    · rw [links_store hget, ← hprev, Function.update_eq_self]
      rfl

theorem setPrev_live (h : Live p s) (q : NodePtr) : ∃ s', setPrev p q s = .ok s' ∧
    s'.links = StaticRouter.setPrev p q s.links ∧ SameEntries s s' := by
  cases p with
  | none =>
    refine ⟨_, rfl, ?_, fun _ => rfl, rfl⟩
    unfold links StaticRouter.setPrev
    congr 1
    funext x
    cases x <;> simp [Function.update]
  | some a =>
    obtain ⟨n, hn⟩ := h.get
    obtain ⟨heap, hs, hsame, hget⟩ := store_live (m := { n with prev := q }) hn rfl
    have hnext : s.links.next (some a) = n.next := by simp [links, hn]
    refine ⟨{ s with heap := heap }, ?_, ?_, hsame⟩
    · simp only [setPrev, Heap.load_ok.mpr hn, ok_bind, hs]
      rfl
    · rw [links_store hget, ← hnext, Function.update_eq_self]
      rfl

/-! ## The operations of `list.h` -/

theorem initListHead_live (h : Live p s) : ∃ s', initListHead p s = .ok s' ∧
    s'.links = StaticRouter.initListHead p s.links ∧ SameEntries s s' := by
  obtain ⟨s₁, h₁, hl₁, he₁⟩ := setPrev_live h p
  obtain ⟨s₂, h₂, hl₂, he₂⟩ := setNext_live (he₁.live h) p
  refine ⟨s₂, ?_, ?_, he₁.trans he₂⟩
  · rw [initListHead, h₁, ok_bind, h₂]
  · rw [hl₂, hl₁]
    rfl

theorem listInsert_live {new prev next : NodePtr} (hn : Live new s) (hp : Live prev s) (hq : Live next s) :
    ∃ s', listInsert new prev next s = .ok s' ∧ s'.links = StaticRouter.listInsert new prev next s.links ∧
      SameEntries s s' := by
  obtain ⟨s₁, h₁, hl₁, he₁⟩ := setPrev_live hq new
  obtain ⟨s₂, h₂, hl₂, he₂⟩ := setNext_live (he₁.live hp) new
  have he := he₁.trans he₂
  obtain ⟨s₃, h₃, hl₃, he₃⟩ := setNext_live (he.live hn) next
  have he := he.trans he₃
  obtain ⟨s₄, h₄, hl₄, he₄⟩ := setPrev_live (he.live hn) prev
  refine ⟨s₄, ?_, ?_, he.trans he₄⟩
  · rw [listInsert, h₁, ok_bind, h₂, ok_bind, h₃, ok_bind, h₄]
  · rw [hl₄, hl₃, hl₂, hl₁]
    rfl

theorem listAddTail_live {new head : NodePtr} (hn : Live new s) (hh : Live head s)
    (hp : Live (s.links.prev head) s) : ∃ s', listAddTail new head s = .ok s' ∧
      s'.links = StaticRouter.listAddTail new head s.links ∧ SameEntries s s' := by
  obtain ⟨s', h, hl, he⟩ := listInsert_live hn hp hh
  refine ⟨s', ?_, hl, he⟩
  rw [listAddTail, getPrev_live hh, ok_bind, h]

/-- What the second statement of `list_delete_entry` reads has not been changed by the first one. -/
theorem listDeleteEntry_live {entry : NodePtr} (he : Live entry s) (hn : Live (s.links.next entry) s)
    (hp : Live (s.links.prev entry) s) : ∃ s', listDeleteEntry entry s = .ok s' ∧
      s'.links = StaticRouter.listDeleteEntry entry s.links ∧ SameEntries s s' := by
  obtain ⟨s₁, h₁, hl₁, he₁⟩ := setPrev_live hn (s.links.prev entry)
  have hprev : s₁.links.prev entry = s.links.prev entry := by
    rw [hl₁]
    unfold StaticRouter.setPrev
    by_cases hne : entry = s.links.next entry
    · rw [← hne]
      exact Function.update_self _ _ _
    · exact Function.update_of_ne hne _ _
  have hp₁ : Live (s₁.links.prev entry) s₁ := by
    rw [hprev]
    exact he₁.live hp
  obtain ⟨s₂, h₂, hl₂, he₂⟩ := setNext_live hp₁ (s₁.links.next entry)
  refine ⟨s₂, ?_, ?_, he₁.trans he₂⟩
  · have hent := he₁.live he
    rw [listDeleteEntry, getNext_live he, ok_bind, getPrev_live he, ok_bind, h₁, ok_bind, getPrev_live hent,
      ok_bind, getNext_live hent, ok_bind, h₂]
  · rw [hl₂, hl₁]
    rfl

/-- `free` makes the block's node point at itself, as far as the pointers tell. -/
theorem freeEntry_live (h : Live (some a) s) : ∃ s', freeEntry a s = .ok s' ∧
    (∀ x, s'.entryAt x = if x = a then none else s.entryAt x) ∧ s'.heap.next = s.heap.next ∧
    ∀ x, x ≠ some a → SameAt s.links s'.links x := by
  obtain ⟨n, hn⟩ := h.get
  obtain ⟨heap, hf⟩ := Heap.exists_free hn
  have hget := Heap.free_ok hf
  refine ⟨{ s with heap := heap }, ?_, fun x => ?_, Heap.next_of_free hf, fun x hx => ?_⟩
  · rw [freeEntry, hf]
    rfl
  · unfold entryAt
    simp only [hget]
    split_ifs with hx
    · rfl
    · rfl
  · cases x with
    | none => exact ⟨rfl, rfl⟩
    | some x =>
      have hne : x ≠ a := fun he => hx (congrArg some he)
      unfold SameAt links
      simp [hget, hne]

theorem getNext_notLive (h : s.entryAt a = none) : getNext (some a) s = .error .outOfBounds := by
  have hn : s.heap.get a = none := Option.map_eq_none_iff.mp h
  have hl : s.heap.load a = .error .outOfBounds := by
    unfold Heap.load
    rw [hn]
  simp only [getNext, hl, error_bind]

/-! ## The blocks hold the table -/

/-- The head with the entries on the table, and every other entry that exists as a head of its own. -/
def lists (T : RtTable) : Lists NodePtr
  | none => some (T.linked.map fun x => some x.1)
  | some a => if a ∈ T.loose.map (·.1) then some [] else none

/-- The entries on the table hang on the head in their order, the others point at themselves, and no other
block is live. -/
structure Holds (s : RtStore) (T : RtTable) : Prop where
  rings : Represents s.links (lists T)
  entries : ∀ a e, s.entryAt a = some e ↔ (a, e) ∈ T.entries
  nodup : (T.entries.map (·.1)).Nodup
  made : s.heap.next = T.made

variable {T : RtTable} {e : RtEntry}

/-- Fewer lists, whose nodes are as they were. -/
theorem represents_of_fewer {α : Type} {h h' : Links α} {S S' : Lists α} (hS : Represents h S)
    (hsub : ∀ b xs, S' b = some xs → S b = some xs) (hsame : ∀ b xs, S' b = some xs → ∀ x ∈ b :: xs, SameAt h h' x) :
    Represents h' S' where
  ring b xs hb := (hS.ring b xs (hsub b xs hb)).congr (hsame b xs hb)
  apart b xs b' xs' hb hb' := hS.apart b xs b' xs' (hsub b xs hb) (hsub b' xs' hb')

/-- A list that the deleted node is not on. -/
theorem delete_of_not_mem {α : Type} [DecidableEq α] {S : Lists α} {b x : α} {xs : List α} (hb : S b = some xs)
    (hx : x ∉ xs) : ListOp.apply (.delete x) S b = some xs := by
  show (S b).map (·.erase x) = some xs
  rw [hb, Option.map_some, List.erase_of_not_mem hx]

theorem delete_of_nodup {α : Type} [DecidableEq α] {S : Lists α} {b x : α} {xs : List α} (hb : S b = some xs)
    (hnd : xs.Nodup) : ListOp.apply (.delete x) S b = some (xs.filter (· ≠ x)) := by
  show (S b).map (·.erase x) = some (xs.filter (· ≠ x))
  rw [hb, Option.map_some, hnd.erase_eq_filter]
  congr 1
  refine List.filter_congr fun y _ => ?_
  by_cases hy : y = x
  · simp [hy]
  · simp [hy]

theorem lists_some {b : NodePtr} {xs : List NodePtr} (hb : lists T b = some xs) :
    b = none ∧ xs = T.linked.map (fun x => some x.1) ∨ ∃ a ∈ T.loose.map (·.1), b = some a ∧ xs = [] := by
  cases b with
  | none => exact Or.inl ⟨rfl, (Option.some.inj hb).symm⟩
  | some a =>
    have hb' : (if a ∈ T.loose.map (·.1) then some [] else none) = some xs := hb
    split_ifs at hb' with ha
    exact Or.inr ⟨a, ha, rfl, (Option.some.inj hb').symm⟩

theorem lists_loose (ha : a ∈ T.loose.map (·.1)) : lists T (some a) = some [] := if_pos ha

/-- The list that an entry is on. -/
theorem exists_list (ha : a ∈ T.entries.map (·.1)) : ∃ b xs, lists T b = some xs ∧ some a ∈ b :: xs := by
  obtain ⟨x, hx, rfl⟩ := List.mem_map.mp ha
  rcases List.mem_append.mp hx with hx | hx
  · exact ⟨none, _, rfl, List.mem_cons_of_mem _ (List.mem_map.mpr ⟨x, hx, rfl⟩)⟩
  · exact ⟨some x.1, [], lists_loose (List.mem_map_of_mem hx), List.mem_cons_self⟩

namespace Holds

variable (h : Holds s T)
include h

theorem ring : Ring s.links none (T.linked.map fun x => some x.1) := h.rings.ring none _ rfl

theorem live_iff : Live (some a) s ↔ a ∈ T.entries.map (·.1) := by
  rw [live_some, Option.isSome_iff_exists, List.mem_map]
  constructor
  · rintro ⟨e, he⟩
    exact ⟨(a, e), (h.entries a e).mp he, rfl⟩
  · rintro ⟨⟨b, e⟩, hm, rfl⟩
    exact ⟨e, (h.entries b e).mpr hm⟩

/-- The nodes of the lists are those of live blocks. -/
theorem live_of_lists {b p : NodePtr} {xs : List NodePtr} (hb : lists T b = some xs) (hp : p ∈ b :: xs) :
    Live p s := by
  have hin : ∀ x ∈ T.entries, Live (some x.1) s := fun x hx => h.live_iff.mpr (List.mem_map_of_mem hx)
  rcases lists_some hb with ⟨rfl, rfl⟩ | ⟨a, ha, rfl, rfl⟩
  · rcases List.mem_cons.mp hp with rfl | hp
    · trivial
    · obtain ⟨x, hx, rfl⟩ := List.mem_map.mp hp
      exact hin x (List.mem_append_left _ hx)
  · obtain ⟨x, hx, rfl⟩ := List.mem_map.mp ha
    rw [List.mem_singleton.mp hp]
    exact hin x (List.mem_append_right _ hx)

theorem live_next {b p : NodePtr} {xs : List NodePtr} (hb : lists T b = some xs) (hp : p ∈ b :: xs) :
    Live (s.links.next p) s := h.live_of_lists hb ((h.rings.ring b xs hb).next_mem hp)

theorem live_prev {b p : NodePtr} {xs : List NodePtr} (hb : lists T b = some xs) (hp : p ∈ b :: xs) :
    Live (s.links.prev p) s := h.live_of_lists hb ((h.rings.ring b xs hb).prev_mem hp)

/-- The address that comes next is not that of an entry. -/
theorem made_not_mem : T.made ∉ T.entries.map (·.1) := by
  rw [← h.live_iff, ← h.made, live_some, entryAt, Heap.get_next]
  exact Bool.false_ne_true

theorem linked_not_loose (ha : a ∈ T.linked.map (·.1)) : a ∉ T.loose.map (·.1) := by
  have hnd := h.nodup
  unfold RtTable.entries at hnd
  rw [List.map_append] at hnd
  exact fun hl => (List.nodup_append.mp hnd).2.2 a ha a hl rfl

end Holds

/-! ## The operations keep the table -/

theorem initRtable_holds (h : initRtable = .ok s) : Holds s .init := by
  obtain rfl : (⟨.empty, none, none⟩ : RtStore) = s := Except.ok.inj h
  have hlist : ∀ b xs, lists .init b = some xs → b = none ∧ xs = [] := by
    intro b xs hb
    rcases lists_some hb with h | ⟨a, ha, -, -⟩
    · exact h
    · cases ha
  refine ⟨⟨fun b xs hb => ?_, fun b xs b' xs' hb hb' hne => ?_⟩, fun a e => ?_, List.nodup_nil, rfl⟩
  · obtain ⟨rfl, rfl⟩ := hlist b xs hb
    exact Ring.nil rfl rfl
  · exact absurd ((hlist b xs hb).1.trans (hlist b' xs' hb').1.symm) hne
  · exact ⟨fun he => (nomatch he), fun hm => (nomatch hm)⟩

/-- A block whose node points at itself changes no pointer. -/
theorem links_malloc (e : RtEntry) (s : RtStore) :
    links { s with heap := (s.heap.malloc ⟨some s.heap.next, some s.heap.next, e⟩).2 } = s.links := by
  unfold links
  congr 1
  all_goals
    funext x
    cases x with
    | none => rfl
    | some x =>
      by_cases hx : x = s.heap.next
      · simp [Heap.get_malloc, hx, Heap.get_next]
      · simp [Heap.get_malloc, hx]

theorem newRtEntry_holds (h : Holds s T) (dest mask gw : UInt32) (iface : Iface) :
    ∃ s', s.newRtEntry dest mask gw iface = .ok (T.made, s') ∧
      Holds s' (RtTable.apply (.new dest mask gw iface) T) := by
  let e := StaticRouter.newRtEntry dest mask gw iface
  let s₀ : RtStore := { s with heap := (s.heap.malloc ⟨some s.heap.next, some s.heap.next, e⟩).2 }
  have hentry : ∀ x, s₀.entryAt x = if x = T.made then some e else s.entryAt x := by
    intro x
    unfold entryAt
    rw [Heap.get_malloc, h.made]
    split_ifs
    · rfl
    · rfl
  have hlive : Live (some T.made) s₀ := by
    rw [live_some, hentry, if_pos rfl]
    rfl
  obtain ⟨s', hs', hl, hsame⟩ := initListHead_live hlive
  have hfree : ListOp.Legal (.init (some T.made)) (lists T) := fun b xs hb hm =>
    h.made_not_mem (h.live_iff.mp (h.live_of_lists hb (List.mem_cons_of_mem b hm)))
  have hlists : lists (RtTable.apply (.new dest mask gw iface) T) =
      ListOp.apply (.init (some T.made)) (lists T) := by
    funext b
    cases b with
    | none => exact (Function.update_of_ne (by simp) _ _).symm
    | some x =>
      have hmem : x ∈ (T.loose ++ [(T.made, e)]).map (·.1) ↔ x ∈ T.loose.map (·.1) ∨ x = T.made := by simp
      show (if x ∈ (T.loose ++ [(T.made, e)]).map (·.1) then some [] else none) =
        Function.update (lists T) (some T.made) (some []) (some x)
      by_cases hx : x = T.made
      · rw [if_pos (hmem.mpr (Or.inr hx)), hx, Function.update_self]
      · rw [Function.update_of_ne fun he => hx (Option.some.inj he)]
        exact if_congr (hmem.trans (or_iff_left hx)) rfl rfl
  have hent : (RtTable.apply (.new dest mask gw iface) T).entries = T.entries ++ [(T.made, e)] :=
    (List.append_assoc _ _ _).symm
  refine ⟨s', ?_, ⟨?_, fun x e' => ?_, ?_, ?_⟩⟩
  · rw [← h.made] at hs' ⊢
    unfold newRtEntry
    simp only [Heap.malloc_fst]
    rw [hs', ok_bind]
    rfl
  · rw [hlists, hl, links_malloc]
    exact h.rings.exec hfree
  · rw [hsame.1, hentry, hent, List.mem_append, List.mem_singleton]
    split_ifs with hx
    · subst hx
      have hno : (T.made, e') ∉ T.entries := fun hm => h.made_not_mem (List.mem_map_of_mem hm)
      simp [hno, eq_comm]
    · simp [h.entries, hx]
  · rw [hent, List.map_append]
    exact List.Nodup.append h.nodup (List.nodup_singleton _) (by simpa using h.made_not_mem)
  · rw [hsame.2]
    exact congrArg (· + 1) h.made

/-- The addresses of the entries without the one with the address `a`. -/
theorem map_filter_ne (l : List (Nat × RtEntry)) (a : Nat) :
    (l.filter (·.1 ≠ a)).map (·.1) = (l.map (·.1)).filter (· ≠ a) := by
  rw [List.filter_map]
  rfl

theorem addRtEntry_holds (h : Holds s T) (ha : a ∈ T.loose.map (·.1)) :
    ∃ s', s.addRtEntry a = .ok s' ∧ Holds s' (RtTable.apply (.add a) T) := by
  have hlive : Live (some a) s := h.live_iff.mpr (by simp [RtTable.entries, ha])
  have hhead : Live none s := trivial
  obtain ⟨s', hs', hl, hsame⟩ := listAddTail_live hlive hhead (h.live_prev (b := none) rfl List.mem_cons_self)
  have hlegal : ListOp.Legal (.addTail (some a) none) (lists T) := by
    refine ⟨by simp, ⟨_, rfl⟩, fun b xs hb hm => ?_, Or.inr (lists_loose ha)⟩
    rcases lists_some hb with ⟨rfl, rfl⟩ | ⟨c, -, -, rfl⟩
    · obtain ⟨x, hx, he⟩ := List.mem_map.mp hm
      exact h.linked_not_loose (List.mem_map_of_mem hx) (Option.some.inj he ▸ ha)
    · cases hm
  have hnd : (T.loose.map (·.1)).Nodup := by
    have hnd := h.nodup
    unfold RtTable.entries at hnd
    rw [List.map_append] at hnd
    exact (List.nodup_append.mp hnd).2.1
  have hone : (T.loose.filter (·.1 = a)).map (fun x => some x.1) = [some a] := by
    have hkeys : (T.loose.filter (·.1 = a)).map (·.1) = (T.loose.map (·.1)).filter (· = a) := by
      rw [List.filter_map]
      rfl
    have hsome : (T.loose.filter (·.1 = a)).map (fun x => some x.1) =
        ((T.loose.filter (·.1 = a)).map (·.1)).map some := by
      rw [List.map_map]
      rfl
    rw [hsome, hkeys, List.filter_eq, List.count_eq_one_of_mem hnd ha]
    rfl
  have hlists : lists (RtTable.apply (.add a) T) = ListOp.apply (.addTail (some a) none) (lists T) := by
    funext b
    cases b with
    | none =>
      show some ((T.linked ++ T.loose.filter (·.1 = a)).map fun x => some x.1) =
        Function.update (Function.update (lists T) (some a) none) none ((lists T none).map (· ++ [some a])) none
      rw [Function.update_self, List.map_append, hone]
      rfl
    | some x =>
      show (if x ∈ (T.loose.filter (·.1 ≠ a)).map (·.1) then some [] else none) =
        Function.update (Function.update (lists T) (some a) none) none _ (some x)
      rw [Function.update_of_ne (by simp), map_filter_ne]
      by_cases hx : x = a
      · rw [hx, Function.update_self, if_neg (by simp)]
      · rw [Function.update_of_ne fun he => hx (Option.some.inj he)]
        exact if_congr (by simp [hx]) rfl rfl
  have hperm : (RtTable.apply (.add a) T).entries.Perm T.entries := by
    show ((T.linked ++ T.loose.filter (·.1 = a)) ++ T.loose.filter (·.1 ≠ a)).Perm _
    rw [List.append_assoc]
    refine List.Perm.append_left _ ?_
    simpa using List.filter_append_perm (fun x : Nat × RtEntry => decide (x.1 = a)) T.loose
  refine ⟨s', hs', ⟨?_, fun x e => ?_, ?_, hsame.2.trans h.made⟩⟩
  · rw [hlists, hl]
    exact h.rings.exec hlegal
  · rw [hsame.1, h.entries, hperm.mem_iff]
  · exact (hperm.map _).nodup_iff.mpr h.nodup

/-- A node that points at itself is not changed. -/
theorem listDeleteEntry_self {α : Type} [DecidableEq α] {h : Links α} {x : α} (hn : h.next x = x)
    (hp : h.prev x = x) : StaticRouter.listDeleteEntry x h = h := by
  have hset : StaticRouter.setPrev x x h = h := by
    unfold StaticRouter.setPrev
    congr 1
    exact Function.update_eq_self_iff.mpr hp.symm
  unfold StaticRouter.listDeleteEntry
  rw [hn, hp, hset]
  show StaticRouter.setNext (h.prev x) (h.next x) h = h
  rw [hn, hp]
  unfold StaticRouter.setNext
  congr 1
  exact Function.update_eq_self_iff.mpr hn.symm

/-- The rings after an entry has been taken out, which it may be of none. -/
theorem Holds.rings_delete (h : Holds s T) (ha : a ∈ T.entries.map (·.1)) :
    Represents (StaticRouter.listDeleteEntry (some a) s.links) (ListOp.apply (.delete (some a)) (lists T)) := by
  unfold RtTable.entries at ha
  rw [List.map_append, List.mem_append] at ha
  rcases ha with ha | ha
  · have hlegal : ListOp.Legal (.delete (some a)) (lists T) := by
      obtain ⟨x, hx, rfl⟩ := List.mem_map.mp ha
      exact ⟨none, _, rfl, List.mem_map.mpr ⟨x, hx, rfl⟩⟩
    exact h.rings.exec hlegal
  · have hr := h.rings.ring _ _ (lists_loose ha)
    have hrev := hr.swap.next_head
    rw [listDeleteEntry_self hr.next_head hrev]
    refine represents_of_fewer h.rings (fun b xs hb => ?_) fun _ _ _ _ _ => ⟨rfl, rfl⟩
    obtain ⟨ys, hys, -⟩ := Option.map_eq_some_iff.mp hb
    have hnot : some a ∉ ys := by
      intro hm
      rcases lists_some hys with ⟨rfl, rfl⟩ | ⟨c, -, -, rfl⟩
      · obtain ⟨x, hx, he⟩ := List.mem_map.mp hm
        exact h.linked_not_loose (List.mem_map_of_mem hx) (Option.some.inj he ▸ ha)
      · cases hm
    exact hys.trans ((delete_of_not_mem hys hnot).symm.trans hb)

/-- An entry is taken out of the list that it is on, and its block is freed. -/
theorem removeRtEntry_holds (h : Holds s T) (ha : a ∈ T.entries.map (·.1)) :
    ∃ s', s.removeRtEntry a = .ok s' ∧ Holds s' (RtTable.apply (.remove a) T) := by
  obtain ⟨b, xs, hb, hm⟩ := exists_list ha
  have hlive : Live (some a) s := h.live_iff.mpr ha
  obtain ⟨s₁, h₁, hl₁, he₁⟩ := listDeleteEntry_live hlive (h.live_next hb hm) (h.live_prev hb hm)
  obtain ⟨s', hs', hentry, hmade, hsame⟩ := freeEntry_live (he₁.live hlive)
  have hrings := h.rings_delete ha
  rw [← hl₁] at hrings
  have hnot : ∀ b xs, lists (RtTable.apply (.remove a) T) b = some xs →
      ListOp.apply (.delete (some a)) (lists T) b = some xs ∧ some a ∉ b :: xs := by
    intro b xs hb
    rcases lists_some hb with ⟨rfl, rfl⟩ | ⟨c, hc, rfl, rfl⟩
    · have hnd := (List.nodup_cons.mp h.ring.nodup).2
      have hfilter : (T.linked.map fun x => some x.1).filter (· ≠ some a) =
          (T.linked.filter (·.1 ≠ a)).map fun x => some x.1 := by
        rw [List.filter_map]
        congr 1
        exact List.filter_congr fun x _ => by simp
      refine ⟨(delete_of_nodup rfl hnd).trans (congrArg some hfilter), fun hm => ?_⟩
      simp [RtTable.apply] at hm
    · have hc' : c ∈ T.loose.map (·.1) ∧ c ≠ a := by
        have hc' : c ∈ (T.loose.filter (·.1 ≠ a)).map (·.1) := hc
        rw [map_filter_ne] at hc'
        simpa using hc'
      exact ⟨delete_of_not_mem (lists_loose hc'.1) List.not_mem_nil, by simpa using hc'.2.symm⟩
  have hent : (RtTable.apply (.remove a) T).entries = T.entries.filter (·.1 ≠ a) :=
    (List.filter_append _ _).symm
  refine ⟨s', ?_, ⟨?_, fun x e => ?_, ?_, hmade.trans (he₁.2.trans h.made)⟩⟩
  · rw [removeRtEntry, h₁, ok_bind, hs']
  · exact represents_of_fewer hrings (fun b xs hb => (hnot b xs hb).1)
      fun b xs hb x hx => hsame x fun he => (hnot b xs hb).2 (he ▸ hx)
  · rw [hentry, he₁.1, hent, List.mem_filter, ← h.entries]
    by_cases hx : x = a
    · simp [hx]
    · simp [hx]
  · rw [hent]
    exact h.nodup.sublist (List.filter_sublist.map _)

/-- An address that no entry has, or no longer has. -/
theorem removeRtEntry_notLive (h : Holds s T) (ha : a ∉ T.entries.map (·.1)) :
    s.removeRtEntry a = .error .outOfBounds := by
  have hno : s.entryAt a = none := by
    rw [← h.live_iff, live_some, Bool.not_eq_true, Option.isSome_eq_false_iff, Option.isNone_iff_eq_none] at ha
    exact ha
  rw [removeRtEntry, listDeleteEntry, getNext_notLive hno, error_bind, error_bind]

/-- One round of `clear_rtable` removes the first entry. -/
theorem clearRtable_succ (hn : s.next = some a) (fuel : Nat) :
    s.clearRtable (fuel + 1) = s.removeRtEntry a >>= fun s => s.clearRtable fuel := by
  rw [clearRtable]
  simp only [hn, removeRtEntry, bind_assoc]

/-- The pointer of the head. -/
theorem Holds.next_eq (h : Holds s T) : s.next = T.linked.head?.map Prod.fst := by
  have hn : s.next = ((T.linked.map fun x : Nat × RtEntry => some x.1) ++ [none]).head (by simp) := h.ring.next_head
  rw [hn]
  cases T.linked with
  | nil => rfl
  | cons x l => rfl

/-- The loop removes the entries on the table one by one, and needs no more rounds than there are entries. -/
theorem clearRtable_holds (h : Holds s T) :
    (∀ fuel, T.linked.length ≤ fuel → ∃ s', s.clearRtable fuel = .ok s') ∧
    ∀ fuel s', s.clearRtable fuel = .ok s' → Holds s' (RtTable.apply .clear T) := by
  generalize hl : T.linked = l
  induction l generalizing s T with
  | nil =>
    have hn : s.next = none := by
      rw [h.next_eq, hl]
      rfl
    have hok : ∀ fuel, s.clearRtable fuel = .ok s := by
      intro fuel
      cases fuel <;> simp [clearRtable, hn]
    have hT : RtTable.apply .clear T = T := by
      show { T with linked := [] } = T
      rw [← hl]
    refine ⟨fun fuel _ => ⟨s, hok fuel⟩, fun fuel s' hs' => ?_⟩
    rw [hok fuel] at hs'
    rw [← Except.ok.inj hs', hT]
    exact h
  | cons x l ih =>
    have hn : s.next = some x.1 := by
      rw [h.next_eq, hl]
      rfl
    have hx : x.1 ∈ T.linked.map (·.1) := by simp [hl]
    obtain ⟨s₁, h₁, hs₁⟩ := removeRtEntry_holds h (a := x.1) (by simp [RtTable.entries, hl])
    have hnd := (List.nodup_cons.mp h.ring.nodup).2
    have hl₁ : (RtTable.apply (.remove x.1) T).linked = l := by
      show T.linked.filter (·.1 ≠ x.1) = l
      rw [hl, List.filter_cons_of_neg (by simp)]
      refine List.filter_eq_self.mpr fun y hy => ?_
      rw [hl] at hnd
      have hne : y.1 ≠ x.1 := fun he =>
        (List.nodup_cons.mp hnd).1 (List.mem_map.mpr ⟨y, hy, congrArg some he⟩)
      simpa using hne
    have hloose : (RtTable.apply (.remove x.1) T).loose = T.loose := by
      refine List.filter_eq_self.mpr fun y hy => ?_
      have hne : y.1 ≠ x.1 := fun he => h.linked_not_loose hx (he ▸ List.mem_map_of_mem hy)
      simpa using hne
    have hT : RtTable.apply .clear (RtTable.apply (.remove x.1) T) = RtTable.apply .clear T := by
      show { T with linked := [], loose := (RtTable.apply (.remove x.1) T).loose } = _
      rw [hloose]
      rfl
    obtain ⟨hret, hhold⟩ := ih hs₁ hl₁
    rw [hT] at hhold
    refine ⟨fun fuel hfuel => ?_, fun fuel s' hs' => ?_⟩
    · obtain ⟨fuel, rfl⟩ : ∃ n, fuel = n + 1 := Nat.exists_eq_add_one.mpr (by simp at hfuel; omega)
      obtain ⟨s', hs'⟩ := hret fuel (by simpa using hfuel)
      exact ⟨s', by rw [clearRtable_succ hn, h₁, ok_bind, hs']⟩
    · cases fuel with
      | zero =>
        rw [clearRtable, hn] at hs'
        cases hs'
      | succ fuel =>
        rw [clearRtable_succ hn, h₁, ok_bind] at hs'
        exact hhold fuel s' hs'

/-! ## The loops over the table -/

/-- `list_for_each_entry` gives its body the entries on the table in their order. -/
theorem forEachEntryFrom_holds {γ : Type} {body : Nat → RtEntry → γ → γ} (h : Holds s T)
    {X Y : List (Nat × RtEntry)} (hl : T.linked = X ++ Y) {fuel : Nat} (hfuel : Y.length ≤ fuel) (r : γ) :
    forEachEntryFrom body s fuel (Y.head?.map Prod.fst) r = .ok (Y.foldl (fun r x => body x.1 x.2 r) r) := by
  induction Y generalizing X fuel r with
  | nil => cases fuel <;> rfl
  | cons x Y ih =>
    obtain ⟨fuel, rfl⟩ : ∃ n, fuel = n + 1 := Nat.exists_eq_add_one.mpr (by simp at hfuel; omega)
    have hentry : s.entryAt x.1 = some x.2 := (h.entries _ _).mpr (by simp [RtTable.entries, hl])
    obtain ⟨n, hn, hne⟩ := Option.map_eq_some_iff.mp hentry
    have hnext : n.next = Y.head?.map Prod.fst := by
      have hr := h.ring
      rw [hl, List.map_append, List.map_cons] at hr
      have hlink : s.links.next (some x.1) = n.next := by simp [links, hn]
      rw [← hlink, hr.next_of]
      cases Y with
      | nil => rfl
      | cons y Y => rfl
    have hrest := ih (X := X ++ [x]) (by simpa using hl) (by simpa using hfuel) (body x.1 x.2 r)
    show forEachEntryFrom body s (fuel + 1) (some x.1) r = _
    rw [forEachEntryFrom, Heap.load_ok.mpr hn, ok_bind, hnext, hne, hrest]
    rfl

theorem forEachEntry_holds {γ : Type} {body : Nat → RtEntry → γ → γ} (h : Holds s T) {fuel : Nat}
    (hfuel : T.linked.length ≤ fuel) (r : γ) :
    forEachEntry body s fuel r = .ok (T.linked.foldl (fun r x => body x.1 x.2 r) r) := by
  rw [forEachEntry, h.next_eq]
  exact forEachEntryFrom_holds h (X := []) rfl hfuel r

/-- From the maximum `m` and the entry `r` on, the loop of `longest_prefix_match` over addresses finds the
address of what it finds over entries. -/
def FindsSame (dst : UInt32) (l : List (Nat × RtEntry)) (m : Int32) (r : Option (Nat × RtEntry)) : Prop :=
  ∃ x : Option (Nat × RtEntry), (∀ y ∈ x, y ∈ r ∨ y ∈ l) ∧
    (l.foldl (fun r x => matchEntry dst x.1 x.2 r) (m, r.map Prod.fst)).2 = x.map Prod.fst ∧
    longestPrefixMatchLoop dst (l.map Prod.snd) m (r.map Prod.snd) = x.map Prod.snd

/-- One round, after which both loops hold `m'` and `r'`. -/
theorem FindsSame.cons {dst : UInt32} {z : Nat × RtEntry} {l : List (Nat × RtEntry)} {m m' : Int32}
    {r r' : Option (Nat × RtEntry)} (h : FindsSame dst l m' r')
    (hfold : matchEntry dst z.1 z.2 (m, r.map Prod.fst) = (m', r'.map Prod.fst))
    (hloop : longestPrefixMatchLoop dst (z.2 :: l.map Prod.snd) m (r.map Prod.snd) =
      longestPrefixMatchLoop dst (l.map Prod.snd) m' (r'.map Prod.snd))
    (hr : ∀ y ∈ r', y ∈ r ∨ y = z) : FindsSame dst (z :: l) m r := by
  obtain ⟨x, hx, hf, hl⟩ := h
  refine ⟨x, fun y hy => ?_, ?_, hloop.trans hl⟩
  · rcases hx y hy with hy | hy
    · refine (hr y hy).imp_right fun he => ?_
      rw [he]
      exact List.mem_cons_self
    · exact Or.inr (List.mem_cons_of_mem z hy)
  · rw [List.foldl_cons, hfold, hf]

theorem foldl_matchEntry (dst : UInt32) (l : List (Nat × RtEntry)) (m : Int32) (r : Option (Nat × RtEntry)) :
    FindsSame dst l m r := by
  induction l generalizing m r with
  | nil => exact ⟨r, fun y hy => Or.inl hy, rfl, rfl⟩
  | cons z l ih =>
    by_cases hmatch : z.2.dest &&& z.2.mask = dst &&& z.2.mask
    · by_cases hge : m.toUInt32 ≤ z.2.mask
      · refine (ih z.2.mask.toInt32 (some z)).cons ?_ ?_ fun y hy => Or.inr (Option.some.inj hy).symm
        · rw [matchEntry, if_pos hmatch, if_pos hge]
          rfl
        · rw [longestPrefixMatchLoop, if_pos hmatch, if_pos hge]
          rfl
      · refine (ih m r).cons ?_ ?_ fun y hy => Or.inl hy
        · rw [matchEntry, if_pos hmatch, if_neg hge]
        · rw [longestPrefixMatchLoop, if_pos hmatch, if_neg hge]
    · refine (ih m r).cons ?_ ?_ fun y hy => Or.inl hy
      · rw [matchEntry, if_neg hmatch]
      · rw [longestPrefixMatchLoop, if_neg hmatch]

/-- `longest_prefix_match` returns the address of the entry that the search of the sequence finds. -/
theorem longestPrefixMatch_holds (h : Holds s T) {fuel : Nat} (hfuel : T.linked.length ≤ fuel) (dst : UInt32) :
    ∃ x : Option (Nat × RtEntry), (∀ y ∈ x, y ∈ T.linked) ∧
      s.longestPrefixMatch fuel dst = .ok (x.map Prod.fst) ∧
      StaticRouter.longestPrefixMatch (T.linked.map Prod.snd) dst = x.map Prod.snd := by
  obtain ⟨x, hx, hfold, hloop⟩ := foldl_matchEntry dst T.linked 0 none
  refine ⟨x, fun y hy => (hx y hy).resolve_left (by simp), ?_, hloop⟩
  have hmap : Option.map Prod.fst (none : Option (Nat × RtEntry)) = none := rfl
  rw [hmap] at hfold
  rw [longestPrefixMatch, forEachEntry_holds h hfuel, ok_bind, hfold]
  rfl

theorem printRtable_holds (h : Holds s T) {fuel : Nat} (hfuel : T.linked.length ≤ fuel) :
    s.printRtable fuel = .ok (T.linked.map Prod.snd) := by
  have hfold : ∀ (l : List (Nat × RtEntry)) (lines : List RtEntry),
      l.foldl (fun lines x => lines ++ [x.2]) lines = lines ++ l.map Prod.snd := by
    intro l
    induction l with
    | nil => simp
    | cons x l ih =>
      intro lines
      rw [List.foldl_cons, ih, List.append_assoc]
      rfl
  rw [printRtable, forEachEntry_holds h hfuel, hfold]
  rfl

/-- The first round of `delete_list` reads the node that it has just freed. -/
theorem deleteList_holds (h : Holds s T) (fuel : Nat) :
    s.deleteList (fuel + 1) = if T.linked = [] then .ok s else .error .outOfBounds := by
  rw [deleteList, h.next_eq]
  cases hl : T.linked with
  | nil =>
    rw [if_pos rfl]
    rfl
  | cons x l =>
    have hlive : Live (some x.1) s := h.live_iff.mpr (by simp [RtTable.entries, hl])
    obtain ⟨s₁, h₁, hentry, -, -⟩ := freeEntry_live hlive
    have hno : s₁.entryAt x.1 = none := by rw [hentry, if_pos rfl]
    rw [if_neg (List.cons_ne_nil x l)]
    show deleteListFrom (fuel + 1) (some x.1) s = _
    rw [deleteListFrom, getNext_live hlive, ok_bind, h₁, ok_bind, listDeleteEntry, getNext_notLive hno, error_bind,
      error_bind]

end RtStore

/-! ## Runs -/

open RtStore (Holds)

variable {s s' : RtStore} {T : RtTable}

theorem RtOp.exec_holds (h : Holds s T) {op : RtOp} (hop : RtTable.Legal op T) :
    (∀ fuel, T.linked.length ≤ fuel → ∃ s', op.exec fuel s = .ok s') ∧
    ∀ fuel s', op.exec fuel s = .ok s' → Holds s' (RtTable.apply op T) := by
  have hone : (∃ s', (∀ fuel, op.exec fuel s = .ok s') ∧ Holds s' (RtTable.apply op T)) →
      (∀ fuel, T.linked.length ≤ fuel → ∃ s', op.exec fuel s = .ok s') ∧
      ∀ fuel s', op.exec fuel s = .ok s' → Holds s' (RtTable.apply op T) := by
    rintro ⟨s₁, h₁, hs₁⟩
    refine ⟨fun fuel _ => ⟨s₁, h₁ fuel⟩, fun fuel s' hs' => ?_⟩
    rw [h₁ fuel] at hs'
    exact Except.ok.inj hs' ▸ hs₁
  cases op with
  | new dest mask gw iface =>
    obtain ⟨s₁, h₁, hs₁⟩ := RtStore.newRtEntry_holds h dest mask gw iface
    refine hone ⟨s₁, fun fuel => ?_, hs₁⟩
    rw [RtOp.exec, h₁, ok_bind]
    rfl
  | add entry =>
    obtain ⟨s₁, h₁, hs₁⟩ := RtStore.addRtEntry_holds h hop
    exact hone ⟨s₁, fun _ => h₁, hs₁⟩
  | remove entry =>
    obtain ⟨s₁, h₁, hs₁⟩ := RtStore.removeRtEntry_holds h hop
    exact hone ⟨s₁, fun _ => h₁, hs₁⟩
  | clear => exact RtStore.clearRtable_holds h

/-- The blocks hold the table in every run. -/
theorem RtRun.holds (hrun : RtRun (s, T)) : Holds s T := by
  refine Runs.RunOf.invariant (I := fun s => Holds s.1 s.2) (fun s hs => ?_)
    (fun op s s' _ hop h hstep => ?_) hrun
  · rw [hs.2]
    exact RtStore.initRtable_holds hs.1
  · obtain ⟨⟨fuel, hex⟩, hT⟩ := hstep
    rw [hT]
    exact (RtOp.exec_holds h hop).2 fuel s'.1 hex

/-- **The routing table refines its entries.** After any operations as the table allows them, the live blocks are
those of the entries that were made and not removed or cleared. `print_rtable` goes over the entries on the
table in the order in which they were added, and `longest_prefix_match` returns the address of the one that the
search of that sequence finds, so never one that has been freed. Every operation that is allowed returns, and
removing what is not there, a second time say, touches memory that is not live. -/
theorem rtable_refines (hrun : RtRun (s, T)) :
    (T.entries.map (·.1)).Nodup ∧ (∀ a e, s.entryAt a = some e ↔ (a, e) ∈ T.entries) ∧
    (∀ fuel, T.linked.length ≤ fuel → s.printRtable fuel = .ok (T.linked.map Prod.snd) ∧
      ∀ dst, ∃ x : Option (Nat × RtEntry), (∀ y ∈ x, y ∈ T.linked) ∧
        s.longestPrefixMatch fuel dst = .ok (x.map Prod.fst) ∧
        longestPrefixMatch (T.linked.map Prod.snd) dst = x.map Prod.snd) ∧
    (∀ op, RtTable.Legal op T → ∀ fuel, T.linked.length ≤ fuel →
      ∃ s', op.exec fuel s = .ok s' ∧ RtRun (s', RtTable.apply op T)) ∧
    ∀ a, a ∉ T.entries.map (·.1) → s.removeRtEntry a = .error .outOfBounds := by
  have h := hrun.holds
  refine ⟨h.nodup, h.entries, fun fuel hfuel => ⟨RtStore.printRtable_holds h hfuel, fun dst => ?_⟩,
    fun op hop fuel hfuel => ?_, fun a ha => RtStore.removeRtEntry_notLive h ha⟩
  · exact RtStore.longestPrefixMatch_holds h hfuel dst
  · obtain ⟨s', hs'⟩ := (RtOp.exec_holds h hop).1 fuel hfuel
    exact ⟨s', hs', hrun.step hop ⟨⟨fuel, hs'⟩, rfl⟩⟩

/-- What a computed sequence of operations shows of its last state. -/
theorem RtRun.of_replay (ops : List RtOp) (P : RtStore × RtTable → Prop) [DecidablePred P]
    (hp : (Runs.replay (fun (op : RtOp) s => RtTable.Legal op s.2)
      (fun op s => (op.exec s.2.linked.length s.1).toOption.map fun s' => (s', RtTable.apply op s.2)) ops
      ((⟨.empty, none, none⟩ : RtStore), .init)).any (P ·) = true) : ∃ s, RtRun s ∧ P s := by
  have hexec : ∀ (op : RtOp) (s s' : RtStore × RtTable),
      ((op.exec s.2.linked.length s.1).toOption.map fun s' => (s', RtTable.apply op s.2)) = some s' →
        op.Step s s' := by
    intro op s s' he
    obtain ⟨s₁, h₁, rfl⟩ := Option.map_eq_some_iff.mp he
    exact ⟨⟨_, toOption_eq_some.mp h₁⟩, rfl⟩
  exact Runs.RunOf.of_replay hexec ops ⟨rfl, rfl⟩ P hp

/-- Three entries of which the second goes on the table before the first and is removed again. -/
theorem rtable_refines_removed : ∃ s T, RtRun (s, T) ∧ T.linked.map Prod.fst = [0] ∧ T.loose.map Prod.fst = [2] ∧
    s.printRtable 1 = .ok (T.linked.map Prod.snd) ∧ s.removeRtEntry 1 = .error .outOfBounds ∧
    ∃ s', s.addRtEntry 2 = .ok s' := by
  obtain ⟨⟨s, T⟩, hrun, hlinked, hloose⟩ := RtRun.of_replay
    [.new 0x0a000100 0xffffff00 0 Sample.eth0, .new 0x0a000200 0xffffff00 0 Sample.eth1, .add 1,
      .new 0 0 0x0a000109 Sample.eth0, .add 0, .remove 1]
    (fun s => s.2.linked.map Prod.fst = [0] ∧ s.2.loose.map Prod.fst = [2]) (by decide)
  obtain ⟨-, -, hloops, hops, hgone⟩ := rtable_refines hrun
  have hlen : T.linked.length ≤ 1 := by simpa using Nat.le_of_eq (congrArg List.length hlinked)
  have hgo : 1 ∉ T.entries.map (·.1) := by
    show 1 ∉ (T.linked ++ T.loose).map Prod.fst
    rw [List.map_append, hlinked, hloose]
    decide
  have hmem : 2 ∈ T.loose.map (·.1) := by
    show 2 ∈ T.loose.map Prod.fst
    rw [hloose]
    decide
  obtain ⟨s', hs', -⟩ := hops (.add 2) hmem 1 hlen
  exact ⟨s, T, hrun, hlinked, hloose, (hloops 1 hlen).1, hgone 1 hgo, s', hs'⟩

/-- **`delete_list` frees a node before it takes it out.** On the routing table the macro returns only where
there is nothing to delete; with an entry on the table its first round touches the block that it has freed.
`clear_rtable`, which takes the node out first, empties the table in every state. -/
theorem deleteList_faults (hrun : RtRun (s, T)) (fuel : Nat) :
    (T.linked = [] → s.deleteList (fuel + 1) = .ok s) ∧
    (T.linked ≠ [] → s.deleteList (fuel + 1) = .error .outOfBounds) ∧
    (T.linked.length ≤ fuel → ∃ s', s.clearRtable fuel = .ok s' ∧ s'.next = none ∧
      ∀ a e, s'.entryAt a = some e ↔ (a, e) ∈ T.loose) := by
  have h := hrun.holds
  rw [RtStore.deleteList_holds h]
  refine ⟨fun hl => if_pos hl, fun hl => if_neg hl, fun hfuel => ?_⟩
  obtain ⟨s', hs'⟩ := (RtStore.clearRtable_holds h).1 fuel hfuel
  have h' := (RtStore.clearRtable_holds h).2 fuel s' hs'
  exact ⟨s', hs', h'.next_eq, h'.entries⟩

/-- One entry on the table. -/
theorem deleteList_faults_one : ∃ s T, RtRun (s, T) ∧ T.linked ≠ [] ∧ s.deleteList 2 = .error .outOfBounds ∧
    ∃ s', s.clearRtable 1 = .ok s' ∧ s'.next = none := by
  obtain ⟨⟨s, T⟩, hrun, hlinked⟩ := RtRun.of_replay [.new 0x0a000100 0xffffff00 0 Sample.eth0, .add 0]
    (fun s => s.2.linked.map Prod.fst = [0]) (by decide)
  obtain ⟨-, hfault, hclear⟩ := deleteList_faults hrun 1
  have hne : T.linked ≠ [] := by
    intro he
    rw [he] at hlinked
    cases hlinked
  obtain ⟨s', hs', hn, -⟩ := hclear (by simpa using Nat.le_of_eq (congrArg List.length hlinked))
  exact ⟨s, T, hrun, hne, hfault hne, s', hs', hn⟩

end StaticRouter
