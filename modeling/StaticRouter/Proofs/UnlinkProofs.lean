import StaticRouter.Proofs.LinkedListProofs

/-!
# Proofs: a node that is unlinked twice

`arpcache_insert` unlinks a request and its packets while `arpcache_sweep`, in another thread, may be about to
unlink them too. A node that is on no list keeps the pointers to its old neighbours, and a second
`list_delete_entry` goes by these.
-/

namespace StaticRouter

open CMem Rings

variable {α : Type} [DecidableEq α] {e p n b : α} {xs : List α} {s : Links α × Lists α} {op : ListOp α}

/-- The operation makes `e` a list head or adds it to a list. -/
def ListOp.Takes (e : α) : ListOp α → Prop
  | .init list => list = e
  | .addHead new _ => new = e
  | .addTail new _ => new = e
  | .delete _ => False

instance (e : α) (op : ListOp α) : Decidable (op.Takes e) :=
  match op with
  | .init list => inferInstanceAs (Decidable (list = e))
  | .addHead new _ => inferInstanceAs (Decidable (new = e))
  | .addTail new _ => inferInstanceAs (Decidable (new = e))
  | .delete _ => inferInstanceAs (Decidable False)

/-- The node `e` is on no list and is the head of none, and points at `p` and `n`. -/
structure LeftBehind (e p n : α) (s : Links α × Lists α) : Prop where
  represents : Represents s.1 s.2
  free : s.2.Free e
  noHead : s.2 e = none
  prev : s.1.prev e = p
  next : s.1.next e = n

namespace LeftBehind

omit [DecidableEq α] in
theorem not_mem (h : LeftBehind e p n s) (hb : s.2 b = some xs) : e ∉ b :: xs := by
  refine h.free.not_mem hb ?_
  rintro rfl
  rw [h.noHead] at hb
  cases hb

/-- A node is added somewhere, and it is not this one. -/
theorem add (h : LeftBehind e p n s) {new head : α} (ys : List α) (hne : e ≠ new) (hhead : s.2 head = some xs)
    (hys : ∀ x ∈ ys, x = new ∨ x ∈ xs) :
    Lists.Free (Function.update (Function.update s.2 new none) head (some ys)) e ∧
      Function.update (Function.update s.2 new none) head (some ys) e = none := by
  obtain ⟨hne', hnx⟩ := not_or.mp fun hm => h.not_mem hhead (List.mem_cons.mpr hm)
  constructor
  · intro b' xs' hb' hmem
    by_cases hbh : b' = head
    · subst hbh
      rw [Function.update_self] at hb'
      cases hb'
      rcases hys e hmem with he | he
      · exact hne he
      · exact hnx he
    · rw [Function.update_of_ne hbh] at hb'
      by_cases hbn : b' = new
      · subst hbn
        rw [Function.update_self] at hb'
        cases hb'
      · rw [Function.update_of_ne hbn] at hb'
        exact h.free b' xs' hb' hmem
  · rw [Function.update_of_ne hne', Function.update_of_ne hne, h.noHead]

/-- What the operations on the other nodes leave of it. -/
theorem exec (h : LeftBehind e p n s) (hop : op.Legal s.2) (ht : ¬ op.Takes e) :
    LeftBehind e p n (op.exec s.1, op.apply s.2) := by
  have hS := h.represents.exec hop
  obtain ⟨hfree, hnone, hnext, hprev⟩ :
      (op.apply s.2).Free e ∧ op.apply s.2 e = none ∧ SameAt s.1 (op.exec s.1) e := by
    cases op with
    | init list =>
      have hne : e ≠ list := fun he => ht he.symm
      refine ⟨fun b' xs' hb' hmem => ?_, (Function.update_of_ne hne _ _).trans h.noHead,
        initListHead_sameAt s.1 hne⟩
      by_cases hbl : b' = list
      · subst hbl
        rw [ListOp.apply, Function.update_self] at hb'
        cases hb'
        cases hmem
      · rw [ListOp.apply, Function.update_of_ne hbl] at hb'
        exact h.free b' xs' hb' hmem
    | addHead new head =>
      have hne : e ≠ new := fun he => ht he.symm
      obtain ⟨-, ⟨xs, hxs⟩, -, -⟩ := hop
      have hr := h.represents.ring head xs hxs
      have hout := h.not_mem hxs
      have hlists := h.add (new :: xs) hne hxs fun x hx => List.mem_cons.mp hx
      rw [ListOp.apply, hxs]
      refine ⟨hlists.1, hlists.2, listInsert_sameAt s.1 hne (fun he => ?_) fun he => ?_⟩
      · exact hout (he ▸ List.mem_cons_self)
      · exact hout (he ▸ hr.next_mem List.mem_cons_self)
    | addTail new head =>
      have hne : e ≠ new := fun he => ht he.symm
      obtain ⟨-, ⟨xs, hxs⟩, -, -⟩ := hop
      have hr := h.represents.ring head xs hxs
      have hout := h.not_mem hxs
      have hlists := h.add (xs ++ [new]) hne hxs fun x hx => by
        rcases List.mem_append.mp hx with hx | hx
        · exact Or.inr hx
        · exact Or.inl (List.mem_singleton.mp hx)
      rw [ListOp.apply, hxs]
      refine ⟨hlists.1, hlists.2, listInsert_sameAt s.1 hne (fun he => ?_) fun he => ?_⟩
      · exact hout (he ▸ hr.prev_mem List.mem_cons_self)
      · exact hout (he ▸ List.mem_cons_self)
    | delete entry =>
      obtain ⟨b', xs', hxs, hentry⟩ := hop
      have hr := h.represents.ring b' xs' hxs
      have hout := h.not_mem hxs
      have hmem := List.mem_cons_of_mem b' hentry
      refine ⟨fun b'' ys hb'' he => ?_, Option.map_eq_none_iff.mpr h.noHead,
        listDeleteEntry_sameAt (hr.next_ne hentry) (fun he => ?_) fun he => ?_⟩
      · obtain ⟨zs, hzs, rfl⟩ := Option.map_eq_some_iff.mp hb''
        exact h.free b'' zs hzs (List.mem_of_mem_erase he)
      · exact hout (he ▸ hr.prev_mem hmem)
      · exact hout (he ▸ hr.next_mem hmem)
  exact ⟨hS, hfree, hnone, hprev.trans h.prev, hnext.trans h.next⟩

/-- A node that is deleted keeps its pointers. -/
theorem deleted {h : Links α} {S : Lists α} (hS : Represents h S) {X Y : List α}
    (hb : S b = some (X ++ e :: Y)) : ∃ A B p n, b :: X = A ++ [p] ∧ Y ++ [b] = n :: B ∧
      LeftBehind e p n ((ListOp.delete e).exec h, (ListOp.delete e).apply S) := by
  have hr := hS.ring b _ hb
  have he : e ∈ X ++ e :: Y := by simp
  obtain ⟨hbe, hnd⟩ := List.nodup_cons.mp hr.nodup
  obtain ⟨A, B, p, n, hA, hB, hn, hp⟩ := hr.around
  have hkept : SameAt h (listDeleteEntry e h) e := by
    refine listDeleteEntry_sameAt (hr.next_ne he) (Ne.symm ?_) (Ne.symm (hr.next_ne he))
    exact hr.swap.next_ne (List.mem_reverse.mpr he)
  have hop : (ListOp.delete e).Legal S := ⟨b, _, hb, he⟩
  refine ⟨A, B, p, n, hA, hB, hS.exec hop, ?_, ?_, hkept.2.trans hp, hkept.1.trans hn⟩
  · intro b' xs' hb' hmem
    obtain ⟨zs, hzs, rfl⟩ := Option.map_eq_some_iff.mp hb'
    obtain rfl : b' = b :=
      hS.mem_eq hzs hb (List.mem_cons_of_mem b' (List.mem_of_mem_erase hmem)) (List.mem_cons_of_mem b he)
    obtain rfl := Option.some.inj (hzs.symm.trans hb)
    exact hnd.not_mem_erase hmem
  · refine Option.map_eq_none_iff.mpr ?_
    by_contra hsome
    obtain ⟨xs', hxs'⟩ := Option.ne_none_iff_exists'.mp hsome
    obtain rfl : e = b := hS.mem_eq hxs' hb List.mem_cons_self (List.mem_cons_of_mem b he)
    exact hbe he

end LeftBehind

/-- **A second unlink.** A node that was deleted from the list of `b` is deleted once more, after any operations
that the lists allow and that leave this node alone. If its neighbours of before are still on the list, with
`V` between them, then they are linked with each other: the list has lost `V`, so that no traversal comes to
those nodes any more, and all else is as it was. -/
theorem second_delete {h h' : Links α} {S S' : Lists α} (hrun : ListRun (h, S)) {X Y : List α}
    (hb : S b = some (X ++ e :: Y)) {ops : List (ListOp α)}
    (hops : Runs.Steps ListOp.Step (fun op s => op.Legal s.2 ∧ ¬ op.Takes e) ops
      ((ListOp.delete e).exec h, (ListOp.delete e).apply S) (h', S'))
    {U V W : List α} (hb' : S' b = some (U ++ V ++ W)) (hprev : (b :: U).getLast? = (b :: X).getLast?)
    (hnext : (W ++ [b]).head? = (Y ++ [b]).head?) :
    Represents (listDeleteEntry e h') (Function.update S' b (some (U ++ W))) ∧
      ∀ fuel, (U ++ W).length ≤ fuel → listForEach fuel b (listDeleteEntry e h') = .ok (U ++ W) := by
  obtain ⟨A, B, p, n, hA, hB, hleft⟩ := LeftBehind.deleted (ListRun.represents hrun) hb
  have hlast : LeftBehind e p n (h', S') := by
    refine Runs.Steps.invariant (I := LeftBehind e p n) ?_ hops hleft
    rintro op s s' ⟨hop, ht⟩ hs rfl
    exact hs.exec hop ht
  have hr := hlast.represents.ring b _ hb'
  obtain ⟨A', hA'⟩ : ∃ A', b :: U = A' ++ [p] := by
    rw [hA, List.getLast?_concat] at hprev
    exact List.getLast?_eq_some_iff.mp hprev
  obtain ⟨B', hB'⟩ : ∃ B', W ++ [b] = n :: B' := by
    rw [hB, List.head?_cons] at hnext
    exact List.head?_eq_some_iff.mp hnext
  have hpm : p ∈ b :: (U ++ V ++ W) := by
    have hm : p ∈ b :: U := hA' ▸ by simp
    simp only [List.mem_cons, List.mem_append] at hm ⊢
    tauto
  have hnm : n ∈ b :: (U ++ V ++ W) := by
    have hm : n ∈ W ++ [b] := hB' ▸ List.mem_cons_self
    simp only [List.mem_cons, List.mem_append] at hm ⊢
    tauto
  have hne : h'.next e ≠ e := by
    rw [hlast.next]
    rintro rfl
    exact hlast.not_mem hb' hnm
  have hcut : Ring (listDeleteEntry e h') b (U ++ W) := by
    rw [listDeleteEntry_eq hne, hlast.next, hlast.prev]
    exact hr.cut hA' hB'
  refine ⟨hlast.represents.replace (Function.update_self _ _ _) hcut fun b' xs' hbb hxs' => ?_,
    fun fuel hfuel => listForEach_ring hcut hfuel⟩
  rw [Function.update_of_ne hbb] at hxs'
  have happart : ∀ x ∈ b' :: xs', x ∉ b :: (U ++ V ++ W) := hlast.represents.apart _ _ _ _ hxs' hb' hbb
  refine ⟨hxs', fun x hx => ⟨fun hm => happart x hx ?_, listDeleteEntry_sameAt hne ?_ ?_⟩⟩
  · simp only [List.mem_cons, List.mem_append] at hm ⊢
    tauto
  · rw [hlast.prev]
    rintro rfl
    exact happart _ hx hpm
  · rw [hlast.next]
    rintro rfl
    exact happart _ hx hnm

/-- The only node of a list is deleted twice, and another one was added in between: it is lost. -/
theorem second_delete_lost : ∃ (h' : Links (Fin 3)) (S' : Lists (Fin 3)), S' 0 = some [2] ∧
    Represents (listDeleteEntry 1 h') (Function.update S' 0 (some [])) ∧
      listForEach 0 0 (listDeleteEntry 1 h') = .ok [] := by
  obtain ⟨⟨h, S⟩, hrun, hS, hnext⟩ := ListRun.of_replay [.init (0 : Fin 3), .addTail 1 0] ⟨id, id⟩
    (fun s => s.2 0 = some [1] ∧
      (Runs.replay (fun (op : ListOp (Fin 3)) (s : Links (Fin 3) × Lists (Fin 3)) => op.Legal s.2 ∧ ¬ op.Takes 1)
        (fun op s => some (op.exec s.1, op.apply s.2)) [.addTail 2 0]
        ((ListOp.delete 1).exec s.1, (ListOp.delete 1).apply s.2)).any fun s' => s'.2 0 = some [2]) (by decide)
  have hexec : ∀ (op : ListOp (Fin 3)) (s s' : Links (Fin 3) × Lists (Fin 3)),
      some (op.exec s.1, op.apply s.2) = some s' → op.Step s s' := fun op s s' he => (Option.some.inj he).symm
  obtain ⟨⟨h', S'⟩, hops, hS'⟩ := Runs.Steps.of_replay (P := fun s' => s'.2 0 = some [2]) hexec hnext
  obtain ⟨hrep, hloop⟩ := second_delete (X := []) (Y := []) (U := []) (V := [2]) (W := []) hrun hS hops hS' rfl rfl
  exact ⟨h', S', hS', hrep, hloop 0 (Nat.le_refl _)⟩

end StaticRouter
