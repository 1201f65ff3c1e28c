import StaticRouter.LinkedList

/-!
# The intrusive lists hold the sequences

One operation touches the ring of its own list, so the rings of the others stand. From that the pointers
hold the sequences in every run, and the loops of `list.h` walk through them.
-/

namespace StaticRouter

open CMem Rings

variable {α : Type} [DecidableEq α]

/-! ## The writes -/

/-- The second statement of `list_delete_entry` reads back its own write for a node that points at itself
only. -/
theorem listDeleteEntry_eq {entry : α} {h : Links α} (hne : h.next entry ≠ entry) :
    listDeleteEntry entry h = ⟨Function.update h.next (h.prev entry) (h.next entry),
      Function.update h.prev (h.next entry) (h.prev entry)⟩ := by
  unfold listDeleteEntry setNext setPrev
  simp only [Function.update_of_ne (Ne.symm hne)]

theorem initListHead_sameAt {list x : α} (h : Links α) (hx : x ≠ list) : SameAt h (initListHead list h) x :=
  ⟨Function.update_of_ne hx _ _, Function.update_of_ne hx _ _⟩

theorem listInsert_sameAt {new prev next x : α} (h : Links α) (hn : x ≠ new) (hp : x ≠ prev) (hq : x ≠ next) :
    SameAt h (listInsert new prev next h) x := by
  unfold SameAt listInsert setNext setPrev
  simp only [Function.update_of_ne hn, Function.update_of_ne hp, Function.update_of_ne hq, and_self]

theorem listDeleteEntry_sameAt {entry x : α} {h : Links α} (hne : h.next entry ≠ entry)
    (hp : x ≠ h.prev entry) (hn : x ≠ h.next entry) : SameAt h (listDeleteEntry entry h) x := by
  rw [listDeleteEntry_eq hne]
  exact ⟨Function.update_of_ne hp _ _, Function.update_of_ne hn _ _⟩

/-! ## One operation -/

variable {h h' : Links α} {S S' : Lists α}

/-- The ring of `b` is replaced, and the other lists, which are lists of before, are left alone. -/
theorem Represents.replace (hS : Represents h S) {b : α} {ys : List α} (hb : S' b = some ys)
    (hring : Ring h' b ys)
    (hout : ∀ b' xs', b' ≠ b → S' b' = some xs' →
      S b' = some xs' ∧ ∀ x ∈ b' :: xs', x ∉ b :: ys ∧ SameAt h h' x) : Represents h' S' := by
  have hcase : ∀ b' xs', S' b' = some xs' → b' = b ∧ xs' = ys ∨
      S b' = some xs' ∧ ∀ x ∈ b' :: xs', x ∉ b :: ys ∧ SameAt h h' x := by
    intro b' xs' h'
    by_cases he : b' = b
    · subst he
      exact Or.inl ⟨rfl, Option.some.inj (h'.symm.trans hb)⟩
    · exact Or.inr (hout b' xs' he h')
  refine ⟨fun b' xs' h' => ?_, fun b₁ xs₁ b₂ xs₂ h₁ h₂ hne x hx₁ hx₂ => ?_⟩
  · rcases hcase b' xs' h' with ⟨rfl, rfl⟩ | ⟨hold, hsame⟩
    · exact hring
    · exact (hS.ring b' xs' hold).congr fun x hx => (hsame x hx).2
  · rcases hcase b₁ xs₁ h₁ with ⟨rfl, rfl⟩ | ⟨hold₁, hsame₁⟩
    · rcases hcase b₂ xs₂ h₂ with ⟨rfl, rfl⟩ | ⟨-, hsame₂⟩
      · exact hne rfl
      · exact (hsame₂ x hx₂).1 hx₁
    · rcases hcase b₂ xs₂ h₂ with ⟨rfl, rfl⟩ | ⟨hold₂, -⟩
      · exact (hsame₁ x hx₁).1 hx₂
      · exact hS.apart b₁ xs₁ b₂ xs₂ hold₁ hold₂ hne x hx₁ hx₂

theorem Represents.mem_eq (hS : Represents h S) {b b' x : α} {xs xs' : List α} (hb : S b = some xs)
    (hb' : S b' = some xs') (hx : x ∈ b :: xs) (hx' : x ∈ b' :: xs') : b = b' := by
  by_contra hne
  exact hS.apart b xs b' xs' hb hb' hne x hx hx'

omit [DecidableEq α] in
/-- A node that no list holds is on no other list's ring. -/
theorem Lists.Free.not_mem {x b : α} {xs : List α} (hx : S.Free x) (hb : S b = some xs) (hne : b ≠ x) :
    x ∉ b :: xs := by
  intro hm
  rcases List.mem_cons.mp hm with he | hm
  · exact hne he.symm
  · exact hx b xs hb hm

omit [DecidableEq α] in
/-- A node that can be added is on no list's ring but its own. -/
theorem ListOp.CanAdd.not_mem {new head b : α} {xs : List α} (hadd : ListOp.CanAdd S new head)
    (hb : S b = some xs) (hne : b ≠ new) : new ∉ b :: xs := hadd.2.2.1.not_mem hb hne

/-- A node that is linked in between two nodes of the ring of `head`. -/
theorem ListOp.frame_insert (hS : Represents h S) {new head prev next : α} {ys : List α}
    (hadd : ListOp.CanAdd S new head) (hys : S head = some ys) (hprev : prev ∈ head :: ys)
    (hnext : next ∈ head :: ys) {b : α} {xs : List α} (hb : S b = some xs) (hbh : b ≠ head) (hbn : b ≠ new)
    (zs : Option (List α)) : Function.update (Function.update S new none) head zs b = some xs ∧
      ∀ x ∈ b :: xs, SameAt h (listInsert new prev next h) x := by
  refine ⟨?_, fun x hx => listInsert_sameAt h (fun he => ?_) (fun he => ?_) fun he => ?_⟩
  · rw [Function.update_of_ne hbh, Function.update_of_ne hbn, hb]
  · exact hadd.not_mem hb hbn (he ▸ hx)
  · exact hbh (hS.mem_eq hb hys hx (he ▸ hprev))
  · exact hbh (hS.mem_eq hb hys hx (he ▸ hnext))

/-- The lists that an operation is not on are the same lists after it, with the same pointers. -/
theorem ListOp.frame (hS : Represents h S) {op : ListOp α} (hop : op.Legal S) {b : α} {xs : List α}
    (hb : S b = some xs) (hon : ¬ op.On S b) :
    op.apply S b = some xs ∧ ∀ x ∈ b :: xs, SameAt h (op.exec h) x := by
  cases op with
  | init list =>
    have hne : b ≠ list := hon
    refine ⟨(Function.update_of_ne hne _ _).trans hb, fun x hx => ?_⟩
    exact initListHead_sameAt h fun he => (hop : S.Free list).not_mem hb hne (he ▸ hx)
  | addHead new head =>
    obtain ⟨hbh, hbn⟩ := not_or.mp hon
    have hadd : ListOp.CanAdd S new head := hop
    obtain ⟨-, ⟨ys, hys⟩, -, -⟩ := id hadd
    have hnext := (hS.ring head ys hys).next_mem List.mem_cons_self
    exact ListOp.frame_insert hS hadd hys List.mem_cons_self hnext hb hbh hbn _
  | addTail new head =>
    obtain ⟨hbh, hbn⟩ := not_or.mp hon
    have hadd : ListOp.CanAdd S new head := hop
    obtain ⟨-, ⟨ys, hys⟩, -, -⟩ := id hadd
    have hprev := (hS.ring head ys hys).prev_mem List.mem_cons_self
    exact ListOp.frame_insert hS hadd hys hprev List.mem_cons_self hb hbh hbn _
  | delete entry =>
    obtain ⟨c, ys, hys, hentry⟩ := hop
    have hr := hS.ring c ys hys
    have hbc : b ≠ c := by
      rintro rfl
      exact hon ⟨ys, hys, hentry⟩
    have hmem : entry ∈ c :: ys := List.mem_cons_of_mem c hentry
    refine ⟨?_, fun x hx => ?_⟩
    · show (S b).map (·.erase entry) = some xs
      have hnot : entry ∉ xs := fun he => hbc (hS.mem_eq hb hys (List.mem_cons_of_mem b he) hmem)
      rw [hb, Option.map_some, List.erase_of_not_mem hnot]
    · refine listDeleteEntry_sameAt (hr.next_ne hentry) (fun he => ?_) fun he => ?_
      · exact hbc (hS.mem_eq hb hys hx (he ▸ hr.prev_mem hmem))
      · exact hbc (hS.mem_eq hb hys hx (he ▸ hr.next_mem hmem))

theorem initListHead_ring (list : α) (h : Links α) : Ring (initListHead list h) list [] :=
  Ring.nil (Function.update_self _ _ _) (Function.update_self _ _ _)

theorem listDeleteEntry_ring {b e : α} {X Y : List α} (hr : Ring h b (X ++ e :: Y)) :
    Ring (listDeleteEntry e h) b (X ++ Y) := by
  rw [listDeleteEntry_eq (hr.next_ne (by simp))]
  exact hr.unlink

/-- A node is added to the list of `head`, on whichever side. -/
theorem Represents.add (hS : Represents h S) {new head : α} {xs ys : List α}
    (hadd : ListOp.CanAdd S new head) (hxs : S head = some xs) (hring : Ring h' head ys)
    (hys : ∀ x ∈ ys, x = new ∨ x ∈ xs)
    (hsame : ∀ b xs', S b = some xs' → b ≠ head → b ≠ new → ∀ x ∈ b :: xs', SameAt h h' x) :
    Represents h' (Function.update (Function.update S new none) head (some ys)) := by
  refine hS.replace (Function.update_self _ _ _) hring fun b' xs' hne hb' => ?_
  rw [Function.update_of_ne hne] at hb'
  have hnew : b' ≠ new := by
    rintro rfl
    rw [Function.update_self] at hb'
    cases hb'
  rw [Function.update_of_ne hnew] at hb'
  refine ⟨hb', fun x hx => ⟨fun hm => ?_, hsame b' xs' hb' hne hnew x hx⟩⟩
  rcases List.mem_cons.mp hm with he | hm
  · exact hne (hS.mem_eq hb' hxs hx (he ▸ List.mem_cons_self))
  · rcases hys x hm with he | hm
    · exact hadd.not_mem hb' hnew (he ▸ hx)
    · exact hne (hS.mem_eq hb' hxs hx (List.mem_cons_of_mem head hm))

/-- The pointers hold the sequences after an operation if they did before it. -/
theorem Represents.exec (hS : Represents h S) {op : ListOp α} (hop : op.Legal S) :
    Represents (op.exec h) (op.apply S) := by
  have hframe : ∀ b xs, S b = some xs → ¬ op.On S b → ∀ x ∈ b :: xs, SameAt h (op.exec h) x :=
    fun b xs hb hon => (ListOp.frame hS hop hb hon).2
  cases op with
  | init list =>
    have hfree : S.Free list := hop
    refine hS.replace (b := list) (Function.update_self _ _ _) (initListHead_ring list h) fun b' xs' hne hb' => ?_
    have hold : S b' = some xs' := by
      rw [← hb']
      exact (Function.update_of_ne hne _ _).symm
    refine ⟨hold, fun x hx => ⟨fun hm => ?_, hframe b' xs' hold hne x hx⟩⟩
    exact hfree.not_mem hold hne (List.mem_singleton.mp hm ▸ hx)
  | addHead new head =>
    have hadd : ListOp.CanAdd S new head := hop
    obtain ⟨hnh, ⟨xs, hxs⟩, -, -⟩ := id hadd
    have hring : Ring (listAddHead new head h) head (new :: xs) :=
      (hS.ring head xs hxs).linkHead (hadd.not_mem hxs (Ne.symm hnh))
    show Represents _ (Function.update (Function.update S new none) head ((S head).map (new :: ·)))
    rw [hxs]
    exact hS.add hadd hxs hring (fun x hx => List.mem_cons.mp hx)
      fun b xs' hb hbh hbn => hframe b xs' hb (not_or.mpr ⟨hbh, hbn⟩)
  | addTail new head =>
    have hadd : ListOp.CanAdd S new head := hop
    obtain ⟨hnh, ⟨xs, hxs⟩, -, -⟩ := id hadd
    have hring : Ring (listAddTail new head h) head (xs ++ [new]) :=
      (hS.ring head xs hxs).linkTail (hadd.not_mem hxs (Ne.symm hnh))
    show Represents _ (Function.update (Function.update S new none) head ((S head).map (· ++ [new])))
    rw [hxs]
    refine hS.add hadd hxs hring (fun x hx => ?_)
      fun b xs' hb hbh hbn => hframe b xs' hb (not_or.mpr ⟨hbh, hbn⟩)
    rcases List.mem_append.mp hx with hx | hx
    · exact Or.inr hx
    · exact Or.inl (List.mem_singleton.mp hx)
  | delete entry =>
    obtain ⟨b, xs, hxs, hentry⟩ := id hop
    obtain ⟨X, Y, rfl⟩ := List.append_of_mem hentry
    have hr := hS.ring b _ hxs
    obtain ⟨-, hnd⟩ := List.nodup_cons.mp hr.nodup
    have herase : (X ++ entry :: Y).erase entry = X ++ Y := by
      rw [List.erase_append_right _ fun he => (List.nodup_append.mp hnd).2.2 entry he entry (by simp) rfl,
        List.erase_cons_head]
    have hb : ListOp.apply (.delete entry) S b = some (X ++ Y) := by
      show (S b).map (·.erase entry) = some (X ++ Y)
      rw [hxs, Option.map_some, herase]
    refine hS.replace hb (listDeleteEntry_ring hr) fun b' xs' hne hb' => ?_
    obtain ⟨ys, hys, hmap⟩ := Option.map_eq_some_iff.mp hb'
    have hnot : entry ∉ ys := fun he => hne (hS.mem_eq hys hxs (List.mem_cons_of_mem b' he) (by simp))
    rw [List.erase_of_not_mem hnot] at hmap
    subst hmap
    refine ⟨hys, fun x hx => ⟨fun hm => hne (hS.mem_eq hys hxs hx ?_), ?_⟩⟩
    · simp only [List.mem_cons, List.mem_append] at hm ⊢
      tauto
    · refine hframe b' ys hys ?_ x hx
      rintro ⟨zs, hzs, he⟩
      rw [hys] at hzs
      exact hnot (Option.some.inj hzs ▸ he)

/-- The pointers hold the sequences in every run. -/
theorem ListRun.represents {s : Links α × Lists α} (hrun : ListRun s) : Represents s.1 s.2 := by
  refine Runs.RunOf.invariant (I := fun s => Represents s.1 s.2) (fun s hs => ?_)
    (fun op s s' _ hop hS hstep => ?_) hrun
  · rw [hs]
    exact ⟨fun b xs hb => (nomatch hb), fun b xs b' xs' hb => (nomatch hb)⟩
  · rw [hstep]
    exact hS.exec hop

/-! ## The loops -/

/-- `list_for_each_entry` from a node of the list on. -/
theorem listForEachFrom_ring {b : α} {X Y : List α} (hr : Ring h b (X ++ Y)) {fuel : Nat}
    (hfuel : Y.length ≤ fuel) : listForEachFrom b h fuel ((Y ++ [b]).head (by simp)) = .ok Y := by
  induction Y generalizing X fuel with
  | nil => cases fuel <;> simp [listForEachFrom]
  | cons y Y ih =>
    obtain ⟨fuel, rfl⟩ : ∃ n, fuel = n + 1 := Nat.exists_eq_add_one.mpr (by simp at hfuel; omega)
    have hy : y ≠ b := fun he => (List.nodup_cons.mp hr.nodup).1 (he ▸ by simp)
    have hfuel' : Y.length ≤ fuel := by simpa using hfuel
    have hrest := ih (X := X ++ [y]) (by simpa using hr) hfuel'
    show listForEachFrom b h (fuel + 1) y = _
    rw [listForEachFrom, if_neg hy, hr.next_of, hrest]
    rfl

/-- Forward traversal yields the nodes of the ring in their order. -/
theorem listForEach_ring {b : α} {xs : List α} (hr : Ring h b xs) {fuel : Nat} (hfuel : xs.length ≤ fuel) :
    listForEach fuel b h = .ok xs := by
  unfold listForEach
  rw [hr.next_head]
  exact listForEachFrom_ring (X := []) hr hfuel

/-- The ring after the body has run for its first node, and the pointers that have changed. -/
theorem DeletesCurrent.round {body : α → Links α → Links α} (hbody : DeletesCurrent body) {b x : α}
    {xs : List α} (hr : Ring h b (x :: xs)) :
    Ring (body x h) b xs ∧ ∀ y, y ∉ b :: x :: xs → SameAt h (body x h) y := by
  have hx : x ∉ b :: xs := by
    obtain ⟨hb, hnd⟩ := List.nodup_cons.mp hr.nodup
    intro hm
    rcases List.mem_cons.mp hm with he | hm
    · exact hb (he ▸ List.mem_cons_self)
    · exact (List.nodup_cons.mp hnd).1 hm
  have hdel : Ring (listDeleteEntry x h) b xs := listDeleteEntry_ring (X := []) hr
  refine ⟨hdel.congr fun y hy => hbody x h y fun he => hx (he ▸ hy), fun y hy => ?_⟩
  have hmem : x ∈ b :: x :: xs := by simp
  have hyx : y ≠ x := fun he => hy (he ▸ hmem)
  have hsame := listDeleteEntry_sameAt (x := y) (hr.next_ne List.mem_cons_self)
    (fun he => hy (he ▸ hr.prev_mem hmem)) (fun he => hy (he ▸ hr.next_mem hmem))
  exact ⟨(hbody x h y hyx).1.trans hsame.1, (hbody x h y hyx).2.trans hsame.2⟩

omit [DecidableEq α] in
/-- What two rounds leave alone. -/
theorem sameAt_trans {h₁ h₂ : Links α} {b x : α} {xs : List α}
    (h₁₂ : ∀ y, y ∉ b :: x :: xs → SameAt h h₁ y) (h₂₃ : ∀ y, y ∉ b :: xs → SameAt h₁ h₂ y) :
    ∀ y, y ∉ b :: x :: xs → SameAt h h₂ y := by
  intro y hy
  have hyxs : y ∉ b :: xs := by
    simp only [List.mem_cons, not_or] at hy ⊢
    exact ⟨hy.1, hy.2.2⟩
  exact ⟨(h₂₃ y hyxs).1.trans (h₁₂ y hy).1, (h₂₃ y hyxs).2.trans (h₁₂ y hy).2⟩

/-- `list_for_each_entry_safe` with a body that deletes the current node. The saved pointer is the one that
the head has after the body has run. -/
theorem listForEachSafeFrom_delete {body : α → Links α → Links α} (hbody : DeletesCurrent body) {b : α}
    {xs : List α} (hr : Ring h b xs) (v : List α) {fuel : Nat} (hfuel : xs.length ≤ fuel) :
    ∃ h', listForEachSafeFrom Walk.links (Walk.visit body) b fuel (h.next b) (h.next (h.next b)) ⟨h, v⟩ =
        .ok ⟨h', v ++ xs⟩ ∧ Ring h' b [] ∧ ∀ x, x ∉ b :: xs → SameAt h h' x := by
  induction xs generalizing h v fuel with
  | nil =>
    have hb : h.next b = b := hr.next_head
    refine ⟨h, ?_, hr, fun x _ => ⟨rfl, rfl⟩⟩
    rw [hb, List.append_nil]
    cases fuel <;> simp [listForEachSafeFrom]
  | cons x xs ih =>
    obtain ⟨fuel, rfl⟩ : ∃ n, fuel = n + 1 := Nat.exists_eq_add_one.mpr (by simp at hfuel; omega)
    have hfuel' : xs.length ≤ fuel := by simpa using hfuel
    obtain ⟨hring, hsame⟩ := hbody.round hr
    obtain ⟨h', hloop, hring', hsame'⟩ := ih hring (v ++ [x]) hfuel'
    have hpos : h.next b = x := hr.next_head
    have hq : h.next x = (body x h).next b := by
      have hx : h.next x = (xs ++ [b]).head (by simp) := hr.next_of (X := [])
      rw [hx, hring.next_head]
    have hxb : x ≠ b := fun he => (List.nodup_cons.mp hr.nodup).1 (he ▸ List.mem_cons_self)
    refine ⟨h', ?_, hring', sameAt_trans hsame hsame'⟩
    rw [hpos, hq, listForEachSafeFrom, if_neg hxb, Walk.visit, ok_bind, hloop, List.append_assoc]
    rfl

/-! ## Lists that are emptied -/

/-- The list of `b` has been emptied. -/
theorem Represents.emptied (hS : Represents h S) {b : α} {xs : List α} (hb : S b = some xs)
    (hring : Ring h' b []) (hsame : ∀ x, x ∉ b :: xs → SameAt h h' x) :
    Represents h' (Function.update S b (some [])) := by
  refine hS.replace (Function.update_self _ _ _) hring fun b' xs' hne hb' => ?_
  rw [Function.update_of_ne hne] at hb'
  refine ⟨hb', fun x hx => ⟨fun hm => ?_, hsame x fun hm => hne (hS.mem_eq hb' hb hx hm)⟩⟩
  exact hne (hS.mem_eq hb' hb hx (List.mem_singleton.mp hm ▸ List.mem_cons_self))

/-- **The intrusive lists hold the sequences.** After any operations as the lists allow them, every list is a
ring in which the two pointers undo each other, and traversal yields its sequence. An operation leaves the
lists that it is not on alone. A safe traversal that deletes the current node visits each node of the list
once and ends at the head of the empty list, whatever deleted nodes are left with. -/
theorem intrusiveLists_refine {h : Links α} {S : Lists α} (hrun : ListRun (h, S)) :
    Represents h S ∧
    (∀ b xs, S b = some xs → xs.Nodup ∧ (∀ x ∈ b :: xs, h.prev (h.next x) = x ∧ h.next (h.prev x) = x) ∧
      ∀ fuel, xs.length ≤ fuel → listForEach fuel b h = .ok xs) ∧
    (∀ op : ListOp α, op.Legal S → ∀ b xs, S b = some xs → ¬ op.On S b →
      op.apply S b = some xs ∧ ∀ x ∈ b :: xs, SameAt h (op.exec h) x) ∧
    ∀ body, DeletesCurrent body → ∀ b xs, S b = some xs → ∀ fuel, xs.length ≤ fuel →
      ∃ h', listForEachSafe Walk.links (Walk.visit body) fuel b ⟨h, []⟩ = .ok ⟨h', xs⟩ ∧
        Represents h' (Function.update S b (some [])) ∧ ∀ x, x ∉ b :: xs → SameAt h h' x := by
  have hS : Represents h S := ListRun.represents hrun
  refine ⟨hS, fun b xs hb => ?_, fun op hop b xs hb hon => ListOp.frame hS hop hb hon,
    fun body hbody b xs hb fuel hfuel => ?_⟩
  · have hr := hS.ring b xs hb
    exact ⟨(List.nodup_cons.mp hr.nodup).2, fun x hx => ⟨hr.prev_next hx, hr.next_prev hx⟩,
      fun fuel hfuel => listForEach_ring hr hfuel⟩
  · obtain ⟨h', hloop, hring, hsame⟩ := listForEachSafeFrom_delete hbody (hS.ring b xs hb) [] hfuel
    exact ⟨h', hloop, hS.emptied hb hring hsame, hsame⟩

/-- What a computed sequence of operations shows of its last state. -/
theorem ListRun.of_replay [Fintype α] (ops : List (ListOp α)) (h : Links α) (P : Links α × Lists α → Prop)
    [DecidablePred P] (hp : (Runs.replay (fun op s => op.Legal s.2) (fun op s => some (op.exec s.1, op.apply s.2))
      ops (h, fun _ => none)).any (P ·) = true) : ∃ s, ListRun s ∧ P s := by
  have hexec : ∀ (op : ListOp α) (s s' : Links α × Lists α),
      some (op.exec s.1, op.apply s.2) = some s' → op.Step s s' := fun op s s' he => (Option.some.inj he).symm
  refine Runs.RunOf.of_replay hexec ops ?_ P hp
  rfl

/-- Two lists, and a node that is taken off one and put on the other, in front of which a third one goes. -/
theorem intrusiveLists_refine_moved :
    ∃ s : Links (Fin 5) × Lists (Fin 5), s.2 0 = some [3] ∧ s.2 1 = some [4, 2] ∧
      listForEach 2 1 s.1 = .ok [4, 2] ∧
      ∃ h', listForEachSafe Walk.links (Walk.visit listDeleteEntry) 2 1 ⟨s.1, []⟩ = .ok ⟨h', [4, 2]⟩ ∧
        Represents h' (Function.update s.2 1 (some [])) := by
  obtain ⟨⟨h, S⟩, hrun, h0, h1⟩ := ListRun.of_replay
    [.init (0 : Fin 5), .init 1, .addTail 2 0, .addTail 3 0, .delete 2, .addHead 2 1, .addHead 4 1] ⟨id, id⟩
    (fun s => s.2 0 = some [3] ∧ s.2 1 = some [4, 2]) (by decide)
  obtain ⟨-, hlists, -, hsafe⟩ := intrusiveLists_refine hrun
  obtain ⟨h', hloop, hrep, -⟩ := hsafe listDeleteEntry (fun _ _ _ _ => ⟨rfl, rfl⟩) 1 _ h1 2 (by decide)
  exact ⟨(h, S), h0, h1, (hlists 1 _ h1).2.2 2 (by decide), h', hloop, hrep⟩

end StaticRouter
