import Mathlib.Data.List.Sort
import StaticRouter.Proofs.RunProofs
import StaticRouter.History

/-!
# Proofs: the history is consistent, and first come is first served

The history only grows. The packets for one next hop leave in the order of their submission: what waits
was submitted after everything that was sent.
-/

namespace StaticRouter

open CMem

variable {rtable : List RtEntry} {C : Input → Router → Prop}

/-! ## Events -/

/-- An action only adds to the history. -/
theorem Does.trace {act : Act} {st st' : Store} (h : Does act st st') :
    ∃ new, st'.router.trace = st.router.trace ++ new := by
  cases h with
  | env => exact ⟨[], (List.append_nil _).symm⟩
  | expire => exact ⟨[], (List.append_nil _).symm⟩
  | retry => exact ⟨[], (List.append_nil _).symm⟩
  | begin => exact ⟨[], (List.append_nil _).symm⟩
  | originate => exact ⟨_, rfl⟩
  | arp => exact ⟨_, rfl⟩
  | giveUp => exact ⟨_, rfl⟩
  | unlink => exact ⟨_, rfl⟩
  | submit ph hs =>
    obtain ⟨q, -, ⟨mac, frame, -, -, rfl⟩ | ⟨-, -, rfl⟩ | ⟨-, -, rfl⟩⟩ := ifaceSendPacketByArp_cases hs
    · exact ⟨_, List.append_assoc _ _ _⟩
    · exact ⟨_, List.append_assoc _ _ _⟩
    · exact ⟨_, by rw [List.append_assoc, List.append_assoc, List.append_assoc]⟩
  | learn hi =>
    obtain ⟨-, rfl⟩ := arpcacheInsert_ok hi
    exact ⟨_, rfl⟩

section Flush

variable (ip4 : UInt32) (mac : Mac)

@[simp] theorem submissions_flush (reqs : List ArpReq) :
    submissions (reqs.flatMap (flushEvents ip4 mac)) = [] := by
  rw [submissions, List.filterMap_eq_nil_iff]
  intro e he
  obtain ⟨r, -, he⟩ := List.mem_flatMap.mp he
  obtain ⟨p, -, rfl⟩ := List.mem_map.mp he
  rfl

@[simp] theorem queuedTags_flush (reqs : List ArpReq) :
    queuedTags (reqs.flatMap (flushEvents ip4 mac)) = [] := by
  rw [queuedTags, List.filterMap_eq_nil_iff]
  intro e he
  obtain ⟨r, -, he⟩ := List.mem_flatMap.mp he
  obtain ⟨p, -, rfl⟩ := List.mem_map.mp he
  rfl

@[simp] theorem givenUp_flush (reqs : List ArpReq) :
    givenUp (reqs.flatMap (flushEvents ip4 mac)) = [] := by
  rw [givenUp, List.filterMap_eq_nil_iff]
  intro e he
  obtain ⟨r, -, he⟩ := List.mem_flatMap.mp he
  obtain ⟨p, -, rfl⟩ := List.mem_map.mp he
  rfl

/-- What waits for the learned address is sent, in order. -/
@[simp] theorem flushes_flush (reqs : List ArpReq) :
    flushes (reqs.flatMap (flushEvents ip4 mac)) = (waiting reqs).map fun n => (n, ip4) := by
  induction reqs with
  | nil => rfl
  | cons r reqs ih =>
    have hr : flushes (flushEvents ip4 mac r) = r.tags.map fun n => (n, ip4) := by
      simp only [flushes, flushEvents, ArpReq.tags, List.filterMap_map, List.map_map]
      exact List.filterMap_eq_map.symm ▸ rfl
    rw [List.flatMap_cons, flushes_append, ih, hr, waiting, waiting, List.flatMap_cons, List.map_append]

@[simp] theorem sentTags_flush (reqs : List ArpReq) :
    sentTags (reqs.flatMap (flushEvents ip4 mac)) = waiting reqs := by
  induction reqs with
  | nil => rfl
  | cons r reqs ih =>
    have hr : sentTags (flushEvents ip4 mac r) = r.tags := by
      simp only [sentTags, flushEvents, ArpReq.tags, List.filterMap_map]
      exact List.filterMap_eq_map.symm ▸ rfl
    rw [List.flatMap_cons, sentTags_append, ih, hr, waiting, waiting, List.flatMap_cons]

end Flush

/-! ## The history is consistent -/

namespace Store.Recorded

variable {st st' : Store}

theorem eq_of_tag (h : st.Recorded) {n : Nat} {i i' : Iface} {d d' : UInt32} {p p' : Frame}
    (hx : (n, i, d, p) ∈ submissions st.router.trace)
    (hx' : (n, i', d', p') ∈ submissions st.router.trace) : i = i' ∧ d = d' ∧ p = p' := by
  have hnd : ((submissions st.router.trace).map (·.1)).Nodup := h.increasing.imp Nat.ne_of_lt
  simpa using List.inj_on_of_nodup_map hnd hx hx' rfl

/-- An action that submits nothing and queues nothing. -/
theorem unchanged (h : st.Recorded) {new : List Event}
    (htr : st'.router.trace = st.router.trace ++ new) (hsub : submissions new = [])
    (hsent : ∀ n ∈ sentTags new, n < st.router.next) (hn : st'.router.next = st.router.next)
    (hr : ∀ r ∈ st'.router.reqList, ∃ r₀ ∈ st.router.reqList, r₀.ip4 = r.ip4 ∧
      ∀ p ∈ r.cachedPackets, p ∈ r₀.cachedPackets) : st'.Recorded := by
  have hsame : submissions st'.router.trace = submissions st.router.trace := by
    rw [htr, submissions_append, hsub, List.append_nil]
  refine ⟨?_, ?_, ?_, ?_⟩
  · rw [hsame]
    exact h.increasing
  · rw [hsame, hn]
    exact h.old
  · intro n hn'
    rw [htr, sentTags_append, List.mem_append] at hn'
    rw [hn]
    rcases hn' with hn' | hn'
    · exact h.sent n hn'
    · exact hsent n hn'
  · intro r hr' p hp
    obtain ⟨r₀, hr₀, hip, hsub⟩ := hr r hr'
    rw [hsame, ← hip]
    exact h.waiting r₀ hr₀ p (hsub p hp)

/-- A submission, whose packet is sent or waits. -/
theorem submitted (h : st.Recorded) {iface : Iface} {dst : UInt32} {packet : Frame} {new : List Event}
    (htr : st'.router.trace = st.router.trace ++ new)
    (hsub : submissions new = [(st.router.next, iface, dst, packet)])
    (hsent : ∀ n ∈ sentTags new, n = st.router.next) (hn : st'.router.next = st.router.next + 1)
    (hr : ∀ r ∈ st'.router.reqList, ∀ p ∈ r.cachedPackets,
      (∃ r₀ ∈ st.router.reqList, r₀.ip4 = r.ip4 ∧ p ∈ r₀.cachedPackets) ∨
        r.ip4 = dst ∧ p.tag = st.router.next ∧ Filled iface packet p.packet) : st'.Recorded := by
  have hall : submissions st'.router.trace =
      submissions st.router.trace ++ [(st.router.next, iface, dst, packet)] := by
    rw [htr, submissions_append, hsub]
  refine ⟨?_, ?_, ?_, ?_⟩
  · rw [hall, List.map_append, List.pairwise_append]
    refine ⟨h.increasing, List.pairwise_singleton _ _, ?_⟩
    intro n hn n' hn'
    obtain ⟨x, hx, rfl⟩ := List.mem_map.mp hn
    rw [List.mem_singleton.mp hn']
    exact h.old x hx
  · rw [hall, hn]
    intro x hx
    rcases List.mem_append.mp hx with hx | hx
    · exact Nat.lt_succ_of_lt (h.old x hx)
    · rw [List.mem_singleton.mp hx]
      exact Nat.lt_succ_self _
  · intro n hn'
    rw [htr, sentTags_append, List.mem_append] at hn'
    rw [hn]
    rcases hn' with hn' | hn'
    · exact Nat.lt_succ_of_lt (h.sent n hn')
    · rw [hsent n hn']
      exact Nat.lt_succ_self _
  · intro r hr' p hp
    rw [hall]
    rcases hr r hr' p hp with ⟨r₀, hr₀, hip, hp₀⟩ | ⟨hip, htag, hfill⟩
    · obtain ⟨i, pk, hm, hf⟩ := h.waiting r₀ hr₀ p hp₀
      exact ⟨i, pk, List.mem_append_left _ (hip ▸ hm), hf⟩
    · exact ⟨iface, packet, List.mem_append_right _ (by rw [htag, hip]; exact List.mem_singleton.mpr rfl),
        hfill⟩

/-- Every action keeps the history consistent. -/
theorem does {act : Act} (h : st.Recorded) (hw : st.Wf) (hd : Does act st st') : st'.Recorded := by
  have hsame : ∀ r ∈ st.router.reqList, ∃ r₀ ∈ st.router.reqList, r₀.ip4 = r.ip4 ∧
      ∀ p ∈ r.cachedPackets, p ∈ r₀.cachedPackets := fun r hr => ⟨r, hr, rfl, fun _ => id⟩
  have hnone : ∀ n ∈ ([] : List Nat), n < st.router.next := fun n hn => by cases hn
  cases hd with
  | env => exact h.unchanged (List.append_nil _).symm rfl hnone rfl hsame
  | originate => exact h.unchanged rfl rfl hnone rfl hsame
  | arp => exact h.unchanged rfl rfl hnone rfl hsame
  | @submit s s' iface dst packet ph hs =>
    obtain ⟨q, hq, ⟨mac, frame, -, -, rfl⟩ | ⟨-, -, rfl⟩ | ⟨-, -, rfl⟩⟩ := ifaceSendPacketByArp_cases hs
    · refine h.submitted (List.append_assoc _ _ _) rfl ?_ rfl ?_
      · intro n hn
        exact List.mem_singleton.mp hn
      · exact fun r hr p hp => Or.inl ⟨r, hr, rfl, hp⟩
    · refine h.submitted (List.append_assoc _ _ _) rfl ?_ rfl ?_
      · intro n hn
        cases hn
      · intro r hr p hp
        obtain ⟨r₀, hr₀, rfl⟩ := List.mem_map.mp hr
        split_ifs at hp ⊢ with hip
        · rcases List.mem_append.mp hp with hp | hp
          · exact Or.inl ⟨r₀, hr₀, rfl, hp⟩
          · rw [List.mem_singleton.mp hp]
            exact Or.inr ⟨hip, rfl, hq⟩
        · exact Or.inl ⟨r₀, hr₀, rfl, hp⟩
    · refine h.submitted (by rw [List.append_assoc, List.append_assoc, List.append_assoc]) rfl ?_ rfl ?_
      · intro n hn
        cases hn
      · intro r hr p hp
        rcases List.mem_append.mp hr with hr | hr
        · exact Or.inl ⟨r, hr, rfl, hp⟩
        · rw [List.mem_singleton.mp hr] at hp ⊢
          rw [List.mem_singleton.mp hp]
          exact Or.inr ⟨rfl, rfl, hq⟩
  | @learn s s' ip4 mac hi =>
    obtain ⟨-, rfl⟩ := arpcacheInsert_ok hi
    refine h.unchanged rfl (submissions_flush ip4 mac _) ?_ rfl
      fun r hr => ⟨r, List.mem_of_mem_filter hr, rfl, fun _ => id⟩
    intro n hn
    rw [sentTags_flush] at hn
    obtain ⟨r, hr, hn⟩ := List.mem_flatMap.mp hn
    obtain ⟨p, hp, rfl⟩ := List.mem_map.mp hn
    exact hw.oldTags r (List.mem_of_mem_filter hr) p hp
  | expire => exact h.unchanged (List.append_nil _).symm rfl hnone rfl hsame
  | retry =>
    refine h.unchanged (List.append_nil _).symm rfl hnone rfl fun r hr => ?_
    obtain ⟨r₀, hr₀, rfl⟩ := List.mem_map.mp hr
    refine ⟨r₀, hr₀, ?_, ?_⟩ <;> split_ifs <;> first | rfl | exact fun _ => id
  | begin => exact h.unchanged (List.append_nil _).symm rfl hnone rfl hsame
  | giveUp =>
    refine h.unchanged rfl rfl hnone rfl fun r hr => ?_
    obtain ⟨r₀, hr₀, rfl⟩ := List.mem_map.mp hr
    refine ⟨r₀, hr₀, ?_, ?_⟩ <;> split_ifs
    · rfl
    · rfl
    · exact fun p hp => List.mem_of_mem_filter hp
    · exact fun _ => id
  | unlink => exact h.unchanged rfl rfl hnone rfl fun r hr => ⟨r, List.mem_of_mem_filter hr, rfl, fun _ => id⟩

theorem path {G : Act → Store → Prop} (h : st.Recorded) (hw : st.Wf) (hp : Path G st st') : st'.Recorded :=
  (hp.invariant (I := fun st => st.Wf ∧ st.Recorded) (fun _ _ _ _ hi hd => ⟨hi.1.does hd, hi.2.does hi.1 hd⟩)
    ⟨hw, h⟩).2

/-- The history is consistent at the start. -/
theorem init (env : Env) : Recorded ⟨arpcacheInit env, none⟩ := by
  constructor <;> simp [arpcacheInit, submissions, sentTags]

end Store.Recorded

/-- The history is consistent in every run. -/
theorem RunOf.recorded {s : Router} (h : RunOf rtable C s) : Store.Recorded ⟨s, none⟩ :=
  h.invariant (G := fun _ _ => True) Store.Recorded.init (fun _ _ _ _ _ _ _ => trivial)
    fun _ _ _ hw _ hr hd => hr.does hw hd

/-! ## First come, first served -/

/-- At most one request is for an address. -/
theorem Store.Wf.requestsFor {st : Store} (h : st.Wf) (d : UInt32) :
    st.router.reqList.filter (·.ip4 = d) = [] ∨
      ∃ r ∈ st.router.reqList, r.ip4 = d ∧ st.router.reqList.filter (·.ip4 = d) = [r] := by
  rcases hf : st.router.reqList.filter (·.ip4 = d) with _ | ⟨r, rest⟩
  · exact Or.inl hf
  · have hmem : ∀ x ∈ r :: rest, x ∈ st.router.reqList ∧ x.ip4 = d := by
      intro x hx
      rw [← hf] at hx
      exact ⟨List.mem_of_mem_filter hx, by simpa using (List.mem_filter.mp hx).2⟩
    have hnd : ((r :: rest).map (·.ip4)).Nodup := by
      rw [← hf]; exact h.ip4s.sublist (List.filter_sublist.map _)
    have hrest : rest = [] := by
      rw [List.eq_nil_iff_forall_not_mem]
      intro x hx
      rw [List.map_cons, List.nodup_cons] at hnd
      refine hnd.1 (List.mem_map.mpr ⟨x, hx, ?_⟩)
      exact (hmem x (List.mem_cons_of_mem r hx)).2.trans (hmem r List.mem_cons_self).2.symm
    have hr := hmem r List.mem_cons_self
    exact Or.inr ⟨r, hr.1, hr.2, by rw [hf, hrest]⟩

/-- What was sent to a next hop left in the order of submission, and what waits for it came later. -/
structure Store.Fifo (st : Store) : Prop where
  sorted : ∀ d, (transmittedTo d st.router.trace).Pairwise (· < ·)
  behind : ∀ r ∈ st.router.reqList, ∀ n ∈ transmittedTo r.ip4 st.router.trace,
    ∀ p ∈ r.cachedPackets, n < p.tag

theorem mem_transmittedTo {n : Nat} {d : UInt32} {tr : List Event} :
    n ∈ transmittedTo d tr ↔ n ∈ sentTags tr ∧ n ∈ submittedTo d tr := by
  simp [transmittedTo]

/-- Events that submit nothing of what was sent before them. -/
theorem transmittedTo_append {d : UInt32} {tr tr' : List Event}
    (h : ∀ n ∈ sentTags tr, n ∉ submittedTo d tr') : transmittedTo d (tr ++ tr') =
      transmittedTo d tr ++ (sentTags tr').filter (· ∈ submittedTo d (tr ++ tr')) := by
  rw [transmittedTo, transmittedTo, sentTags_append, List.filter_append]
  congr 1
  refine List.filter_congr fun n hn => ?_
  simp [submittedTo_append, h n hn]

namespace Store.Fifo

variable {st st' : Store}

/-- An action that sends nothing of what was submitted. -/
theorem unsent (h : st.Fifo) (hrec : st.Recorded)
    (htr : ∀ d, transmittedTo d st'.router.trace = transmittedTo d st.router.trace)
    (hr : ∀ r ∈ st'.router.reqList, ∀ p ∈ r.cachedPackets,
      (∃ r₀ ∈ st.router.reqList, r₀.ip4 = r.ip4 ∧ p ∈ r₀.cachedPackets) ∨ p.tag = st.router.next) :
    st'.Fifo where
  sorted d := htr d ▸ h.sorted d
  behind r hr' n hn p hp := by
    rw [htr] at hn
    rcases hr r hr' p hp with ⟨r₀, hr₀, hip, hp₀⟩ | htag
    · exact h.behind r₀ hr₀ n (hip ▸ hn) p hp₀
    · rw [htag]
      exact hrec.sent n (mem_transmittedTo.mp hn).1

/-- A packet that is sent on a cache hit overtakes no other: nothing waits for its next hop. -/
theorem direct (h : st.Fifo) (hrec : st.Recorded) {iface : Iface} {dst : UInt32} {packet frame : Frame}
    (htr : st'.router.trace = st.router.trace ++ [.submitted st.router.next iface dst packet] ++
      [.sent iface frame (.direct st.router.next)])
    (hreq : st'.router.reqList = st.router.reqList) (hidle : ∀ r ∈ st.router.reqList, r.ip4 ≠ dst) :
    st'.Fifo := by
  have hnew : ∀ d, transmittedTo d st'.router.trace = transmittedTo d st.router.trace ++
      if dst = d then [st.router.next] else [] := by
    intro d
    have hsub : submittedTo d [.submitted st.router.next iface dst packet,
        .sent iface frame (.direct st.router.next)] = if dst = d then [st.router.next] else [] := by
      by_cases hd : dst = d <;> simp [submittedTo, submissions, hd]
    rw [htr, List.append_assoc, List.singleton_append, transmittedTo_append]
    · have hold : st.router.next ∉ submittedTo d st.router.trace := by
        intro hm
        obtain ⟨i, p, hx⟩ := mem_submittedTo.mp hm
        exact Nat.lt_irrefl _ (hrec.old _ hx)
      rw [submittedTo_append, hsub]
      split_ifs <;> simp [sentTags, Origin.tag?, hold]
    · intro n hn
      have := hrec.sent n hn
      rw [hsub]
      split_ifs
      · rw [List.mem_singleton]; omega
      · exact List.not_mem_nil
  refine ⟨fun d => ?_, fun r hr n hn p hp => ?_⟩
  · rw [hnew, List.pairwise_append]
    refine ⟨h.sorted d, by split_ifs <;> simp, fun n hn n' hn' => ?_⟩
    split_ifs at hn'
    · rw [List.mem_singleton.mp hn']
      exact hrec.sent n (mem_transmittedTo.mp hn).1
    · cases hn'
  · rw [hreq] at hr
    rw [hnew, if_neg (hidle r hr).symm, List.append_nil] at hn
    exact h.behind r hr n hn p hp

/-- What waits for an address leaves in its order when the address is learned. -/
theorem learn (h : st.Fifo) (hw : st.Wf) (hrec : st.Recorded) {ip4 : UInt32} {mac : Mac}
    (htr : st'.router.trace = st.router.trace ++
      (st.router.reqList.filter (·.ip4 = ip4)).flatMap (flushEvents ip4 mac))
    (hreq : st'.router.reqList = st.router.reqList.filter (·.ip4 ≠ ip4)) : st'.Fifo := by
  have hmem : ∀ n ∈ waiting (st.router.reqList.filter (·.ip4 = ip4)), ∃ r ∈ st.router.reqList,
      r.ip4 = ip4 ∧ ∃ p ∈ r.cachedPackets, p.tag = n := by
    intro n hn
    obtain ⟨r, hr, hn⟩ := List.mem_flatMap.mp hn
    obtain ⟨hr, hip⟩ := List.mem_filter.mp hr
    exact ⟨r, hr, by simpa using hip, List.mem_map.mp hn⟩
  have hnew : ∀ d, transmittedTo d st'.router.trace = transmittedTo d st.router.trace ++
      (waiting (st.router.reqList.filter (·.ip4 = ip4))).filter
        (· ∈ submittedTo d st.router.trace) := by
    intro d
    have hsub : submittedTo d ((st.router.reqList.filter (·.ip4 = ip4)).flatMap (flushEvents ip4 mac)) =
        [] := by
      rw [submittedTo, submissions_flush]; rfl
    rw [htr, transmittedTo_append (by rw [hsub]; simp), sentTags_flush, submittedTo_append, hsub,
      List.append_nil]
  refine ⟨fun d => ?_, fun r hr n hn p hp => ?_⟩
  · rw [hnew, List.pairwise_append]
    refine ⟨h.sorted d, ?_, fun n hn n' hn' => ?_⟩
    · refine List.Pairwise.filter _ ?_
      rcases hw.requestsFor ip4 with hf | ⟨r, hr, -, hf⟩
      · rw [hf]; exact List.Pairwise.nil
      · rw [hf, waiting, List.flatMap_cons, List.flatMap_nil, List.append_nil]
        exact hw.ordered r hr
    · obtain ⟨hw', hs'⟩ := List.mem_filter.mp hn'
      obtain ⟨r, hr, hip, p, hp, rfl⟩ := hmem n' hw'
      obtain ⟨i, pk, hx, -⟩ := hrec.waiting r hr p hp
      obtain ⟨i', pk', hx'⟩ := mem_submittedTo.mp (by simpa using hs')
      have hd := (hrec.eq_of_tag hx hx').2.1
      exact h.behind r hr n (by rw [hd]; exact hn) p hp
  · rw [hreq] at hr
    obtain ⟨hr, hip⟩ := List.mem_filter.mp hr
    rw [hnew] at hn
    rcases List.mem_append.mp hn with hn | hn
    · exact h.behind r hr n hn p hp
    · exfalso
      obtain ⟨hw', hs'⟩ := List.mem_filter.mp hn
      obtain ⟨r', hr', hip', p', hp', rfl⟩ := hmem n hw'
      obtain ⟨i, pk, hx, -⟩ := hrec.waiting r' hr' p' hp'
      obtain ⟨i', pk', hx'⟩ := mem_submittedTo.mp (by simpa using hs')
      have hd := (hrec.eq_of_tag hx hx').2.1
      simp [← hd, hip'] at hip

/-- Every action keeps the order. -/
theorem does {act : Act} (h : st.Fifo) (hw : st.Wf) (hrec : st.Recorded) (hd : Does act st st') :
    st'.Fifo := by
  have hsame : ∀ r ∈ st.router.reqList, ∀ p ∈ r.cachedPackets,
      (∃ r₀ ∈ st.router.reqList, r₀.ip4 = r.ip4 ∧ p ∈ r₀.cachedPackets) ∨ p.tag = st.router.next :=
    fun r hr p hp => Or.inl ⟨r, hr, rfl, hp⟩
  have hquiet : ∀ {new : List Event}, sentTags new = [] → (submissions new).map (·.1) ⊆ [st.router.next] →
      ∀ d, transmittedTo d (st.router.trace ++ new) = transmittedTo d st.router.trace := by
    intro new hs hsub d
    rw [transmittedTo_append, hs, List.filter_nil, List.append_nil]
    intro n hn hm
    obtain ⟨i, p, hx⟩ := mem_submittedTo.mp hm
    have h₁ := hsub (List.mem_map_of_mem hx)
    have h₂ := hrec.sent n hn
    rw [List.mem_singleton] at h₁
    simp only at h₁
    omega
  cases hd with
  | env => exact h.unsent hrec (fun _ => rfl) hsame
  | originate => exact h.unsent hrec (hquiet rfl (List.nil_subset _)) hsame
  | arp => exact h.unsent hrec (hquiet rfl (List.nil_subset _)) hsame
  | @submit s s' iface dst packet ph hs =>
    obtain ⟨q, hq, ⟨mac, frame, hl, -, rfl⟩ | ⟨-, -, rfl⟩ | ⟨-, -, rfl⟩⟩ :=
      ifaceSendPacketByArp_cases hs
    · refine h.direct hrec rfl rfl fun r hr hip => ?_
      have hc := hw.cold r hr
      rw [hip, hl] at hc
      cases hc
    · refine h.unsent hrec ?_ fun r hr p hp => ?_
      · simp only [List.append_assoc]
        exact hquiet rfl (List.Subset.refl _)
      · obtain ⟨r₀, hr₀, rfl⟩ := List.mem_map.mp hr
        split_ifs at hp ⊢
        · rcases List.mem_append.mp hp with hp | hp
          · exact Or.inl ⟨r₀, hr₀, rfl, hp⟩
          · rw [List.mem_singleton.mp hp]
            exact Or.inr rfl
        · exact Or.inl ⟨r₀, hr₀, rfl, hp⟩
    · refine h.unsent hrec ?_ fun r hr p hp => ?_
      · simp only [List.append_assoc]
        exact hquiet rfl (List.Subset.refl _)
      · rcases List.mem_append.mp hr with hr | hr
        · exact Or.inl ⟨r, hr, rfl, hp⟩
        · rw [List.mem_singleton.mp hr] at hp
          rw [List.mem_singleton.mp hp]
          exact Or.inr rfl
  | learn hi =>
    obtain ⟨-, rfl⟩ := arpcacheInsert_ok hi
    exact h.learn hw hrec rfl rfl
  | expire => exact h.unsent hrec (fun _ => rfl) hsame
  | retry =>
    refine h.unsent hrec (fun _ => rfl) fun r hr p hp => ?_
    obtain ⟨r₀, hr₀, rfl⟩ := List.mem_map.mp hr
    split_ifs at hp ⊢ <;> exact Or.inl ⟨r₀, hr₀, rfl, hp⟩
  | begin => exact h.unsent hrec (fun _ => rfl) hsame
  | giveUp =>
    refine h.unsent hrec (hquiet rfl (List.nil_subset _)) fun r hr p hp => ?_
    obtain ⟨r₀, hr₀, rfl⟩ := List.mem_map.mp hr
    split_ifs at hp ⊢
    · exact Or.inl ⟨r₀, hr₀, rfl, List.mem_of_mem_filter hp⟩
    · exact Or.inl ⟨r₀, hr₀, rfl, hp⟩
  | unlink =>
    exact h.unsent hrec (hquiet rfl (List.nil_subset _))
      fun r hr p hp => Or.inl ⟨r, List.mem_of_mem_filter hr, rfl, hp⟩

/-- Nothing was sent at the start. -/
theorem init (env : Env) : Fifo ⟨arpcacheInit env, none⟩ := by
  constructor <;> simp [arpcacheInit, transmittedTo, sentTags]

end Store.Fifo

/-- **Per-next-hop order without duplication.** In every reachable state, what was sent to a next hop and
then what still waits for it are among the submissions for it, in their order and each once. -/
theorem transmitted_in_order {s : Router} (h : Reachable rtable s) (d : UInt32) :
    (transmittedTo d s.trace ++ waitingFor d s.reqList).Sublist (submittedTo d s.trace) ∧
      (submittedTo d s.trace).Nodup := by
  have hw := h.wf
  have hrec := h.recorded
  have hfifo : Store.Fifo ⟨s, none⟩ := by
    have hboth := h.invariant (I := fun st => st.Recorded ∧ st.Fifo) (G := fun _ _ => True)
      (fun env => ⟨.init env, .init env⟩) (fun _ _ _ _ _ _ _ => trivial)
      fun _ _ _ hw _ hi hd => ⟨hi.1.does hw hd, hi.2.does hw hi.1 hd⟩
    exact hboth.2
  have hsub : (submittedTo d s.trace).Pairwise (· < ·) :=
    hrec.increasing.sublist (List.filter_sublist.map _)
  refine ⟨?_, hsub.imp Nat.ne_of_lt⟩
  have hone : waitingFor d s.reqList = [] ∨
      ∃ r ∈ s.reqList, r.ip4 = d ∧ waitingFor d s.reqList = r.tags := by
    unfold waitingFor waiting
    rcases hw.requestsFor d with hf | ⟨r, hr, hip, hf⟩
    · left
      rw [show s.reqList.filter (·.ip4 = d) = [] from hf, List.flatMap_nil]
    · refine Or.inr ⟨r, hr, hip, ?_⟩
      rw [show s.reqList.filter (·.ip4 = d) = [r] from hf, List.flatMap_cons, List.flatMap_nil,
        List.append_nil]
  have hsorted : (transmittedTo d s.trace ++ waitingFor d s.reqList).Pairwise (· < ·) := by
    rcases hone with hnil | ⟨r, hr, hip, heq⟩
    · rw [hnil, List.append_nil]; exact hfifo.sorted d
    · rw [heq, List.pairwise_append]
      refine ⟨hfifo.sorted d, hw.ordered r hr, fun n hn n' hn' => ?_⟩
      obtain ⟨p, hp, rfl⟩ := List.mem_map.mp hn'
      exact hfifo.behind r hr n (by rw [hip]; exact hn) p hp
  refine List.sublist_of_subperm_of_pairwise ?_ hsorted hsub
  refine List.subperm_of_subset (hsorted.imp Nat.ne_of_lt) fun n hn => ?_
  rcases List.mem_append.mp hn with hn | hn
  · exact (mem_transmittedTo.mp hn).2
  · rcases hone with hnil | ⟨r, hr, hip, heq⟩
    · rw [hnil] at hn; cases hn
    · rw [heq] at hn
      obtain ⟨p, hp, rfl⟩ := List.mem_map.mp hn
      obtain ⟨i, pk, hx, -⟩ := hrec.waiting r hr p hp
      exact mem_submittedTo.mpr ⟨i, pk, hip ▸ hx⟩

/-- Two packets leave when their next hop is learned and a third one at once; a fourth one waits, since
the entry has expired. -/
theorem transmitted_in_order_four : ∃ s : Router, transmittedTo 0x0a000202 s.trace = [0, 1, 2] ∧
    waitingFor 0x0a000202 s.reqList = [3] ∧
    (transmittedTo 0x0a000202 s.trace ++ waitingFor 0x0a000202 s.reqList).Sublist
      (submittedTo 0x0a000202 s.trace) ∧
    (submittedTo 0x0a000202 s.trace).Nodup := by
  let frame (t : Int) : Input :=
    .frame Sample.eth0 (Sample.udp 0x0a000102 0x0a000202 64) (Sample.clockAt t)
  obtain ⟨s, hs, hsent, hwait⟩ := RunOf.of_replay Sample.connected (fun _ _ => True) 8
    [frame 0, frame 0, .frame Sample.eth1 (Sample.arpReply 0x0a000202 (Sample.station 9)) (Sample.clockAt 1),
      frame 2, .sweep (Sample.clockAt 17), frame 18]
    (Sample.clockAt 0) (fun s => transmittedTo 0x0a000202 s.trace = [0, 1, 2] ∧
      waitingFor 0x0a000202 s.reqList = [3]) (by decide +kernel)
  exact ⟨s, hsent, hwait, transmitted_in_order hs 0x0a000202⟩

end StaticRouter
