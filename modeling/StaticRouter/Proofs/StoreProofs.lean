import StaticRouter.Proofs.OutcomeProofs

/-!
# Proofs: the joint invariant of the table and the request list

Every action keeps `Store.Wf`. The actions change the request list in three ways: they unlink requests,
they change the requests in place, or they link a new one in at the tail.
-/

namespace StaticRouter

open CMem

/-! ## Requests in the list -/

namespace Store.Wf

variable {st st' : Store}

theorem eq_of_node (h : st.Wf) {r r' : ArpReq} (hr : r ∈ st.router.reqList)
    (hr' : r' ∈ st.router.reqList) (hn : r.node = r'.node) : r = r' :=
  List.inj_on_of_nodup_map h.nodes hr hr' hn

/-- A pointer to a request finds it. -/
theorem findReq_eq (h : st.Wf) {r : ArpReq} (hr : r ∈ st.router.reqList) :
    st.router.findReq r.node = some r := by
  unfold Router.findReq
  cases hf : st.router.reqList.find? (·.node = r.node) with
  | none =>
    rw [List.find?_eq_none] at hf
    exact absurd (by simp) (hf r hr)
  | some r' =>
    have hn := List.find?_some hf
    rw [h.eq_of_node (List.mem_of_find?_eq_some hf) hr (by simpa using hn)]

/-! ## The three kinds of change -/

/-- Requests may be unlinked, and numbers be given out, as long as the cache knows none of the addresses
that are still waited for. -/
theorem unlinked (h : st.Wf) (hs : st'.router.reqList.Sublist st.router.reqList)
    (hn : st.router.next ≤ st'.router.next)
    (hc : ∀ r ∈ st'.router.reqList, arpcacheLookup st'.router.table r.ip4 = none)
    (hb : ∀ r ∈ st'.router.reqList, st'.tearing ≠ some r.node → st.tearing ≠ some r.node) : st'.Wf where
  nodes := h.nodes.sublist (hs.map _)
  ip4s := h.ip4s.sublist (hs.map _)
  cold := hc
  retries r hr := h.retries r (hs.subset hr)
  ordered r hr := h.ordered r (hs.subset hr)
  old r hr := Nat.lt_of_lt_of_le (h.old r (hs.subset hr)) hn
  oldTags r hr p hp := Nat.lt_of_lt_of_le (h.oldTags r (hs.subset hr) p hp) hn
  busy r hr ht := h.busy r (hs.subset hr) (hb r hr ht)

/-- Requests may be changed in place, if they keep their addresses. -/
theorem changed (h : st.Wf) {f : ArpReq → ArpReq} (hl : st'.router.reqList = st.router.reqList.map f)
    (htab : st'.router.table = st.router.table) (hn : st.router.next ≤ st'.router.next)
    (hid : ∀ r, (f r).node = r.node ∧ (f r).ip4 = r.ip4)
    (hr : ∀ r ∈ st.router.reqList, 0 ≤ (f r).retries ∧ (f r).retries ≤ 5)
    (ho : ∀ r ∈ st.router.reqList, ((f r).cachedPackets.map (·.tag)).Pairwise (· < ·))
    (hp : ∀ r ∈ st.router.reqList, ∀ p ∈ (f r).cachedPackets, p.tag < st'.router.next)
    (hb : ∀ r ∈ st.router.reqList, st'.tearing ≠ some r.node → (f r).cachedPackets ≠ []) : st'.Wf := by
  have hmem : ∀ r ∈ st'.router.reqList, ∃ r₀ ∈ st.router.reqList, f r₀ = r := by
    intro r hr
    rwa [hl, List.mem_map] at hr
  refine ⟨?_, ?_, ?_, ?_, ?_, ?_, ?_, ?_⟩
  · have he : (st.router.reqList.map f).map (·.node) = st.router.reqList.map (·.node) := by
      rw [List.map_map]; exact List.map_congr_left fun r _ => (hid r).1
    rw [hl, he]; exact h.nodes
  · have he : (st.router.reqList.map f).map (·.ip4) = st.router.reqList.map (·.ip4) := by
      rw [List.map_map]; exact List.map_congr_left fun r _ => (hid r).2
    rw [hl, he]; exact h.ip4s
  all_goals
    intro r hr'
    obtain ⟨r₀, hr₀, rfl⟩ := hmem r hr'
  · rw [htab, (hid r₀).2]; exact h.cold r₀ hr₀
  · exact hr r₀ hr₀
  · exact ho r₀ hr₀
  · rw [(hid r₀).1]; exact Nat.lt_of_lt_of_le (h.old r₀ hr₀) hn
  · exact hp r₀ hr₀
  · intro ht; exact hb r₀ hr₀ (by rwa [(hid r₀).1] at ht)

/-- A request may be linked in for an address that the cache does not know and no other request is
for. -/
theorem opened (h : st.Wf) {r : ArpReq} (hl : st'.router.reqList = st.router.reqList ++ [r])
    (htab : st'.router.table = st.router.table) (ht : st'.tearing = st.tearing)
    (hn : st'.router.next = st.router.next + 1) (hnode : r.node = st.router.next)
    (hretries : r.retries = 0) (hpkt : r.cachedPackets.map (·.tag) = [st.router.next])
    (hcold : arpcacheLookup st.router.table r.ip4 = none)
    (hnew : ∀ r' ∈ st.router.reqList, r'.ip4 ≠ r.ip4) : st'.Wf := by
  have htag : ∀ p ∈ r.cachedPackets, p.tag = st.router.next := by
    intro p hp
    have := List.mem_map_of_mem (f := (·.tag)) hp
    rw [hpkt] at this
    simpa using this
  refine ⟨?_, ?_, ?_, ?_, ?_, ?_, ?_, ?_⟩
  · rw [hl, List.map_append, List.nodup_append]
    refine ⟨h.nodes, by simp, ?_⟩
    intro n hmem n' hn' he
    obtain ⟨r', hr', rfl⟩ := List.mem_map.mp hmem
    have := h.old r' hr'
    have hn'' : n' = r.node := by simpa using hn'
    omega
  · rw [hl, List.map_append, List.nodup_append]
    refine ⟨h.ip4s, by simp, ?_⟩
    intro i hi i' hi' he
    obtain ⟨r', hr', rfl⟩ := List.mem_map.mp hi
    have hi'' : i' = r.ip4 := by simpa using hi'
    exact hnew r' hr' (he.trans hi'')
  all_goals
    intro r' hr'
    rw [hl, List.mem_append, List.mem_singleton] at hr'
    rcases hr' with hr' | rfl
  · rw [htab]; exact h.cold r' hr'
  · rw [htab]; exact hcold
  · exact h.retries r' hr'
  · rw [hretries]; omega
  · exact h.ordered r' hr'
  · rw [hpkt]; exact List.pairwise_singleton _ _
  · have := h.old r' hr'; omega
  · omega
  · intro p hp; have := h.oldTags r' hr' p hp; omega
  · intro p hp; have := htag p hp; omega
  · intro hb; exact h.busy r' hr' (by rwa [ht] at hb)
  · intro _ he; rw [he] at hpkt; simp at hpkt

/-! ## The actions -/

/-- `iface_send_packet_by_arp` keeps the invariant. -/
theorem submit {s s' : Router} {ph : Option Nat} {iface : Iface} {dst : UInt32} {packet : Frame}
    (h : Wf ⟨s, ph⟩) (hs : ifaceSendPacketByArp iface dst packet s = .ok s') : Wf ⟨s', ph⟩ := by
  obtain ⟨q, -, ⟨mac, frame, -, -, rfl⟩ | ⟨hl, -, rfl⟩ | ⟨hl, hnew, rfl⟩⟩ :=
    ifaceSendPacketByArp_cases hs
  · exact h.unlinked (List.Sublist.refl _) (Nat.le_succ _) h.cold fun _ _ => id
  · refine h.changed rfl rfl (Nat.le_succ _) ?_ ?_ ?_ ?_ ?_
    · intro r; split_ifs <;> exact ⟨rfl, rfl⟩
    · intro r hr; split_ifs <;> exact h.retries r hr
    · intro r hr
      split_ifs
      · rw [ArpReq.append, List.map_append, List.pairwise_append]
        refine ⟨h.ordered r hr, List.pairwise_singleton _ _, ?_⟩
        intro t ht t' ht'
        obtain ⟨p, hp, rfl⟩ := List.mem_map.mp ht
        have ht'' : t' = s.next := by simpa using ht'
        rw [ht'']
        exact h.oldTags r hr p hp
      · exact h.ordered r hr
    · intro r hr p hp
      split_ifs at hp
      · rcases List.mem_append.mp hp with hp | hp
        · exact Nat.lt_succ_of_lt (h.oldTags r hr p hp)
        · rw [List.mem_singleton.mp hp]; exact Nat.lt_succ_self _
      · exact Nat.lt_succ_of_lt (h.oldTags r hr p hp)
    · intro r hr hb
      split_ifs
      · simp [ArpReq.append]
      · exact h.busy r hr hb
  · exact h.opened rfl rfl rfl rfl rfl rfl rfl hl hnew

/-- Every action keeps the invariant. -/
theorem does {act : Act} (h : st.Wf) (hd : Does act st st') : st'.Wf := by
  cases hd with
  | env => exact h.unlinked (List.Sublist.refl _) (Nat.le_refl _) h.cold fun _ _ => id
  | originate => exact h.unlinked (List.Sublist.refl _) (Nat.le_refl _) h.cold fun _ _ => id
  | arp => exact h.unlinked (List.Sublist.refl _) (Nat.le_refl _) h.cold fun _ _ => id
  | submit ph hs => exact h.submit hs
  | learn hi =>
    obtain ⟨-, rfl⟩ := arpcacheInsert_ok hi
    refine h.unlinked List.filter_sublist (Nat.le_refl _) ?_ fun _ _ => id
    intro r hr
    have hr' := List.mem_filter.mp hr
    exact arpcacheLookup_tableInsert_none (by simpa using hr'.2) (h.cold r hr'.1)
  | expire s =>
    exact h.unlinked (List.Sublist.refl _) (Nat.le_refl _)
      (fun r hr => arpcacheLookup_tableExpire_none (h.cold r hr)) fun _ _ => id
  | retry hlt =>
    refine h.changed rfl rfl (Nat.le_refl _) ?_ ?_ ?_ ?_ ?_
    · intro r; split_ifs <;> exact ⟨rfl, rfl⟩
    · intro r hr
      have h5 := h.retries r hr
      have hr5 := hlt r hr
      split_ifs with hn
      · have := hr5 hn
        simp only
        omega
      · exact h5
    · intro r hr; split_ifs <;> exact h.ordered r hr
    · intro r hr; split_ifs <;> exact h.oldTags r hr
    · intro r hr hb; split_ifs <;> exact h.busy r hr hb
  | begin s node =>
    exact h.unlinked (List.Sublist.refl _) (Nat.le_refl _) h.cold fun _ _ _ => by simp
  | @giveUp s node tag ht =>
    refine h.changed rfl rfl (Nat.le_refl _) ?_ ?_ ?_ ?_ ?_
    · intro r; split_ifs <;> exact ⟨rfl, rfl⟩
    · intro r hr; split_ifs <;> exact h.retries r hr
    · intro r hr
      split_ifs
      · exact (h.ordered r hr).sublist (List.filter_sublist.map _)
      · exact h.ordered r hr
    · intro r hr p hp
      split_ifs at hp
      · exact h.oldTags r hr p (List.mem_of_mem_filter hp)
      · exact h.oldTags r hr p hp
    · intro r hr hb
      rw [if_neg fun hn => hb (by rw [hn])]
      exact h.busy r hr hb
  | @unlink s node req hf =>
    refine h.unlinked List.filter_sublist (Nat.le_refl _) ?_ ?_
    · exact fun r hr => h.cold r (List.mem_of_mem_filter hr)
    · intro r hr _ he
      have hn := (List.mem_filter.mp hr).2
      simp only [Option.some.injEq] at he
      simp [he] at hn

theorem path {G : Act → Store → Prop} (h : st.Wf) (hp : Path G st st') : st'.Wf :=
  hp.invariant (fun _ _ _ _ => does) h

/-- The state after `arpcache_init`. -/
theorem init (env : Env) : Wf ⟨arpcacheInit env, none⟩ := by
  constructor <;> simp [arpcacheInit]

end Store.Wf

end StaticRouter
