import StaticRouter.Proofs.HistoryProofs

/-!
# Proofs: the interface a packet leaves through

The source address of a packet is that of the interface it is submitted for. A packet that waits leaves
through the interface of its request, which is the same one in runs whose steps join packets only to
requests on their own interface.
-/

namespace StaticRouter

open CMem

variable {rtable : List RtEntry}

/-- Every frame carries the address of the interface that it leaves through, and a submitted packet leaves
through the interface that it was submitted for. -/
def EgressConsistent (tr : List Event) : Prop :=
  ∀ iface frame o, .sent iface frame o ∈ tr → frame.slice etherShost ethAlen = iface.mac.val ∧
    ∀ n, o.tag? = some n → ∀ iface' d p, .submitted n iface' d p ∈ tr → iface' = iface

/-- What was sent is consistent, and so is what waits, but for the request that is being torn down. -/
structure Store.Egress (st : Store) : Prop where
  sent : EgressConsistent st.router.trace
  waiting : ∀ r ∈ st.router.reqList, st.tearing ≠ some r.node → ∀ p ∈ r.cachedPackets,
    ∀ iface d pk, (p.tag, iface, d, pk) ∈ submissions st.router.trace → iface = r.iface

/-- A packet joins requests on its own interface only, and ARP frames carry the interface's address. -/
def JoinsOwn : Act → Store → Prop
  | .submit iface dst _, st =>
    ∀ r ∈ st.router.reqList, r.ip4 = dst → st.tearing ≠ some r.node → r.iface = iface
  | .arp iface frame, _ => frame.slice etherShost ethAlen = iface.mac.val
  | _, _ => True

theorem EgressConsistent.append {tr new : List Event} (h : EgressConsistent tr)
    (hold : ∀ n ∈ sentTags tr, ∀ i d p, .submitted n i d p ∉ new)
    (hnew : ∀ iface frame o, .sent iface frame o ∈ new → frame.slice etherShost ethAlen = iface.mac.val ∧
      ∀ n, o.tag? = some n → ∀ iface' d p, .submitted n iface' d p ∈ tr ++ new → iface' = iface) :
    EgressConsistent (tr ++ new) := by
  intro iface frame o hs
  rcases List.mem_append.mp hs with hs | hs
  · obtain ⟨hsrc, hif⟩ := h iface frame o hs
    refine ⟨hsrc, fun n hn iface' d p hsub => ?_⟩
    rcases List.mem_append.mp hsub with hsub | hsub
    · exact hif n hn iface' d p hsub
    · exact absurd hsub (hold n (mem_sentTags.mpr ⟨_, _, _, hs, hn⟩) _ _ _)
  · exact hnew iface frame o hs

namespace Store.Egress

variable {st st' : Store}

/-- An action that submits nothing and sends no submitted packet. -/
theorem unsent (h : st.Egress) {new : List Event} (htr : st'.router.trace = st.router.trace ++ new)
    (hsub : submissions new = [])
    (hnew : ∀ iface frame o, .sent iface frame o ∈ new →
      frame.slice etherShost ethAlen = iface.mac.val ∧ o.tag? = none)
    (hr : ∀ r ∈ st'.router.reqList, st'.tearing ≠ some r.node → ∃ r₀ ∈ st.router.reqList,
      st.tearing ≠ some r₀.node ∧ r₀.iface = r.iface ∧ ∀ p ∈ r.cachedPackets, p ∈ r₀.cachedPackets) :
    st'.Egress where
  sent := by
    rw [htr]
    refine h.sent.append ?_ fun iface frame o hs => ⟨(hnew iface frame o hs).1, fun n hn => ?_⟩
    · intro n _ i d p hm
      rw [← mem_submissions, hsub] at hm
      cases hm
    · rw [(hnew iface frame o hs).2] at hn
      cases hn
  waiting r hr' ht p hp iface d pk hx := by
    obtain ⟨r₀, hr₀, ht₀, hif, hsubset⟩ := hr r hr' ht
    rw [htr, submissions_append, hsub, List.append_nil] at hx
    rw [← hif]
    exact h.waiting r₀ hr₀ ht₀ p (hsubset p hp) iface d pk hx

/-- A submission. -/
theorem submit {s s' : Router} {ph : Option Nat} {iface : Iface} {dst : UInt32} {packet : Frame}
    (h : Egress ⟨s, ph⟩) (hw : Wf ⟨s, ph⟩) (hrec : Recorded ⟨s, ph⟩)
    (hg : JoinsOwn (.submit iface dst packet) ⟨s, ph⟩)
    (hs : ifaceSendPacketByArp iface dst packet s = .ok s') : Egress ⟨s', ph⟩ := by
  have hfresh : ∀ n ∈ sentTags s.trace, ∀ i d p,
      Event.submitted n i d p ≠ .submitted s.next iface dst packet := by
    intro n hn i d p he
    exact Nat.ne_of_lt (hrec.sent n hn) (Event.submitted.inj he).1
  have hunsub : ∀ i d p, .submitted s.next i d p ∉ s.trace := fun i d p hm =>
    Nat.lt_irrefl _ (hrec.old _ (mem_submissions.mpr hm))
  have hold : ∀ r ∈ s.reqList, ph ≠ some r.node → ∀ p ∈ r.cachedPackets, ∀ i d pk,
      (p.tag, i, d, pk) ∈ submissions s.trace ++ [(s.next, iface, dst, packet)] → i = r.iface := by
    intro r hr ht p hp i d pk hx
    rcases List.mem_append.mp hx with hx | hx
    · exact h.waiting r hr ht p hp i d pk hx
    · have hlt := hw.oldTags r hr p hp
      have heq : p.tag = s.next := congrArg Prod.fst (List.mem_singleton.mp hx)
      exact absurd heq (Nat.ne_of_lt hlt)
  have hown : ∀ i d pk, (s.next, i, d, pk) ∈ submissions s.trace ++ [(s.next, iface, dst, packet)] →
      i = iface := by
    intro i d pk hx
    rcases List.mem_append.mp hx with hx | hx
    · exact absurd (mem_submissions.mp hx) (hunsub i d pk)
    · exact congrArg (fun x => x.2.1) (List.mem_singleton.mp hx)
  obtain ⟨q, hq, ⟨mac, frame, hl, hf, rfl⟩ | ⟨-, -, rfl⟩ | ⟨-, -, rfl⟩⟩ := ifaceSendPacketByArp_cases hs
  · refine ⟨?_, fun r hr ht p hp i d pk hx => hold r hr ht p hp i d pk (by simpa [submissions] using hx)⟩
    rw [List.append_assoc]
    refine h.sent.append (fun n hn i d p hm => hfresh n hn i d p (by simpa using hm)) ?_
    intro i f o hm
    obtain ⟨rfl, rfl, rfl⟩ : i = iface ∧ f = frame ∧ o = .direct s.next := by simpa using hm
    refine ⟨hq.shost hf, fun n hn i' d p hsub => hown i' d p ?_⟩
    obtain rfl : s.next = n := by simpa [Origin.tag?] using hn
    have := mem_submissions.mpr hsub
    simpa [submissions] using this
  · refine ⟨?_, fun r hr ht p hp i d pk hx => ?_⟩
    · rw [List.append_assoc]
      exact h.sent.append (fun n hn i d p hm => hfresh n hn i d p (by simpa using hm)) (by simp)
    · obtain ⟨r₀, hr₀, rfl⟩ := List.mem_map.mp hr
      have hx' : (p.tag, i, d, pk) ∈ submissions s.trace ++ [(s.next, iface, dst, packet)] := by
        simpa [submissions] using hx
      split_ifs at hp ht ⊢ with hip
      · rcases List.mem_append.mp hp with hp | hp
        · exact hold r₀ hr₀ ht p hp i d pk hx'
        · rw [List.mem_singleton.mp hp] at hx'
          rw [hown i d pk hx']
          exact (hg r₀ hr₀ hip ht).symm
      · exact hold r₀ hr₀ ht p hp i d pk hx'
  · refine ⟨?_, fun r hr ht p hp i d pk hx => ?_⟩
    · rw [List.append_assoc, List.append_assoc, List.append_assoc]
      refine h.sent.append (fun n hn i d p hm => hfresh n hn i d p (by simpa using hm)) ?_
      intro i f o hm
      obtain ⟨rfl, rfl, rfl⟩ : i = iface ∧ f = arpFrame broadcastMac iface.mac arpopRequest iface.mac
          iface.ip zeroMac dst ∧ o = .arp := by simpa using hm
      exact ⟨slice_arpFrame_shost _ _ _ _ _ _ _, fun n hn => by cases hn⟩
    · have hx' : (p.tag, i, d, pk) ∈ submissions s.trace ++ [(s.next, iface, dst, packet)] := by
        simpa [submissions] using hx
      rcases List.mem_append.mp hr with hr | hr
      · exact hold r hr ht p hp i d pk hx'
      · rw [List.mem_singleton.mp hr] at hp ⊢
        rw [List.mem_singleton.mp hp] at hx'
        exact hown i d pk hx'

/-- What waits for an address leaves through the interface of its request. -/
theorem learn {s : Router} (h : Egress ⟨s, none⟩) (hrec : Recorded ⟨s, none⟩) {ip4 : UInt32} {mac : Mac}
    (hlen : ∀ r ∈ s.reqList, r.ip4 = ip4 → ∀ p ∈ r.cachedPackets, ethAlen ≤ p.packet.length)
    (htr : st'.router.trace = s.trace ++
      (s.reqList.filter (·.ip4 = ip4)).flatMap (flushEvents ip4 mac))
    (hreq : st'.router.reqList = s.reqList.filter (·.ip4 ≠ ip4)) : st'.Egress := by
  refine ⟨?_, fun r hr _ p hp i d pk hx => ?_⟩
  · rw [htr]
    refine h.sent.append ?_ ?_
    · intro n _ i d p hm
      rw [← mem_submissions, submissions_flush] at hm
      cases hm
    · intro i f o hm
      obtain ⟨r, hr, hm⟩ := List.mem_flatMap.mp hm
      obtain ⟨p, hp, he⟩ := List.mem_map.mp hm
      obtain ⟨rfl, rfl, rfl⟩ : r.iface = i ∧ p.packet.splice etherDhost mac.val = f ∧
          .flush p.tag ip4 = o := by simpa using he
      obtain ⟨hr, hip⟩ := List.mem_filter.mp hr
      obtain ⟨i', pk, hx, hfill⟩ := hrec.waiting r hr p hp
      have hif : i' = r.iface := h.waiting r hr (by simp) p hp i' _ pk hx
      have hwr : p.packet.write etherDhost mac.val = .ok (p.packet.splice etherDhost mac.val) := by
        refine Buffer.write_ok.mpr ⟨?_, rfl⟩
        rw [mac.property]
        simpa using hlen r hr (by simpa using hip) p hp
      refine ⟨by rw [hfill.shost hwr, hif], fun n hn j d pk' hsub => ?_⟩
      obtain rfl : p.tag = n := by simpa [Origin.tag?] using hn
      refine h.waiting r hr (by simp) p hp j d pk' ?_
      have := mem_submissions.mpr hsub
      simpa using this
  · rw [hreq] at hr
    rw [htr, submissions_append, submissions_flush, List.append_nil] at hx
    exact h.waiting r (List.mem_of_mem_filter hr) (by simp) p hp i d pk hx

/-- Every action keeps what is sent and what waits consistent. -/
theorem does {act : Act} (h : st.Egress) (hw : st.Wf) (hrec : st.Recorded) (hg : JoinsOwn act st)
    (hd : Does act st st') : st'.Egress := by
  have hsame : ∀ r ∈ st.router.reqList, st.tearing ≠ some r.node → ∃ r₀ ∈ st.router.reqList,
      st.tearing ≠ some r₀.node ∧ r₀.iface = r.iface ∧ ∀ p ∈ r.cachedPackets, p ∈ r₀.cachedPackets :=
    fun r hr ht => ⟨r, hr, ht, rfl, fun _ => id⟩
  cases hd with
  | env => exact h.unsent (List.append_nil _).symm rfl (by simp) hsame
  | originate => exact h.unsent rfl rfl (by simp) hsame
  | arp s ph iface frame =>
    refine h.unsent rfl rfl ?_ hsame
    intro i f o hm
    obtain ⟨rfl, rfl, rfl⟩ : i = iface ∧ f = frame ∧ o = .arp := by simpa using hm
    exact ⟨hg, rfl⟩
  | submit ph hs => exact h.submit hw hrec hg hs
  | learn hi =>
    obtain ⟨hlen, rfl⟩ := arpcacheInsert_ok hi
    exact h.learn hrec hlen rfl rfl
  | expire => exact h.unsent (List.append_nil _).symm rfl (by simp) hsame
  | retry =>
    refine h.unsent (List.append_nil _).symm rfl (by simp) fun r hr ht => ?_
    obtain ⟨r₀, hr₀, rfl⟩ := List.mem_map.mp hr
    refine ⟨r₀, hr₀, by simp, ?_, ?_⟩ <;> split_ifs <;> first | rfl | exact fun _ => id
  | begin =>
    exact h.unsent (List.append_nil _).symm rfl (by simp) fun r hr _ => ⟨r, hr, by simp, rfl, fun _ => id⟩
  | giveUp =>
    refine h.unsent rfl rfl (by simp) fun r hr ht => ?_
    obtain ⟨r₀, hr₀, rfl⟩ := List.mem_map.mp hr
    split_ifs at ht ⊢ with hn
    · exact absurd (by rw [← hn]; rfl) ht
    · exact ⟨r₀, hr₀, ht, rfl, fun _ => id⟩
  | @unlink s node req hf =>
    refine h.unsent rfl rfl (by simp) fun r hr _ => ?_
    obtain ⟨hr, hn⟩ := List.mem_filter.mp hr
    refine ⟨r, hr, fun he => ?_, rfl, fun _ => id⟩
    simp [Option.some.inj he] at hn

/-- Nothing was sent at the start. -/
theorem init (env : Env) : Egress ⟨arpcacheInit env, none⟩ := by
  constructor <;> simp [arpcacheInit, EgressConsistent]

end Store.Egress

/-! ## Runs -/

/-- In such a step every packet joins requests on its own interface. -/
theorem SameEgress.joinsOwn {i : Input} {s : Router} (hc : SameEgress rtable i s) {act : Act}
    {st : Store} (ha : StepAct rtable s i act st) : JoinsOwn act st := by
  cases act with
  | submit iface dst packet =>
    cases i with
    | frame iface' packet' env =>
      obtain ⟨hip, hsub, -, hreq, -⟩ := ha
      intro r hr hd _
      rw [hreq] at hr
      exact hc hip _ hsub.nextHop r hr hd
    | sweep env =>
      obtain ⟨td, htd, hdst, ⟨htear, hknown⟩, -, rt, hrt, rfl⟩ := ha
      intro r hr hd ht
      rcases hknown r hr with hn | ⟨o, ho, -, hif, hip⟩ | ⟨rt', hrt', hif⟩
      · rw [htear, hn] at ht
        exact absurd rfl ht
      · rw [← hif]
        exact hc td htd dst hdst rt hrt o ho (hip.trans hd)
      · rw [hd, hrt] at hrt'
        rw [← hif, Option.some.inj hrt']
  | arp iface frame =>
    cases i with
    | frame iface' packet env =>
      obtain ⟨-, rfl, dhost, sha, spa, tha, tpa, rfl⟩ := ha
      exact slice_arpFrame_shost _ _ _ _ _ _ _
    | sweep env =>
      obtain ⟨r, -, rfl, rfl⟩ := ha
      exact slice_arpFrame_shost _ _ _ _ _ _ _
  | _ => trivial

/-- **Egress consistency.** In a run whose steps join packets only to requests on their own interface,
every frame carries the address of the interface that it leaves through, and every submitted packet
leaves through the interface that it was submitted for. -/
theorem egress_consistent {s : Router} (h : RunOf rtable (SameEgress rtable) s) :
    EgressConsistent s.trace := by
  have hboth := h.invariant (I := fun st => st.Recorded ∧ st.Egress)
    (fun env => ⟨.init env, .init env⟩) (fun i s hc _ act st ha => hc.joinsOwn ha)
    fun _ _ _ hw hg hi hd => ⟨hi.1.does hw hd, hi.2.does hw hi.1 hg hd⟩
  exact hboth.2.sent

/-- A packet is queued and leaves when its next hop is learned; the next one leaves at once. -/
theorem egress_consistent_two_packets :
    ∃ s : Router, sentTags s.trace = [0, 1] ∧ EgressConsistent s.trace := by
  obtain ⟨s, hs, hp⟩ := RunOf.of_replay Sample.connected (SameEgress Sample.connected) 8
    [.frame Sample.eth0 (Sample.udp 0x0a000102 0x0a000202 64) (Sample.clockAt 0),
      .frame Sample.eth1 (Sample.arpReply 0x0a000202 (Sample.station 9)) (Sample.clockAt 1),
      .frame Sample.eth0 (Sample.udp 0x0a000102 0x0a000202 64) (Sample.clockAt 1)]
    (Sample.clockAt 0) (fun s => sentTags s.trace = [0, 1]) (by decide +kernel)
  exact ⟨s, hp, egress_consistent hs⟩

/-- Two packets for the gateway 10.0.9.9, one through each interface, while it is unknown: the second
joins the request of the first and leaves through the wrong interface. -/
theorem egress_inconsistent : ∃ s, Reachable Sample.twoUplinks s ∧ ¬ EgressConsistent s.trace := by
  obtain ⟨s, hs, hp⟩ := RunOf.of_replay Sample.twoUplinks (fun _ _ => True) 8
    [.frame Sample.eth0 (Sample.udp 0x0a000102 0x0a000305 64) (Sample.clockAt 0),
      .frame Sample.eth0 (Sample.udp 0x0a000102 0x0a000405 64) (Sample.clockAt 0),
      .frame Sample.eth0 (Sample.arpReply 0x0a000909 (Sample.station 9)) (Sample.clockAt 1)]
    (Sample.clockAt 0)
    (fun s => ∃ x ∈ transmissions s.trace, x.2.1.slice etherShost ethAlen ≠ x.1.mac.val)
    (by decide +kernel)
  refine ⟨s, hs, fun h => ?_⟩
  obtain ⟨⟨iface, frame, o⟩, hx, hbad⟩ := hp
  exact hbad (h iface frame o (mem_transmissions.mp hx)).1

end StaticRouter
