import Mathlib.Algebra.Order.BigOperators.Group.List
import Mathlib.Algebra.Order.Group.Nat
import Mathlib.Data.List.Flatten
import StaticRouter.Proofs.ConservationProofs
import StaticRouter.Proofs.VisitProofs
import StaticRouter.Traffic

/-!
# Proofs: the router does not amplify

Each step keeps an account of what was received against what was sent and waits. A packet that is given up
pays for the report about it.
-/

namespace StaticRouter

open CMem

variable {rtable : List RtEntry} {ip arp : Nat} {s s' : Router}

/-! ## What the requests still allow -/

theorem repeatsLeft_map_congr {reqs : List ArpReq} {f : ArpReq → ArpReq}
    (hf : ∀ r, (f r).retries = r.retries) : repeatsLeft (reqs.map f) = repeatsLeft reqs := by
  unfold repeatsLeft
  rw [List.map_map]
  refine congrArg List.sum (List.map_congr_left fun r _ => ?_)
  simp only [Function.comp, ArpReq.repeatsLeft, hf]

theorem repeatsLeft_sublist {reqs reqs' : List ArpReq} (h : reqs.Sublist reqs') :
    repeatsLeft reqs ≤ repeatsLeft reqs' :=
  (h.map _).sum_le_sum fun _ _ => Nat.zero_le _

/-- A repeat uses up one of those that were left. -/
theorem repeatsLeft_repeat {reqs : List ArpReq} (hnd : (reqs.map (·.node)).Nodup) {r : ArpReq} (hr : r ∈ reqs)
    (h5 : r.retries < 5) :
    repeatsLeft (reqs.map fun req => if req.node = r.node then { req with retries := req.retries + 1 } else req)
      + 1 = repeatsLeft reqs := by
  obtain ⟨A, B, rfl⟩ := List.append_of_mem hr
  have hmap := map_update hnd fun req => { req with retries := req.retries + 1 }
  have hone : (5 - (r.retries + 1)).toNat + 1 = (5 - r.retries).toNat := by omega
  rw [hmap, repeatsLeft_append, repeatsLeft_append]
  simp only [repeatsLeft, List.map_cons, List.sum_cons, ArpReq.repeatsLeft]
  omega

theorem waiting_sublist {reqs reqs' : List ArpReq} (h : reqs.Sublist reqs') :
    (waiting reqs).length ≤ (waiting reqs').length :=
  (h.flatMap _).length_le

theorem arpSent_flush (ip4 : UInt32) (mac : Mac) (reqs : List ArpReq) :
    arpSent (reqs.flatMap (flushEvents ip4 mac)) = 0 := by
  rw [arpSent, List.countP_eq_zero]
  intro e he
  obtain ⟨r, -, he⟩ := List.mem_flatMap.mp he
  obtain ⟨p, -, rfl⟩ := List.mem_map.mp he
  simp

/-- The packet that a round of the inner loop reports about is still in the queue after the report. -/
theorem icmpSendPacket_keepsPacket {node tag : Nat} {pkt : CachedPkt} (hw : Store.Wf ⟨s, some node⟩)
    (hf : ((s.findReq node).bind fun req => req.cachedPackets.find? (·.tag = tag)) = some pkt)
    (h : icmpSendPacket rtable pkt.packet 3 1 s = .ok s') :
    Store.Wf ⟨s', some node⟩ ∧ tag ∈ s'.queueNodes node := by
  obtain ⟨r, hr, hp⟩ := Option.bind_eq_some_iff.mp hf
  have hmem : r ∈ s.reqList := List.mem_of_find?_eq_some hr
  have hnode : r.node = node := by simpa using List.find?_some hr
  have htag : pkt.tag = tag := by simpa using List.find?_some hp
  have hw' : Store.Wf ⟨s', some node⟩ := by
    rcases icmpSendPacket_cases (Or.inr (Or.inl rfl)) h with ⟨-, rfl⟩ | ⟨rt, q, -, -, h⟩
    · exact hw
    · have hlog := (hw.does (.env s _ s.drawn.env)).does (.originate _ _ 3 1 (sourceOf pkt.packet))
      exact hlog.submit h
  obtain ⟨f, new, hl, -, -, -, hgrow⟩ := icmpSendPacket_reqList h
  obtain ⟨extra, hfr, -⟩ := hgrow r hmem
  have hmem' : f r ∈ s'.reqList := by
    rw [hl]
    exact List.mem_append_left _ (List.mem_map_of_mem hmem)
  have hnode' : (f r).node = node := by rw [hfr]; exact hnode
  refine ⟨hw', ?_⟩
  rw [Router.queueNodes, ← hnode', hw'.findReq_eq hmem', hfr]
  simp only [Option.map_some, Option.getD_some, List.map_append, List.mem_append]
  exact Or.inl (htag ▸ List.mem_map_of_mem (List.mem_of_find?_eq_some hp))

/-! ## The account -/

namespace PaidBy

/-- A change that costs no more than what is received with it. -/
theorem change (h : PaidBy ip arp s) (new : List Event) {ip' arp' : Nat} (htr : s'.trace = s.trace ++ new)
    (hp : (sentTags new).length + (waiting s'.reqList).length + ip ≤ (waiting s.reqList).length + ip')
    (hq : (queuedTags new).length + ip ≤ ip' + (givenUp new).length)
    (hf : arpSent new + repeatsLeft s'.reqList + arp ≤
      repeatsLeft s.reqList + arp' + 6 * (queuedTags new).length) : PaidBy ip' arp' s' := by
  have hp' := h.packets
  have hq' := h.queued
  have hf' := h.frames
  refine ⟨?_, ?_, ?_⟩
  · rw [htr, sentTags_append, List.length_append]
    omega
  · rw [htr, queuedTags_append, List.length_append, givenUp_append, List.length_append]
    omega
  · rw [htr, arpSent_append, queuedTags_append, List.length_append]
    omega

theorem mono (h : PaidBy ip arp s) {ip' arp' : Nat} (hip : ip ≤ ip') (harp : arp ≤ arp') : PaidBy ip' arp' s := by
  refine h.change _ (List.append_nil _).symm ?_ ?_ ?_
  · simp [sentTags]
    omega
  · simp [queuedTags, givenUp]
    omega
  · simp [arpSent, queuedTags]
    omega

/-- Requests may be unlinked, and events be recorded that are no traffic. -/
theorem unlinked (h : PaidBy ip arp s) {new : List Event} (hl : s'.reqList.Sublist s.reqList)
    (htr : s'.trace = s.trace ++ new) (hsent : sentTags new = []) (hqueued : queuedTags new = [])
    (hgiven : givenUp new = []) (harp : arpSent new = 0) : PaidBy ip arp s' := by
  have hwait := waiting_sublist hl
  have hleft := repeatsLeft_sublist hl
  refine h.change _ htr ?_ ?_ ?_
  · rw [hsent, List.length_nil]
    omega
  · rw [hqueued, hgiven, List.length_nil]
    omega
  · rw [harp, hqueued, List.length_nil]
    omega

/-- Notes about messages cost nothing. -/
theorem noted {dst : UInt32} {notes : List Event} (h : PaidBy ip arp s)
    (hn : ∀ e ∈ notes, ∃ type code, e = .originated type code dst) (hl : s'.reqList = s.reqList)
    (htr : s'.trace = s.trace ++ notes) : PaidBy ip arp s' := by
  have hnone : sentTags notes = [] ∧ queuedTags notes = [] ∧ givenUp notes = [] ∧ arpSent notes = 0 := by
    refine ⟨?_, ?_, ?_, ?_⟩
    · exact List.filterMap_eq_nil_iff.mpr fun e he => by obtain ⟨type, code, rfl⟩ := hn e he; rfl
    · exact List.filterMap_eq_nil_iff.mpr fun e he => by obtain ⟨type, code, rfl⟩ := hn e he; rfl
    · exact List.filterMap_eq_nil_iff.mpr fun e he => by obtain ⟨type, code, rfl⟩ := hn e he; rfl
    · exact List.countP_eq_zero.mpr fun e he => by obtain ⟨type, code, rfl⟩ := hn e he; simp
  obtain ⟨hsent, hqueued, hgiven, harp⟩ := hnone
  exact h.unlinked (hl ▸ List.Sublist.refl _) htr hsent hqueued hgiven harp

/-- A packet is submitted. -/
theorem submit (h : PaidBy ip arp s) (hnd : (s.reqList.map (·.ip4)).Nodup) {iface : Iface} {dst : UInt32}
    {packet : Frame} (hs : ifaceSendPacketByArp iface dst packet s = .ok s') : PaidBy (ip + 1) arp s' := by
  obtain ⟨q, -, ⟨mac, frame, -, -, rfl⟩ | ⟨-, hex, rfl⟩ | ⟨-, -, rfl⟩⟩ := ifaceSendPacketByArp_cases hs
  · refine h.change _ (List.append_assoc _ _ _) ?_ ?_ ?_
    · simp [sentTags, Origin.tag?]
      omega
    · simp [queuedTags, givenUp]
    · simp [arpSent, queuedTags]
  · refine h.change _ (List.append_assoc _ _ _) ?_ ?_ ?_
    · have hjoin := (waiting_join (p := ⟨s.next, q⟩) hnd hex).length_eq
      simp only [List.length_cons] at hjoin
      simp [sentTags, hjoin]
      omega
    · simp [queuedTags, givenUp]
      omega
    · have hsame : repeatsLeft (s.reqList.map fun r => if r.ip4 = dst then r.append ⟨s.next, q⟩ else r) =
          repeatsLeft s.reqList := repeatsLeft_map_congr fun r => by split_ifs <;> rfl
      simp only [hsame]
      simp [arpSent, queuedTags]
  · refine h.change _ (by rw [List.append_assoc, List.append_assoc, List.append_assoc]) ?_ ?_ ?_
    · simp [sentTags, waiting, ArpReq.tags, Origin.tag?]
      omega
    · simp [queuedTags, givenUp]
      omega
    · simp [arpSent, queuedTags, repeatsLeft, ArpReq.repeatsLeft]
      omega

/-- A packet that is given up pays for the next one. -/
theorem giveUp {node tag : Nat} (h : PaidBy (ip + 1) arp s) (hw : Store.Wf ⟨s, some node⟩)
    (ht : tag ∈ s.queueNodes node) :
    PaidBy ip arp ((s.updateReq node (·.deletePkt tag)).log (.unreachable tag)) := by
  have hwait := (waiting_giveUp hw ht).length_eq
  have hleft : repeatsLeft (s.updateReq node (·.deletePkt tag)).reqList = repeatsLeft s.reqList :=
    repeatsLeft_map_congr fun r => by split_ifs <;> rfl
  simp only [List.length_cons] at hwait
  refine h.change [.unreachable tag] rfl ?_ ?_ ?_
  · simp only [Router.log, sentTags, List.filterMap_cons, List.filterMap_nil, List.length_nil]
    omega
  · simp [queuedTags, givenUp]
  · simp [arpSent, queuedTags, Router.log, hleft]

/-- What waits for an address is sent when the address is learned. -/
theorem learn {ip4 : UInt32} {mac : Mac} (h : PaidBy ip arp s) (hi : arpcacheInsert ip4 mac s = .ok s') :
    PaidBy ip arp s' := by
  obtain ⟨-, rfl⟩ := arpcacheInsert_ok hi
  have hwait := (waiting_filter s.reqList ip4).length_eq
  have hleft : repeatsLeft (s.reqList.filter (·.ip4 ≠ ip4)) ≤ repeatsLeft s.reqList :=
    repeatsLeft_sublist List.filter_sublist
  rw [List.length_append] at hwait
  refine h.change _ rfl ?_ ?_ ?_
  · rw [sentTags_flush]
    simp only
    omega
  · rw [queuedTags_flush, givenUp_flush]
    omega
  · rw [arpSent_flush, queuedTags_flush]
    simp only
    omega

/-- An ARP packet pays for the reply to it. -/
theorem reply {iface : Iface} {frame : Frame} (h : PaidBy ip arp s) :
    PaidBy ip (arp + 1) (ifaceSendPacket iface frame .arp s) := by
  refine h.change [.sent iface frame .arp] rfl ?_ ?_ ?_
  · simp [sentTags, Origin.tag?, ifaceSendPacket, Router.log]
  · simp [queuedTags, givenUp]
  · simp [arpSent, queuedTags, ifaceSendPacket, Router.log]
    omega

/-- A request is repeated. -/
theorem retry {r : ArpReq} (h : PaidBy ip arp s) (hw : Store.Wf ⟨s, none⟩) (hr : r ∈ s.reqList)
    (h5 : r.retries < 5) : PaidBy ip arp (arpSendRequest r.iface r.ip4
      (s.time.2.updateReq r.node fun req => { req with retries := req.retries + 1 })) := by
  have hnd : (s.reqList.map (·.node)).Nodup := hw.nodes
  have hleft := repeatsLeft_repeat hnd hr h5
  have hwait : waiting (s.reqList.map fun req => if req.node = r.node then
      { req with retries := req.retries + 1 } else req) = waiting s.reqList :=
    waiting_map_congr fun r => by split_ifs <;> rfl
  refine h.change [.sent r.iface (requestFrame r) .arp] rfl ?_ ?_ ?_
  · simp only [arpSendRequest, ifaceSendPacket, Router.log, Router.updateReq, Router.time, hwait]
    simp [sentTags, Origin.tag?]
  · simp [queuedTags, givenUp]
  · simp only [arpSendRequest, ifaceSendPacket, Router.log, Router.updateReq, Router.time]
    simp [arpSent, queuedTags]
    omega

/-! ## The sweep -/

/-- A round of the inner loop submits one packet at most and gives one up. -/
theorem sweepPacket {node tag : Nat} (h : PaidBy ip arp s) (hw : Store.Wf ⟨s, some node⟩)
    (hs : sweepPacket rtable node tag s = .ok s') : PaidBy ip arp s' := by
  have hw' := hw.path (sweepPacket_path hw hs)
  obtain ⟨-, -, -, pkt, -, -, hf, s₁, h₁, rfl⟩ := sweepPacket_cases hs
  obtain ⟨hw₁, htag⟩ := icmpSendPacket_keepsPacket hw hf h₁
  refine giveUp ?_ hw₁ htag
  rcases icmpSendPacket_cases (Or.inr (Or.inl rfl)) h₁ with ⟨-, rfl⟩ | ⟨rt, q, -, -, h₁⟩
  · exact h.mono (Nat.le_succ _) (Nat.le_refl _)
  · have hnoted : PaidBy ip arp (s.drawn.log (.originated 3 1 (sourceOf pkt.packet))) :=
      h.noted (fun e he => ⟨3, 1, List.mem_singleton.mp he⟩) rfl rfl
    exact hnoted.submit hw.ip4s h₁

/-- A visit of a request. -/
theorem sweepReq {fuel node : Nat} (h : PaidBy ip arp s) (hw : Store.Wf ⟨s, none⟩)
    (hs : sweepReq rtable fuel node s = .ok s') : PaidBy ip arp s' := by
  obtain ⟨r, hmem, rfl, ⟨-, s₁, h₁, rfl⟩ | ⟨h5, -, rfl⟩ | ⟨-, -, rfl⟩⟩ := sweepReq_cases hs
  · have hloop := safeLoop_invariant (I := fun s => Store.Wf ⟨s, some r.node⟩ ∧ PaidBy ip arp s)
      (fun tag u u' hi hb => ⟨hi.1.path (sweepPacket_path hi.1 hb), hi.2.sweepPacket hi.1 hb⟩)
      ⟨hw.does (.begin s r.node), h⟩ h₁
    exact hloop.2.unlinked List.filter_sublist rfl rfl rfl rfl rfl
  · exact h.retry hw hmem h5
  · exact h.unlinked (List.Sublist.refl _) (List.append_nil _).symm rfl rfl rfl rfl

/-- A pass receives nothing. -/
theorem sweep {fuel : Nat} (h : PaidBy ip arp s) (hw : Store.Wf ⟨s, none⟩)
    (hs : arpcacheSweep rtable fuel s = .ok s') : PaidBy ip arp s' := by
  have htable : PaidBy ip arp (sweepTable s) :=
    h.unlinked (List.Sublist.refl _) (List.append_nil _).symm rfl rfl rfl rfl
  have hloop := safeLoop_invariant (I := fun s => Store.Wf ⟨s, none⟩ ∧ PaidBy ip arp s)
    (fun node u u' hi hb => ⟨(sweepReq_advances hi.1 hb).1, hi.2.sweepReq hi.1 hb⟩) ⟨hw.does (.expire s), htable⟩ hs
  exact hloop.2

/-! ## The steps -/

/-- A received frame. -/
theorem frame {iface : Iface} {packet : Frame} (h : PaidBy ip arp s) (hw : Store.Wf ⟨s, none⟩)
    (hs : handlePacket rtable iface packet s = .ok s') :
    PaidBy (ip + if packet.readU16 etherType = .ok ethPIp then 1 else 0)
      (arp + if packet.readU16 etherType = .ok ethPArp then 1 else 0) s' := by
  rcases handlePacket_cases hs with rfl | ⟨hip, out, dst, q, env, notes, -, hn, hs⟩ | ⟨harp, hs⟩
  · exact h.mono (Nat.le_add_right _ _) (Nat.le_add_right _ _)
  · have hnoted : PaidBy ip arp { s with env := env, trace := s.trace ++ notes } := h.noted hn rfl rfl
    rw [if_pos hip]
    exact (hnoted.submit hw.ip4s hs).mono (Nat.le_refl _) (Nat.le_add_right _ _)
  · obtain ⟨ea, s₁, -, h₁, rfl⟩ := handleArpPacket_cases hs
    have hlearn := h.learn h₁
    have hpaid : PaidBy ip (arp + 1) (if ea.op = arpopRequest then arpSendReply iface ea s₁ else s₁) := by
      split_ifs
      · rcases arpSendReply_cases iface ea s₁ with he | ⟨sha, he⟩
        · rw [he]
          exact hlearn.mono (Nat.le_refl _) (Nat.le_succ _)
        · rw [he]
          exact hlearn.reply
      · exact hlearn.mono (Nat.le_refl _) (Nat.le_succ _)
    rw [if_pos harp]
    exact hpaid.mono (Nat.le_add_right _ _) (Nat.le_refl _)

/-- One step. -/
theorem step {i : Input} (h : PaidBy ip arp s) (hw : Store.Wf ⟨s, none⟩) (hs : Step rtable i s s') :
    PaidBy (ip + received ethPIp [i]) (arp + received ethPArp [i]) s' := by
  cases hs with
  | @frame iface packet env _ _ hs =>
    have henv : PaidBy ip arp { s with env := env } :=
      h.unlinked (List.Sublist.refl _) (List.append_nil _).symm rfl rfl rfl rfl
    have hframe := henv.frame (hw.does (.env s none env)) hs
    simpa [received] using hframe
  | @sweep fuel env _ _ hs =>
    have henv : PaidBy ip arp { s with env := env } :=
      h.unlinked (List.Sublist.refl _) (List.append_nil _).symm rfl rfl rfl rfl
    exact (henv.sweep (hw.does (.env s none env)) hs)

theorem steps {C : Input → Router → Prop} {is : List Input} {env : Env}
    (h : Runs.Steps (Step rtable) C is (arpcacheInit env) s) :
    PaidBy (received ethPIp is) (received ethPArp is) s := by
  generalize hs₀ : arpcacheInit env = s₀ at h
  induction h with
  | refl =>
    subst hs₀
    constructor <;> simp [arpcacheInit, sentTags, waiting, queuedTags, givenUp, arpSent, repeatsLeft]
  | @step is i s₀ s₁ s₂ hrun hc hstep ih =>
    subst hs₀
    have hw : Store.Wf ⟨s₁, none⟩ := RunOf.wf (hrun.runOf (.init ⟨env, rfl⟩))
    rw [received_append, received_append]
    exact (ih rfl).step hw hstep

end PaidBy

/-- **The router does not amplify.** After any run, the IP packets that were sent and those that wait are no more
than the IP packets that were received: every packet that the router makes is an answer to a received one, or
takes the place of one that it gave up. The ARP frames are no more than one reply for each received ARP frame
and six requests for each IP packet that was received or given up. -/
theorem traffic_bounded {is : List Input} {env : Env} {s : Router}
    (h : Runs.Steps (Step rtable) (fun _ _ => True) is (arpcacheInit env) s) :
    (sentTags s.trace).length + (waiting s.reqList).length ≤ received ethPIp is ∧
      arpSent s.trace ≤ received ethPArp is + 6 * (received ethPIp is + (givenUp s.trace).length) := by
  have hpaid := PaidBy.steps h
  have hqueued := hpaid.queued
  have hframes := hpaid.frames
  exact ⟨hpaid.packets, by omega⟩

/-- A packet is given up, and the report about it is sent when its sender answers. -/
theorem traffic_bounded_report :
    ∃ (is : List Input) (s : Router), (received ethPIp is = 1 ∧ (sentTags s.trace).length = 1 ∧
        (givenUp s.trace).length = 1 ∧ arpSent s.trace = 7) ∧
      (sentTags s.trace).length + (waiting s.reqList).length ≤ received ethPIp is ∧
      arpSent s.trace ≤ received ethPArp is + 6 * (received ethPIp is + (givenUp s.trace).length) := by
  let is : List Input := [.frame Sample.eth0 (Sample.udp 0x0a000102 0x0a000202 64) (Sample.clockAt 0)] ++
    Sample.retries ++ [.sweep (Sample.clockAt 6),
      .frame Sample.eth0 (Sample.arpReply 0x0a000102 (Sample.station 9)) (Sample.clockAt 7)]
  have hrun : (Runs.replay (fun _ _ => True) (exec Sample.connected 8) is (arpcacheInit (Sample.clockAt 0))).any
      (fun s => received ethPIp is = 1 ∧ (sentTags s.trace).length = 1 ∧ (givenUp s.trace).length = 1 ∧
        arpSent s.trace = 7) = true := by decide +kernel
  obtain ⟨s, hs, hp⟩ := Runs.Steps.of_replay Step.of_exec hrun
  exact ⟨is, s, hp, traffic_bounded hs⟩

end StaticRouter
