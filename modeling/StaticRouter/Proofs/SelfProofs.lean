import StaticRouter.Proofs.RunProofs

/-!
# Proofs: a router and its own addresses

`handle_ip_packet` compares the destination with the address of the receiving interface only. What is
addressed to that one is answered, never forwarded. The other addresses of the router are resolved like
those of any station, unless the steps of the run submit nothing for them.
-/

namespace StaticRouter

open CMem

variable {rtable : List RtEntry} {ifaces : List Iface}

/-- Nothing is asked of the router itself: no request waits for one of its addresses, none was broadcast,
and no message was addressed to it. -/
structure NoSelf (ifaces : List Iface) (s : Router) : Prop where
  requests : ∀ r ∈ s.reqList, ¬ IsOwn ifaces r.ip4
  broadcasts : ∀ iface frame, .sent iface frame .arp ∈ s.trace →
    frame.readU16 arpOp = .ok arpopRequest → ∃ tpa, frame.readU32 arpTpa = .ok tpa ∧ ¬ IsOwn ifaces tpa
  messages : ∀ type code dst, .originated type code dst ∈ s.trace → ¬ IsOwn ifaces dst

/-- Nothing is submitted for the router itself, and ARP frames are replies or repeat a request. -/
def SparesSelf (ifaces : List Iface) : Act → Store → Prop
  | .originate _ _ dst, _ => ¬ IsOwn ifaces dst
  | .submit _ dst _, _ => ¬ IsOwn ifaces dst
  | .arp _ frame, st => frame.readU16 arpOp = .ok arpopReply ∨
      ∃ r ∈ st.router.reqList, frame = requestFrame r
  | _, _ => True

namespace NoSelf

variable {s s' : Router}

/-- A change that sends no ARP request and originates no message. -/
theorem quiet (h : NoSelf ifaces s) {new : List Event} (htr : s'.trace = s.trace ++ new)
    (hsent : ∀ iface frame, .sent iface frame .arp ∈ new →
      frame.readU16 arpOp = .ok arpopRequest → ∃ tpa, frame.readU32 arpTpa = .ok tpa ∧ ¬ IsOwn ifaces tpa)
    (hmsg : ∀ type code dst, .originated type code dst ∈ new → ¬ IsOwn ifaces dst)
    (hr : ∀ r ∈ s'.reqList, ¬ IsOwn ifaces r.ip4) : NoSelf ifaces s' where
  requests := hr
  broadcasts iface frame hs := by
    rw [htr] at hs
    exact (List.mem_append.mp hs).elim (h.broadcasts iface frame) (hsent iface frame)
  messages type code dst hm := by
    rw [htr] at hm
    exact (List.mem_append.mp hm).elim (h.messages type code dst) (hmsg type code dst)

/-- A request for an address that is not the router's. -/
theorem requestFrame_tpa {dst : UInt32} (hdst : ¬ IsOwn ifaces dst) (iface : Iface) :
    ∃ tpa, (arpFrame broadcastMac iface.mac arpopRequest iface.mac iface.ip zeroMac dst).readU32 arpTpa =
      .ok tpa ∧ ¬ IsOwn ifaces tpa :=
  ⟨dst, (readEtherArp_ok.mp (readEtherArp_arpFrame _ _ _ _ _ _ _)).2.1, hdst⟩

/-- A submission for an address that is not the router's. -/
theorem submit (h : NoSelf ifaces s) {iface : Iface} {dst : UInt32} {packet : Frame}
    (hdst : ¬ IsOwn ifaces dst) (hs : ifaceSendPacketByArp iface dst packet s = .ok s') :
    NoSelf ifaces s' := by
  obtain ⟨q, -, ⟨mac, frame, -, -, rfl⟩ | ⟨-, -, rfl⟩ | ⟨-, -, rfl⟩⟩ := ifaceSendPacketByArp_cases hs
  · exact h.quiet (List.append_assoc _ _ _) (by simp) (by simp) h.requests
  · refine h.quiet (List.append_assoc _ _ _) (by simp) (by simp) fun r hr => ?_
    obtain ⟨r₀, hr₀, rfl⟩ := List.mem_map.mp hr
    split_ifs <;> exact h.requests r₀ hr₀
  · refine h.quiet (by rw [List.append_assoc, List.append_assoc, List.append_assoc]) ?_ (by simp) ?_
    · intro i f hm _
      obtain ⟨rfl, rfl⟩ : i = iface ∧ f = arpFrame broadcastMac iface.mac arpopRequest iface.mac iface.ip
          zeroMac dst := by simpa using hm
      exact requestFrame_tpa hdst i
    · intro r hr
      rcases List.mem_append.mp hr with hr | hr
      · exact h.requests r hr
      · rw [List.mem_singleton.mp hr]; exact hdst

/-- Every action that spares the router itself keeps it so. -/
theorem does {act : Act} {st st' : Store} (h : NoSelf ifaces st.router) (hg : SparesSelf ifaces act st)
    (hd : Does act st st') : NoSelf ifaces st'.router := by
  cases hd with
  | env => exact h.quiet (List.append_nil _).symm (by simp) (by simp) h.requests
  | originate s ph type code dst =>
    refine h.quiet rfl (by simp) (fun t c d hm => ?_) h.requests
    obtain ⟨rfl, rfl, rfl⟩ : t = type ∧ c = code ∧ d = dst := by simpa using hm
    exact hg
  | arp s ph iface frame =>
    refine h.quiet rfl (fun i f hm hop => ?_) (by simp) h.requests
    obtain ⟨rfl, rfl⟩ : i = iface ∧ f = frame := by simpa using hm
    rcases hg with hrep | ⟨r, hr, rfl⟩
    · rw [hrep] at hop
      cases hop
    · exact requestFrame_tpa (h.requests r hr) r.iface
  | submit ph hs => exact h.submit hg hs
  | learn hi =>
    obtain ⟨-, rfl⟩ := arpcacheInsert_ok hi
    refine h.quiet rfl (fun i f hm => ?_) (fun t c d hm => ?_) fun r hr =>
      h.requests r (List.mem_of_mem_filter hr)
    · obtain ⟨r, -, hm⟩ := List.mem_flatMap.mp hm
      obtain ⟨p, -, hm⟩ := List.mem_map.mp hm
      cases hm
    · obtain ⟨r, -, hm⟩ := List.mem_flatMap.mp hm
      obtain ⟨p, -, hm⟩ := List.mem_map.mp hm
      cases hm
  | expire => exact h.quiet (List.append_nil _).symm (by simp) (by simp) h.requests
  | retry =>
    refine h.quiet (List.append_nil _).symm (by simp) (by simp) fun r hr => ?_
    obtain ⟨r₀, hr₀, rfl⟩ := List.mem_map.mp hr
    split_ifs <;> exact h.requests r₀ hr₀
  | begin => exact h.quiet (List.append_nil _).symm (by simp) (by simp) h.requests
  | giveUp =>
    refine h.quiet rfl (by simp) (by simp) fun r hr => ?_
    obtain ⟨r₀, hr₀, rfl⟩ := List.mem_map.mp hr
    split_ifs <;> exact h.requests r₀ hr₀
  | unlink =>
    exact h.quiet rfl (by simp) (by simp) fun r hr => h.requests r (List.mem_of_mem_filter hr)

end NoSelf

/-! ## Runs -/

/-- A step that submits nothing for the router spares it. -/
theorem AvoidsSelf.sparesSelf {i : Input} {s : Router} (hc : AvoidsSelf rtable ifaces i s) {act : Act}
    {st : Store} (ha : StepAct rtable s i act st) : SparesSelf ifaces act st := by
  cases i with
  | frame iface packet env =>
    cases act with
    | originate type code dst =>
      obtain ⟨hip, out, hhop⟩ := ha
      exact hc hip _ hhop
    | submit out dst q =>
      obtain ⟨hip, hsub, -⟩ := ha
      exact hc hip _ hsub.nextHop
    | arp out frame =>
      obtain ⟨-, -, dhost, sha, spa, tha, tpa, rfl⟩ := ha
      exact Or.inl (readEtherArp_ok.mp (readEtherArp_arpFrame _ _ _ _ _ _ _)).1
    | _ => trivial
  | sweep env =>
    cases act with
    | originate type code dst =>
      obtain ⟨td, htd, hdst⟩ := ha
      exact hc td htd dst hdst
    | submit out dst q =>
      obtain ⟨td, htd, hdst, -⟩ := ha
      exact hc td htd dst hdst
    | arp out frame =>
      obtain ⟨r, hr, -, hf⟩ := ha
      exact Or.inr ⟨r, hr, hf⟩
    | _ => trivial

/-- A frame for the address of the interface that it arrives on is not forwarded: whatever its step
submits is an echo reply to its source. -/
theorem local_delivery {iface : Iface} {packet : Frame} {env : Env} {s s' : Router}
    (h : Step rtable (.frame iface packet env) s s') (hip : packet.readU16 etherType = .ok ethPIp)
    (hd : destOf packet = iface.ip) : ∀ n out d q, .submitted n out d q ∈ s'.trace →
      .submitted n out d q ∈ s.trace ∨ d = sourceOf packet ∧ IcmpMessage out.ip (sourceOf packet) 0 q := by
  intro n out d q hm
  cases h with
  | frame h =>
    rcases handlePacket_cases h with rfl | ⟨-, out', dst, q', env', notes, hsub, hn, h⟩ | ⟨harp, -⟩
    · exact Or.inl hm
    · rcases (ifaceSendPacketByArp_submitted h n out d q).mp hm with hm | ⟨-, rfl, rfl, rfl⟩
      · rcases List.mem_append.mp hm with hm | hm
        · exact Or.inl hm
        · obtain ⟨type, code, he⟩ := hn _ hm
          cases he
      · right
        cases hsub with
        | forward _ _ hne => exact absurd hd hne
        | reply ht _ hq =>
          cases ht with
          | toIface => exact ⟨rfl, hq⟩
          | exceeded hne => exact absurd hd hne
          | unrouted hne => exact absurd hd hne
    · rw [hip] at harp
      cases harp

/-- **A router and its own addresses.** A frame for the address of its receiving interface is answered
and not forwarded. In a run whose steps submit nothing for the router itself, no request waits for one of
its addresses, none was broadcast, and no message was addressed to it. -/
theorem self_spared {s : Router} (h : RunOf rtable (AvoidsSelf rtable ifaces) s) :
    NoSelf ifaces s ∧ ∀ iface packet env s', Step rtable (.frame iface packet env) s s' →
      packet.readU16 etherType = .ok ethPIp → destOf packet = iface.ip →
      ∀ n out d q, .submitted n out d q ∈ s'.trace →
        .submitted n out d q ∈ s.trace ∨ d = sourceOf packet ∧ IcmpMessage out.ip (sourceOf packet) 0 q := by
  refine ⟨?_, fun iface packet env s' => local_delivery⟩
  have hinit : ∀ env, NoSelf ifaces (arpcacheInit env) := fun env => by
    constructor <;> simp [arpcacheInit]
  exact h.invariant (I := fun st => NoSelf ifaces st.router) hinit
    (fun i s hc _ act st ha => hc.sparesSelf ha) fun _ _ _ _ hg hi hd => hi.does hg hd

/-- A packet for a silent station was given up, and the report about it waits for its source. -/
theorem self_spared_two_packets :
    ∃ s : Router, s.reqList.map (·.ip4) = [0x0a000102] ∧ NoSelf [Sample.eth0, Sample.eth1] s := by
  obtain ⟨s, hs, hp⟩ := RunOf.of_replay Sample.connected
    (AvoidsSelf Sample.connected [Sample.eth0, Sample.eth1]) 8
    ([.frame Sample.eth0 (Sample.udp 0x0a000102 0x0a000202 64) (Sample.clockAt 0)] ++ Sample.retries ++
      [.sweep (Sample.clockAt 6)])
    (Sample.clockAt 0) (fun s => s.reqList.map (·.ip4) = [0x0a000102]) (by decide +kernel)
  exact ⟨s, hp, (self_spared hs).1⟩

/-- A frame that arrives on the first interface for the address of the second: the router waits for
itself. -/
theorem self_resolved :
    ∃ s, Reachable Sample.connected s ∧ ∃ r ∈ s.reqList, r.ip4 = Sample.eth1.ip := by
  obtain ⟨s, hs, hp⟩ := RunOf.of_replay Sample.connected (fun _ _ => True) 8
    [.frame Sample.eth0 (Sample.udp 0x0a000102 0x0a000201 64) (Sample.clockAt 0)]
    (Sample.clockAt 0) (fun s => ∃ r ∈ s.reqList, r.ip4 = Sample.eth1.ip) (by decide +kernel)
  exact ⟨s, hs, hp⟩

end StaticRouter
