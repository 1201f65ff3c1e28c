import StaticRouter.Proofs.HistoryProofs

/-!
# Proofs: frames that are parsed within bounds

Which frames `handle_packet` handles to the end, for which it leaves the frame or a buffer, and for which
the assertion of `checksum` fails.
-/

namespace StaticRouter

open CMem

/-! ## Forwarding -/

section Forwarding

variable {packet : Frame}

/-- The time to live is not part of what the header length is read from. -/
theorem payloadOffset_write {p : Frame} {bs : List UInt8} (h : packet.write ipTtl bs = .ok p) :
    payloadOffset p = payloadOffset packet := by
  rw [payloadOffset, payloadOffset, ihlOf, ihlOf, Buffer.slice_write h (Or.inl (by decide))]

/-- A packet whose header lies inside the frame can be forwarded. -/
theorem exists_forwardedPacket (h : etherHdrSize + iphdrSize ≤ packet.length)
    (hp : payloadOffset packet ≤ packet.length) (ttl : UInt8) :
    ∃ q, forwardedPacket packet ttl = .ok q := by
  obtain ⟨p, hw, hl⟩ := Buffer.exists_write (b := packet) ipTtl [ttl - 1]
    (Nat.le_trans (Nat.le_of_ble_eq_true rfl) h)
  obtain ⟨sum, hs⟩ := exists_ipChecksum (by rw [hl]; exact h : etherHdrSize + iphdrSize ≤ p.length)
    (by rw [payloadOffset_write hw, hl]; exact hp)
  obtain ⟨q, hq, -⟩ := Buffer.exists_write (b := p) ipCheck (Buffer.le16 sum)
    (by rw [hl]; exact Nat.le_trans (Nat.le_of_ble_eq_true rfl) h)
  exact ⟨q, by simp only [forwardedPacket, hw, hs, hq, ok_bind]⟩

theorem forwardedPacket_outOfBounds (h : etherHdrSize + iphdrSize ≤ packet.length)
    (hp : ¬ payloadOffset packet ≤ packet.length) (ttl : UInt8) :
    forwardedPacket packet ttl = .error .outOfBounds := by
  obtain ⟨p, hw, hl⟩ := Buffer.exists_write (b := packet) ipTtl [ttl - 1]
    (Nat.le_trans (Nat.le_of_ble_eq_true rfl) h)
  have hs := ipChecksum_outOfBounds (by rw [hl]; exact h : etherHdrSize + iphdrSize ≤ p.length)
    (by rw [payloadOffset_write hw, hl]; exact hp)
  simp only [forwardedPacket, hw, hs, ok_bind, error_bind]

/-- A packet that lives on and has a route is forwarded. -/
theorem exists_ipForwardPacket {rtable : List RtEntry} {rt : RtEntry} {ipDst : UInt32}
    (h : etherHdrSize + iphdrSize ≤ packet.length) (hp : payloadOffset packet ≤ packet.length)
    (h2 : 2 ≤ (ttlOf packet).toNat) (hr : longestPrefixMatch rtable ipDst = some rt) (s : Router) :
    ∃ s', ipForwardPacket rtable ipDst packet s = .ok s' := by
  obtain ⟨q, hq⟩ := exists_forwardedPacket h hp (ttlOf packet)
  rw [ipForwardPacket_routed h h2 hr, hq, ok_bind]
  refine exists_ifaceSendPacketByArp ?_ _ _ _
  rw [forwardedPacket_length hq]
  exact Nat.le_trans (by decide) h

end Forwarding

variable {rtable : List RtEntry} {iface : Iface} {packet : Frame} {s : Router}

/-! ## `handle_ip_packet` -/

theorem answerType_eq_zero : answerType rtable iface packet = some 0 ↔ destOf packet = iface.ip := by
  unfold answerType
  split_ifs with hd h1 hr <;> simp [hd]

/-- What `handle_ip_packet` accesses is there, and an echo reply has an even length. -/
theorem exists_handleIpPacket (hb : IpInBounds rtable iface packet) (hshort : packet.length < 2 ^ 64)
    (heven : destOf packet = iface.ip → Routed rtable (sourceOf packet) → packet.length % 2 = 0) :
    ∃ s', handleIpPacket rtable iface packet s = .ok s' := by
  cases ha : answerType rtable iface packet with
  | some type =>
    rw [handleIpPacket_answered hb.header ha]
    refine exists_icmpSendPacket (ReplyReason.of_answerType hb.header ha).ownType hb.header
      (fun _ => hshort) (hb.answer type ha) fun hr h0 => ?_
    exact heven (answerType_eq_zero.mp (by rw [ha, h0])) hr
  | none =>
    obtain ⟨-, -, rt, hr⟩ := answerType_eq_none.mp ha
    obtain ⟨q, hq⟩ := exists_forwardedPacket hb.header (hb.forward ha) (ttlOf packet)
    rw [handleIpPacket_forward hb.header ha hr, hq, ok_bind]
    refine exists_ifaceSendPacketByArp ?_ _ _ _
    rw [forwardedPacket_length hq]
    exact Nat.le_trans (by decide) hb.header

/-- An echo reply of odd length fails the assertion. -/
theorem handleIpPacket_assertFailed (hb : IpInBounds rtable iface packet)
    (hshort : packet.length < 2 ^ 64) (hd : destOf packet = iface.ip)
    (hr : Routed rtable (sourceOf packet)) (hodd : ¬ packet.length % 2 = 0) :
    handleIpPacket rtable iface packet s = .error .assertFailed := by
  have ha : answerType rtable iface packet = some 0 := answerType_eq_zero.mpr hd
  rw [handleIpPacket_answered hb.header ha]
  exact icmpSendPacket_assertFailed hshort hr (hb.answer 0 ha hr) hodd

/-- If something is not there, an access leaves the frame or a buffer. -/
theorem handleIpPacket_outOfBounds (hb : ¬ IpInBounds rtable iface packet)
    (hshort : packet.length < 2 ^ 64) :
    handleIpPacket rtable iface packet s = .error .outOfBounds := by
  by_cases hhead : etherHdrSize + iphdrSize ≤ packet.length
  · cases ha : answerType rtable iface packet with
    | some type =>
      have hno : ¬ (Routed rtable (sourceOf packet) → Buildable type packet) := by
        intro hyes
        refine hb ⟨hhead, fun t ht => ?_, fun h => ?_⟩
        · rw [ha, Option.mem_some_iff] at ht
          exact ht ▸ hyes
        · rw [ha] at h
          cases h
      rw [Classical.not_imp] at hno
      rw [handleIpPacket_answered hhead ha]
      exact icmpSendPacket_outOfBounds (ReplyReason.of_answerType hhead ha).ownType hhead
        (fun _ => hshort) hno.1 hno.2
    | none =>
      obtain ⟨-, -, rt, hr⟩ := answerType_eq_none.mp ha
      have hno : ¬ payloadOffset packet ≤ packet.length := by
        intro hp
        refine hb ⟨hhead, fun t ht => ?_, fun _ => hp⟩
        rw [ha] at ht
        cases ht
      rw [handleIpPacket_forward hhead ha hr, forwardedPacket_outOfBounds hhead hno, error_bind]
  · have hd : packet.readU32 ipDaddr = .error .outOfBounds := Buffer.map_error.mpr (if_neg hhead)
    rw [handleIpPacket, hd, error_bind]

/-! ## `handle_arp_packet` -/

/-- The ARP header behind the Ethernet header. -/
theorem exists_readEtherArp (h : etherHdrSize + etherArpSize ≤ packet.length) :
    ∃ ea, readEtherArp packet = .ok ea := by
  have hop := Buffer.readU16_ok.mpr ⟨(Nat.le_trans (by decide) h : arpOp + 2 ≤ packet.length), rfl⟩
  have htpa := Buffer.readU32_ok.mpr ⟨(Nat.le_trans (by decide) h : arpTpa + 4 ≤ packet.length), rfl⟩
  have hspa := Buffer.readU32_ok.mpr ⟨(Nat.le_trans (by decide) h : arpSpa + 4 ≤ packet.length), rfl⟩
  have hl : arpSha + ethAlen ≤ packet.length := Nat.le_trans (by decide) h
  have hsha : readMac packet arpSha = .ok ⟨_, Buffer.length_slice hl⟩ := dif_pos hl
  exact ⟨⟨_, _, _, _⟩, readEtherArp_ok.mpr ⟨hop, htpa, hspa, hsha⟩⟩

/-- A frame that is too short for it. -/
theorem readEtherArp_outOfBounds (h : ¬ etherHdrSize + etherArpSize ≤ packet.length) :
    readEtherArp packet = .error .outOfBounds := by
  have htpa : packet.readU32 arpTpa = .error .outOfBounds := Buffer.map_error.mpr (if_neg h)
  refine bind_outOfBounds (fun e he => ?_) fun op _ => ?_
  · exact Buffer.read_error (Buffer.map_error.mp he)
  · rw [htpa, error_bind]

section Flush

variable (ip4 : UInt32) (mac : Mac)

theorem exists_flushPackets (iface : Iface) {pkts : List CachedPkt}
    (h : ∀ p ∈ pkts, etherHdrSize ≤ p.packet.length) (s : Router) :
    ∃ s', flushPackets iface ip4 mac pkts s = .ok s' := by
  induction pkts generalizing s with
  | nil => exact ⟨s, rfl⟩
  | cons p pkts ih =>
    have hp : etherDhost + mac.val.length ≤ p.packet.length := by
      rw [mac.property]
      exact Nat.le_trans (by decide) (h p List.mem_cons_self)
    obtain ⟨frame, hw, -⟩ := Buffer.exists_write etherDhost mac.val hp
    rw [flushPackets, hw, ok_bind]
    exact ih (fun p' hp' => h p' (List.mem_cons_of_mem p hp')) _

theorem exists_flushReqs {reqs : List ArpReq}
    (h : ∀ r ∈ reqs, ∀ p ∈ r.cachedPackets, etherHdrSize ≤ p.packet.length) (s : Router) :
    ∃ s', flushReqs ip4 mac reqs s = .ok s' := by
  induction reqs generalizing s with
  | nil => exact ⟨s, rfl⟩
  | cons r reqs ih =>
    have hrest := fun r' hr' => h r' (List.mem_cons_of_mem r hr')
    rw [flushReqs]
    split_ifs
    · obtain ⟨s₁, h₁⟩ := exists_flushPackets ip4 mac r.iface (h r List.mem_cons_self) s
      rw [h₁, ok_bind]
      exact ih hrest s₁
    · exact ih hrest s

/-- Every packet that waits can be sent. -/
theorem exists_arpcacheInsert (hf : Framed s) : ∃ s', arpcacheInsert ip4 mac s = .ok s' := by
  obtain ⟨s₁, h₁⟩ := exists_flushReqs ip4 mac hf { s with
    table := (tableInsert s.env.before ip4 mac s.table s.env.clock).1
    env := { s.env with clock := (tableInsert s.env.before ip4 mac s.table s.env.clock).2 } }
  exact ⟨_, by rw [arpcacheInsert, h₁, ok_bind]⟩

end Flush

theorem exists_handleArpPacket (h : etherHdrSize + etherArpSize ≤ packet.length) (hf : Framed s) :
    ∃ s', handleArpPacket iface packet s = .ok s' := by
  obtain ⟨ea, hea⟩ := exists_readEtherArp h
  obtain ⟨s₁, h₁⟩ := exists_arpcacheInsert ea.spa ea.sha hf
  rw [handleArpPacket, hea, ok_bind, h₁, ok_bind]
  split_ifs
  · exact ⟨_, rfl⟩
  · exact ⟨_, rfl⟩

theorem handleArpPacket_outOfBounds (h : ¬ etherHdrSize + etherArpSize ≤ packet.length) :
    handleArpPacket iface packet s = .error .outOfBounds := by
  rw [handleArpPacket, readEtherArp_outOfBounds h, error_bind]

/-! ## `handle_packet` -/

theorem handlePacket_ip (h : packet.readU16 etherType = .ok ethPIp) :
    handlePacket rtable iface packet s = handleIpPacket rtable iface packet s := by
  simp only [handlePacket, h, ok_bind, if_true]

theorem handlePacket_arp (h : packet.readU16 etherType = .ok ethPArp) :
    handlePacket rtable iface packet s = handleArpPacket iface packet s := by
  have hne : ¬ ethPArp = ethPIp := by decide
  simp only [handlePacket, h, ok_bind, hne, if_false, if_true]

/-- A frame of another type is dropped. -/
theorem handlePacket_other (h : etherHdrSize ≤ packet.length)
    (hip : packet.readU16 etherType ≠ .ok ethPIp) (harp : packet.readU16 etherType ≠ .ok ethPArp) :
    handlePacket rtable iface packet s = .ok s := by
  have htype := Buffer.readU16_ok.mpr ⟨(h : etherType + 2 ≤ packet.length), rfl⟩
  rw [htype, ne_eq, Except.ok.injEq] at hip harp
  simp only [handlePacket, htype, ok_bind, hip, harp, if_false]

/-- If what `handle_packet` accesses is there, and an echo reply has an even length, the frame is
handled. -/
theorem exists_handlePacket (hb : InBounds rtable iface packet) (hf : Framed s)
    (hshort : packet.length < 2 ^ 64)
    (heven : TakesEchoPath rtable iface packet → packet.length % 2 = 0) :
    ∃ s', handlePacket rtable iface packet s = .ok s' := by
  by_cases hip : packet.readU16 etherType = .ok ethPIp
  · rw [handlePacket_ip hip]
    exact exists_handleIpPacket (hb.ip hip) hshort fun hd hr => heven ⟨hip, hd, hr⟩
  · by_cases harp : packet.readU16 etherType = .ok ethPArp
    · rw [handlePacket_arp harp]
      exact exists_handleArpPacket (hb.arp harp) hf
    · exact ⟨s, handlePacket_other hb.ether hip harp⟩

theorem handlePacket_assertFailed (hb : InBounds rtable iface packet) (hshort : packet.length < 2 ^ 64)
    (he : TakesEchoPath rtable iface packet) (hodd : ¬ packet.length % 2 = 0) :
    handlePacket rtable iface packet s = .error .assertFailed := by
  rw [handlePacket_ip he.type]
  exact handleIpPacket_assertFailed (hb.ip he.type) hshort he.dest he.routed hodd

theorem handlePacket_outOfBounds (hb : ¬ InBounds rtable iface packet) (hshort : packet.length < 2 ^ 64) :
    handlePacket rtable iface packet s = .error .outOfBounds := by
  by_cases hether : etherHdrSize ≤ packet.length
  · by_cases hip : packet.readU16 etherType = .ok ethPIp
    · -- the other conjuncts of `InBounds` say nothing about an IPv4 frame
      have hno : ¬ IpInBounds rtable iface packet := by
        refine fun h => hb ⟨hether, fun _ => h, fun harp => ?_⟩
        rw [hip] at harp
        cases harp
      rw [handlePacket_ip hip, handleIpPacket_outOfBounds hno hshort]
    · -- of the other types only ARP asks for more than the Ethernet header
      have harp : packet.readU16 etherType = .ok ethPArp ∧ ¬ etherHdrSize + etherArpSize ≤ packet.length := by
        by_contra hno
        refine hb ⟨hether, fun h => absurd h hip, fun h => ?_⟩
        by_contra hlen
        exact hno ⟨h, hlen⟩
      rw [handlePacket_arp harp.1, handleArpPacket_outOfBounds harp.2]
  · have htype : packet.readU16 etherType = .error .outOfBounds := Buffer.map_error.mpr (if_neg hether)
    rw [handlePacket, htype, error_bind]

/-- In every run the packets that wait have an Ethernet header. -/
theorem RunOf.framed {C : Input → Router → Prop} (h : RunOf rtable C s) : Framed s := by
  intro r hr p hp
  obtain ⟨iface, packet, -, p', h₁, h₂⟩ := (RunOf.recorded h).waiting r hr p hp
  rw [Buffer.length_write h₂]
  exact (Buffer.write_ok.mp h₂).1

/-! ## Within bounds -/

/-- **Which frames are parsed within bounds.** Handling a frame stays inside it and inside every packet
that is built, and the length that an echo reply copies does not wrap around, if and only if the frame
holds what its path through the code needs. -/
theorem handlePacket_withinBounds_iff (hf : Framed s) (hl : packet.length ≤ ethFrameLen) :
    (handlePacket rtable iface packet s ≠ .error .outOfBounds ∧
        (TakesEchoPath rtable iface packet →
          (sizeSub packet.length (etherHdrSize + ihlOf packet * 4 + icmphdrSize) : Int) =
            packet.length - (etherHdrSize + ihlOf packet * 4 + icmphdrSize : Nat))) ↔
      InBounds rtable iface packet := by
  have hshort : packet.length < 2 ^ 64 := Nat.lt_of_le_of_lt hl (by decide)
  constructor
  · rintro ⟨hok, -⟩
    by_contra hb
    exact hok (handlePacket_outOfBounds hb hshort)
  · intro hb
    refine ⟨fun hbad => ?_, fun he => ?_⟩
    · -- the assertion may fail, but that is no access
      by_cases hodd : TakesEchoPath rtable iface packet ∧ ¬ packet.length % 2 = 0
      · rw [handlePacket_assertFailed hb hshort hodd.1 hodd.2] at hbad
        cases hbad
      · obtain ⟨s', hs⟩ : ∃ s', handlePacket rtable iface packet s = .ok s' := by
          refine exists_handlePacket hb hf hshort fun he => ?_
          by_contra hpar
          exact hodd ⟨he, hpar⟩
        rw [hs] at hbad
        cases hbad
    · have hbuild := (hb.ip he.type).answer 0 (answerType_eq_zero.mpr he.dest) he.routed
      have hle : etherHdrSize + ihlOf packet * 4 + icmphdrSize ≤ packet.length :=
        (buildable_reply.mp hbuild).2
      rw [sizeSub_of_le hle hshort]
      omega

theorem framed_init (env : Env) : Framed (arpcacheInit env) := by
  intro r hr
  cases hr

/-- An echo request without data fills its frame. -/
theorem handlePacket_withinBounds_iff_ping :
    handlePacket Sample.connected Sample.eth0
        (Sample.ipv4 5 28 64 1 0x0a000102 0x0a000101 (Sample.ping []))
        (arpcacheInit (Sample.clockAt 0)) ≠ .error .outOfBounds :=
  ((handlePacket_withinBounds_iff (framed_init _) (by decide)).mpr (by decide)).1

/-- An echo request that claims to have 40 bytes of options and has none is read behind its end. -/
theorem handlePacket_leavesFrame :
    ∃ packet : Frame, 1 ≤ packet.length ∧ packet.length ≤ ethFrameLen ∧
      handlePacket Sample.connected Sample.eth0 packet (arpcacheInit (Sample.clockAt 0)) =
        .error .outOfBounds :=
  ⟨Sample.ipv4 15 28 64 1 0x0a000102 0x0a000101 (Sample.ping []), by decide, by decide,
    handlePacket_outOfBounds (by decide) (by decide)⟩

/-! ## The assertion of `checksum` -/

/-- The sweep computes checksums of even lengths only. -/
theorem arpcacheSweep_ne_assertFailed (fuel : Nat) (s : Router) :
    arpcacheSweep rtable fuel s ≠ .error .assertFailed := by
  intro h
  refine forEachSafe_error (E := (· ≠ .assertFailed)) (by decide) ?_ h rfl
  intro node s e he
  unfold sweepReq at he
  cases hf : s.findReq node with
  | none =>
    simp only [hf] at he
    rw [← Except.error.inj he]
    decide
  | some req =>
    simp only [hf] at he
    split_ifs at he
    rcases bind_error he with he | ⟨s₁, -, he⟩
    · refine forEachSafe_error (E := (· ≠ .assertFailed)) (by decide) (fun tag s e hb => ?_) he
      rw [sweepPacket_error hb]
      decide
    · cases he

/-- **Which frames abort the router.** Neither handling a frame whose headers lie inside it nor a later
sweep fails the assertion of `checksum`, if and only if a frame that takes the path of an echo request has
an even length. -/
theorem handlePacket_neverAborts_iff (hw : WellFormed packet) (hp : payloadOffset packet ≤ packet.length)
    (hicmp : destOf packet = iface.ip → payloadOffset packet + icmphdrSize ≤ packet.length)
    (hl : packet.length ≤ ethFrameLen) :
    (handlePacket rtable iface packet s ≠ .error .assertFailed ∧
        ∀ s' s'' fuel env, handlePacket rtable iface packet s = .ok s' → Later rtable s' s'' →
          arpcacheSweep rtable fuel { s'' with env := env } ≠ .error .assertFailed) ↔
      (destOf packet = iface.ip → Routed rtable (sourceOf packet) → packet.length % 2 = 0) := by
  have hshort : packet.length < 2 ^ 64 := Nat.lt_of_le_of_lt hl (by decide)
  rw [handlePacket_ip hw.type]
  constructor
  · rintro ⟨hok, -⟩ hd hr
    have ha : answerType rtable iface packet = some 0 := answerType_eq_zero.mpr hd
    have hb : IpInBounds rtable iface packet := by
      refine ⟨Nat.le_trans (header_le_payloadOffset hw.ihl) hp, fun type ht _ => ?_, fun h => ?_⟩
      · rw [ha, Option.mem_some_iff] at ht
        exact ht ▸ buildable_reply.mpr ⟨hw.ihl, hicmp hd⟩
      · rw [ha] at h
        cases h
    by_contra hodd
    exact hok (handleIpPacket_assertFailed hb hshort hd hr hodd)
  · intro heven
    refine ⟨fun hbad => ?_, fun _ s'' fuel env _ _ => arpcacheSweep_ne_assertFailed fuel _⟩
    by_cases hb : IpInBounds rtable iface packet
    · obtain ⟨s', hs⟩ := exists_handleIpPacket (s := s) hb hshort heven
      rw [hs] at hbad
      cases hbad
    · rw [handleIpPacket_outOfBounds hb hshort] at hbad
      cases hbad

/-- An echo request with a header and eight bytes of data does not abort the router. -/
theorem handlePacket_neverAborts_iff_ping :
    handlePacket Sample.connected Sample.eth0
        (Sample.ipv4 5 36 64 1 0x0a000102 0x0a000101 (Sample.ping (List.replicate 8 0)))
        (arpcacheInit (Sample.clockAt 0)) ≠ .error .assertFailed :=
  ((handlePacket_neverAborts_iff ⟨by decide, by decide⟩ (by decide) (by decide) (by decide)).mpr
    (by decide)).1

/-- An echo request with one byte of data does. -/
theorem handlePacket_aborts :
    ∃ packet : Frame, WellFormed packet ∧ payloadOffset packet + icmphdrSize ≤ packet.length ∧
      packet.length ≤ ethFrameLen ∧ Reachable Sample.connected (arpcacheInit (Sample.clockAt 0)) ∧
      handlePacket Sample.connected Sample.eth0 packet (arpcacheInit (Sample.clockAt 0)) =
        .error .assertFailed :=
  ⟨Sample.ipv4 5 29 64 1 0x0a000102 0x0a000101 (Sample.ping [0]), ⟨by decide, by decide⟩, by decide,
    by decide, .init ⟨_, rfl⟩,
    handlePacket_assertFailed (by decide) (by decide) ⟨by decide, by decide, by decide⟩ (by decide)⟩

end StaticRouter
