import StaticRouter.Messages
import StaticRouter.Proofs.ArpProofs
import StaticRouter.Proofs.ChecksumProofs

/-!
# Proofs: the packets of `icmp.c` and `ip_forwarding.c`

What the header fields of the built and forwarded packets hold, and the outcomes of `icmp_send_packet`
and `handle_packet`.
-/

namespace StaticRouter

open CMem

/-! ## Header fields -/

theorem readU32_daddr {packet : Frame} {a : UInt32} (h : packet.readU32 ipDaddr = .ok a) :
    destOf packet = a := (Buffer.readU32_ok.mp h).2.symm

theorem SameDatagram.sourceOf {p q : Frame} (h : SameDatagram p q) : sourceOf q = sourceOf p := by
  rw [StaticRouter.sourceOf, h.2 ipSaddr 4 (by decide)]; rfl

theorem SameDatagram.destOf {p q : Frame} (h : SameDatagram p q) : destOf q = destOf p := by
  rw [StaticRouter.destOf, h.2 ipDaddr 4 (by decide)]; rfl

theorem SameDatagram.ihlOf {p q : Frame} (h : SameDatagram p q) : ihlOf q = ihlOf p := by
  rw [StaticRouter.ihlOf, h.2 ipIhl 1 (by decide)]; rfl

theorem SameDatagram.ttlOf {p q : Frame} (h : SameDatagram p q) : ttlOf q = ttlOf p := by
  rw [StaticRouter.ttlOf, h.2 ipTtl 1 (by decide)]; rfl

/-- The Ethernet header fields that are filled in before queueing leave the datagram alone. -/
theorem Filled.sameDatagram {iface : Iface} {p q : Frame} (h : Filled iface p q) : SameDatagram p q := by
  obtain ⟨p', h₁, h₂⟩ := h
  refine ⟨(Buffer.length_write h₂).trans (Buffer.length_write h₁), fun o n ho => ?_⟩
  have hmac := iface.mac.property
  rw [Buffer.slice_write h₂ (Or.inr (by simpa using ho)), Buffer.slice_write h₁ (Or.inr ?_)]
  rw [hmac]
  exact Nat.le_trans (by decide) ho

/-- A frame that leaves for a known station. -/
theorem Filled.sent {iface : Iface} {q q' g : Frame} {mac : Mac} (hf : Filled iface q q')
    (hw : q'.write etherDhost mac.val = .ok g) : SameDatagram q g ∧ g.readU16 etherType = .ok ethPIp := by
  have hsame := hf.sameDatagram
  have hmac := mac.property
  have hlen : g.length = q.length := (Buffer.length_write hw).trans hsame.1
  refine ⟨⟨hlen, fun o n ho => ?_⟩, ?_⟩
  · rw [Buffer.slice_write hw (Or.inr (by rw [hmac]; exact Nat.le_trans (by decide) ho))]
    exact hsame.2 o n ho
  · obtain ⟨p', -, h₂⟩ := hf
    have h2 := (Buffer.write_ok.mp h₂).1
    refine Buffer.readU16_ok.mpr ⟨?_, ?_⟩
    · rw [Buffer.length_write hw, Buffer.length_write h₂]
      exact h2
    · have ht := Buffer.slice_write_self h₂
      rw [Buffer.slice_write hw (Or.inr (by rw [hmac]; decide))]
      exact congrArg (fun bs => UInt16.ofNat (Buffer.beNat bs)) ht.symm

/-- The source address of a packet whose Ethernet header has been filled in. -/
theorem Filled.shost {iface : Iface} {p q frame : Frame} {mac : Mac} (h : Filled iface p q)
    (hw : q.write etherDhost mac.val = .ok frame) : frame.slice etherShost ethAlen = iface.mac.val := by
  obtain ⟨p', h₁, h₂⟩ := h
  have hmac := mac.property
  rw [Buffer.slice_write hw (Or.inr (by rw [hmac]; decide)), Buffer.slice_write h₂ (Or.inl (by decide))]
  have := Buffer.slice_write_self h₁
  rwa [iface.mac.property] at this

/-- The header that `ip_init_hdr` writes. -/
theorem ipInitHdr_ok {packet q : Frame} {src dst : UInt32} {len id : UInt16} {proto : UInt8}
    (h : ipInitHdr packet src dst len proto id = .ok q) :
    q.length = packet.length ∧
      q.slice ipIhl 10 = [0x45, 0] ++ Buffer.be16 len ++ Buffer.le16 id ++ Buffer.be16 ipDf ++
        [defaultTtl, proto] ∧
      q.slice ipSaddr 8 = Buffer.be32 src ++ Buffer.be32 dst := by
  simp only [ipInitHdr, bind_ok] at h
  obtain ⟨p₁, h₁, p₂, h₂, sum, -, h₃⟩ := h
  refine ⟨?_, ?_, ?_⟩
  · rw [Buffer.length_write h₃, Buffer.length_write h₂, Buffer.length_write h₁]
  · rw [Buffer.slice_write h₃ (Or.inl (by decide)), Buffer.slice_write h₂ (Or.inl (by decide))]
    exact Buffer.slice_write_self h₁
  · rw [Buffer.slice_write h₃ (Or.inr (by simp))]
    exact Buffer.slice_write_self h₂

/-- A packet whose IP header comes from `ip_init_hdr` and whose later writes lie behind it. -/
theorem IcmpMessage.of_header {src dst : UInt32} {type : UInt8} {len id : UInt16} {p q : Frame}
    (hh : p.slice ipIhl 10 = [0x45, 0] ++ Buffer.be16 len ++ Buffer.le16 id ++ Buffer.be16 ipDf ++
      [defaultTtl, 1])
    (ha : p.slice ipSaddr 8 = Buffer.be32 src ++ Buffer.be32 dst)
    (hq : ∀ o n, o + n ≤ icmpHdr → q.slice o n = p.slice o n) (ht : q.slice icmpHdr 1 = [type]) :
    IcmpMessage src dst type q where
  ihl := (hq _ _ (by decide)).trans (Buffer.slice_of_slice hh 0 (by decide))
  ttl := (hq _ _ (by decide)).trans (Buffer.slice_of_slice hh 8 (by decide))
  protocol := (hq _ _ (by decide)).trans (Buffer.slice_of_slice hh 9 (by decide))
  source := by
    have h4 : p.slice ipSaddr 4 = Buffer.be32 src := Buffer.slice_of_slice ha 0 (by decide)
    rw [sourceOf, hq _ _ (by decide), h4, Buffer.ofNat_beNat_be32]
  dest := by
    have h4 : p.slice ipDaddr 4 = Buffer.be32 dst := Buffer.slice_of_slice ha 4 (by decide)
    rw [destOf, hq _ _ (by decide), h4, Buffer.ofNat_beNat_be32]
  type := ht

theorem icmpError_ok {packet inPkt q : Frame} {src dst : UInt32} {type code : UInt8} {id : UInt16}
    (h : icmpError packet inPkt src dst type code id = .ok q) :
    q.length = packet.length ∧ IcmpMessage src dst type q := by
  simp only [icmpError, bind_ok] at h
  obtain ⟨p₁, h₁, p₂, h₂, quoted, hr, p₃, h₃, sum, -, h₄⟩ := h
  obtain ⟨hl, hh, ha⟩ := ipInitHdr_ok h₁
  refine ⟨?_, .of_header hh ha ?_ ?_⟩
  · rw [Buffer.length_write h₄, Buffer.length_write h₃, Buffer.length_write h₂, hl]
  · intro o n ho
    rw [Buffer.slice_write h₄ (Or.inl (by omega)), Buffer.slice_write h₃ (Or.inl (by omega)),
      Buffer.slice_write h₂ (Or.inl (by omega))]
  · rw [Buffer.slice_write h₄ (Or.inl (by decide)), Buffer.slice_write h₃ (Or.inl (by decide))]
    exact Buffer.slice_of_slice (Buffer.slice_write_self h₂) 0 (by simp)

theorem icmpEchoReply_ok {packet inPkt q : Frame} {ihl : Nat} {src dst : UInt32} {code : UInt8}
    {id : UInt16} (h : icmpEchoReply packet inPkt ihl src dst code id = .ok q) :
    q.length = packet.length ∧ IcmpMessage src dst 0 q := by
  simp only [icmpEchoReply, bind_ok] at h
  obtain ⟨p₁, h₁, p₂, h₂, idSeq, hi, p₃, h₃, data, hd, p₄, h₄, sum, -, h₅⟩ := h
  obtain ⟨hl, hh, ha⟩ := ipInitHdr_ok h₁
  refine ⟨?_, .of_header hh ha ?_ ?_⟩
  · rw [Buffer.length_write h₅, Buffer.length_write h₄, Buffer.length_write h₃,
      Buffer.length_write h₂, hl]
  · intro o n ho
    rw [Buffer.slice_write h₅ (Or.inl (by omega)), Buffer.slice_write h₄ (Or.inl (by omega)),
      Buffer.slice_write h₃ (Or.inl (by omega)), Buffer.slice_write h₂ (Or.inl (by omega))]
  · rw [Buffer.slice_write h₅ (Or.inl (by decide)), Buffer.slice_write h₄ (Or.inl (by decide)),
      Buffer.slice_write h₃ (Or.inl (by decide))]
    exact Buffer.slice_of_slice (Buffer.slice_write_self h₂) 0 (by simp)

/-! ## `icmp_send_packet` -/

theorem readIhl_eq {packet : Frame} (h : ipIhl + 1 ≤ packet.length) : readIhl packet = .ok (ihlOf packet) :=
  readIhl_ok.mpr ⟨_, Buffer.readU8_ok.mpr ⟨h, rfl⟩, rfl⟩

variable {rtable : List RtEntry} {inPkt : Frame} {type code : UInt8} {s : Router}

/-- Without a route to the source nothing is sent. -/
theorem icmpSendPacket_unrouted (hl : ipSaddr + 4 ≤ inPkt.length)
    (hr : longestPrefixMatch rtable (sourceOf inPkt) = none) :
    icmpSendPacket rtable inPkt type code s = .ok s := by
  have hihl : readIhl inPkt = .ok (ihlOf inPkt) := readIhl_eq (Nat.le_trans (by decide) hl)
  have hsrc : inPkt.readU32 ipSaddr = .ok (sourceOf inPkt) := Buffer.readU32_ok.mpr ⟨hl, rfl⟩
  simp only [icmpSendPacket, hihl, hsrc, ok_bind, hr]

/-- With a route to the source the message is built and submitted. -/
theorem icmpSendPacket_routed (ht : OwnType type) (hl : ipSaddr + 4 ≤ inPkt.length) {rt : RtEntry}
    (hr : longestPrefixMatch rtable (sourceOf inPkt) = some rt) :
    icmpSendPacket rtable inPkt type code s = builtMessage inPkt type code rt s >>= fun q =>
      ifaceSendPacketByArp rt.iface (sourceOf inPkt) q
        (s.drawn.log (.originated type code (sourceOf inPkt))) := by
  have hihl : readIhl inPkt = .ok (ihlOf inPkt) := readIhl_eq (Nat.le_trans (by decide) hl)
  have hsrc : inPkt.readU32 ipSaddr = .ok (sourceOf inPkt) := Buffer.readU32_ok.mpr ⟨hl, rfl⟩
  simp only [icmpSendPacket, hihl, hsrc, ok_bind, hr, builtMessage]
  by_cases h0 : type = 0
  · subst h0
    rfl
  · have herr : type = 3 ∨ type = 11 := ht.resolve_left h0
    simp only [h0, herr, if_false, if_true]
    rfl

/-- What `icmp_send_packet` builds is a message to the source. -/
theorem builtMessage_ok {rt : RtEntry} {q : Frame} (h : builtMessage inPkt type code rt s = .ok q) :
    q.length = (if type = 0 then inPkt.length else icmpErrorLen) ∧
      IcmpMessage rt.iface.ip (sourceOf inPkt) type q := by
  unfold builtMessage at h
  split_ifs at h ⊢ with h0
  · obtain ⟨hlen, hmsg⟩ := icmpEchoReply_ok h
    exact ⟨by rw [hlen, Router.malloc, List.length_map, List.length_range], h0 ▸ hmsg⟩
  · obtain ⟨hlen, hmsg⟩ := icmpError_ok h
    exact ⟨by rw [hlen, Router.malloc, List.length_map, List.length_range], hmsg⟩

/-- `icmp_send_packet` reads the source address. -/
theorem icmpSendPacket_length {s' : Router} (h : icmpSendPacket rtable inPkt type code s = .ok s') :
    ipSaddr + 4 ≤ inPkt.length := by
  simp only [icmpSendPacket, bind_ok] at h
  obtain ⟨-, -, saddr, hs, -⟩ := h
  exact (Buffer.readU32_ok.mp hs).1

/-- `icmp_send_packet` does nothing without a route to the source, and else submits one message to it. -/
theorem icmpSendPacket_cases {s' : Router} (ht : OwnType type)
    (h : icmpSendPacket rtable inPkt type code s = .ok s') :
    (longestPrefixMatch rtable (sourceOf inPkt) = none ∧ s' = s) ∨
      ∃ rt q, longestPrefixMatch rtable (sourceOf inPkt) = some rt ∧
        builtMessage inPkt type code rt s = .ok q ∧
        ifaceSendPacketByArp rt.iface (sourceOf inPkt) q
          (s.drawn.log (.originated type code (sourceOf inPkt))) = .ok s' := by
  have hl := icmpSendPacket_length h
  cases hr : longestPrefixMatch rtable (sourceOf inPkt) with
  | none =>
    rw [icmpSendPacket_unrouted hl hr] at h
    exact Or.inl ⟨rfl, (Except.ok.inj h).symm⟩
  | some rt =>
    rw [icmpSendPacket_routed ht hl hr, bind_ok] at h
    obtain ⟨q, hq, h⟩ := h
    exact Or.inr ⟨rt, q, rfl, hq, h⟩

/-! ## Forwarding -/

theorem forwardedPacket_ok {packet q : Frame} {ttl : UInt8} (h : forwardedPacket packet ttl = .ok q) :
    ∃ p sum, packet.write ipTtl [ttl - 1] = .ok p ∧ ipChecksum p = .ok sum ∧
      p.write ipCheck (Buffer.le16 sum) = .ok q := by
  simp only [forwardedPacket, bind_ok] at h
  obtain ⟨p, hp, sum, hs, hq⟩ := h
  exact ⟨p, sum, hp, hs, hq⟩

/-- Forwarding keeps the addresses. -/
theorem forwardedPacket_destOf {packet q : Frame} {ttl : UInt8}
    (h : forwardedPacket packet ttl = .ok q) : destOf q = destOf packet := by
  obtain ⟨p, sum, hp, -, hq⟩ := forwardedPacket_ok h
  rw [destOf, Buffer.slice_write hq (Or.inr (by simp)), Buffer.slice_write hp (Or.inr (by simp))]
  rfl

/-- Forwarding takes one hop from the time to live. -/
theorem forwardedPacket_ttlOf {packet q : Frame} {ttl : UInt8}
    (h : forwardedPacket packet ttl = .ok q) : ttlOf q = ttl - 1 := by
  obtain ⟨p, sum, hp, -, hq⟩ := forwardedPacket_ok h
  have hslice : q.slice ipTtl 1 = [ttl - 1] := by
    rw [Buffer.slice_write hq (Or.inl (by decide))]
    exact Buffer.slice_write_self hp
  rw [ttlOf, hslice]
  simp [Buffer.beNat]

/-- It does not wrap around. -/
theorem forwardedPacket_hops {packet q : Frame} {ttl : UInt8}
    (h : forwardedPacket packet ttl = .ok q) (h2 : 2 ≤ ttl.toNat) : (ttlOf q).toNat + 1 = ttl.toNat := by
  have hle : (1 : UInt8) ≤ ttl := UInt8.le_iff_toNat_le.mpr (by simpa using Nat.le_trans (by decide) h2)
  rw [forwardedPacket_ttlOf h, UInt8.toNat_sub_of_le _ _ hle, UInt8.toNat_one]
  omega

theorem forwardedPacket_length {packet q : Frame} {ttl : UInt8}
    (h : forwardedPacket packet ttl = .ok q) : q.length = packet.length := by
  obtain ⟨p, sum, hp, -, hq⟩ := forwardedPacket_ok h
  exact (Buffer.length_write hq).trans (Buffer.length_write hp)

/-! ## `handle_ip_packet` -/

section HandleIp

variable {iface : Iface} {packet : Frame}

theorem readU32_ipDaddr (h : etherHdrSize + iphdrSize ≤ packet.length) :
    packet.readU32 ipDaddr = .ok (destOf packet) := Buffer.readU32_ok.mpr ⟨h, rfl⟩

theorem readU8_ipTtl (h : etherHdrSize + iphdrSize ≤ packet.length) :
    packet.readU8 ipTtl = .ok (ttlOf packet) :=
  Buffer.readU8_ok.mpr ⟨Nat.le_trans (by decide) h, rfl⟩

/-- `ip_forward_packet` of a packet that goes on. -/
theorem ipForwardPacket_routed {ipDst : UInt32} (h : etherHdrSize + iphdrSize ≤ packet.length)
    (h2 : 2 ≤ (ttlOf packet).toNat) {rt : RtEntry} (hr : longestPrefixMatch rtable ipDst = some rt) :
    ipForwardPacket rtable ipDst packet s = forwardedPacket packet (ttlOf packet) >>= fun q =>
      ifaceSendPacketByArp rt.iface (if rt.gw = 0 then destOf packet else rt.gw) q s := by
  rw [ipForwardPacket, readU8_ipTtl h, ok_bind, if_neg (by omega), hr]
  cases hq : forwardedPacket packet (ttlOf packet) with
  | error e => rfl
  | ok q =>
    have hl : etherHdrSize + iphdrSize ≤ q.length := by rw [forwardedPacket_length hq]; exact h
    simp only [ok_bind, readU32_ipDaddr hl, forwardedPacket_destOf hq]

/-- A packet is answered or reported. -/
theorem handleIpPacket_answered (h : etherHdrSize + iphdrSize ≤ packet.length) {type : UInt8}
    (ha : answerType rtable iface packet = some type) :
    handleIpPacket rtable iface packet s = icmpSendPacket rtable packet type 0 s := by
  unfold answerType at ha
  rw [handleIpPacket, readU32_ipDaddr h, ok_bind]
  split_ifs at ha with hd h1 hr
  · rw [if_pos hd, ← Option.some.inj ha]
  · rw [if_neg hd, ipForwardPacket, readU8_ipTtl h, ok_bind, if_pos (by omega), ← Option.some.inj ha]
  · rw [if_neg hd, ipForwardPacket, readU8_ipTtl h, ok_bind, if_neg (by omega), hr, ← Option.some.inj ha]

/-- A packet that is not answered has a route. -/
theorem answerType_eq_none : answerType rtable iface packet = none ↔ destOf packet ≠ iface.ip ∧
    2 ≤ (ttlOf packet).toNat ∧ ∃ rt, longestPrefixMatch rtable (destOf packet) = some rt := by
  unfold answerType
  split_ifs with hd h1 hr
  · simp [hd]
  · simp [hd]
    omega
  · simp [hr]
  · rw [← ne_eq, Option.ne_none_iff_exists'] at hr
    simp only [true_iff]
    exact ⟨hd, by omega, hr⟩

/-- A packet is forwarded. -/
theorem handleIpPacket_forward (h : etherHdrSize + iphdrSize ≤ packet.length)
    (ha : answerType rtable iface packet = none) {rt : RtEntry}
    (hr : longestPrefixMatch rtable (destOf packet) = some rt) :
    handleIpPacket rtable iface packet s = forwardedPacket packet (ttlOf packet) >>= fun q =>
      ifaceSendPacketByArp rt.iface (if rt.gw = 0 then destOf packet else rt.gw) q s := by
  obtain ⟨hd, h2, -⟩ := answerType_eq_none.mp ha
  rw [handleIpPacket, readU32_ipDaddr h, ok_bind, if_neg hd, ipForwardPacket_routed h h2 hr]

/-- `handle_ip_packet` reads the destination address. -/
theorem handleIpPacket_length {s' : Router} (h : handleIpPacket rtable iface packet s = .ok s') :
    etherHdrSize + iphdrSize ≤ packet.length := by
  simp only [handleIpPacket, bind_ok] at h
  obtain ⟨daddr, hd, -⟩ := h
  exact (Buffer.readU32_ok.mp hd).1

theorem ReplyReason.ownType {type : UInt8} (h : ReplyReason rtable iface packet type) : OwnType type := by
  cases h with
  | toIface => exact Or.inl rfl
  | exceeded => exact Or.inr (Or.inr rfl)
  | unrouted => exact Or.inr (Or.inl rfl)

theorem ReplyReason.of_answerType (h : etherHdrSize + iphdrSize ≤ packet.length) {type : UInt8}
    (ha : answerType rtable iface packet = some type) : ReplyReason rtable iface packet type := by
  unfold answerType at ha
  split_ifs at ha with hd h1 hr
  · exact Option.some.inj ha ▸ .toIface hd
  · exact Option.some.inj ha ▸ .exceeded hd (readU8_ipTtl h) h1
  · exact Option.some.inj ha ▸ .unrouted hd hr

/-- `handle_ip_packet` answers or reports a packet, or forwards it. -/
theorem handleIpPacket_cases {s' : Router} (h : handleIpPacket rtable iface packet s = .ok s') :
    (∃ type, answerType rtable iface packet = some type ∧ ReplyReason rtable iface packet type ∧
        icmpSendPacket rtable packet type 0 s = .ok s') ∨
      ∃ rt q, answerType rtable iface packet = none ∧ packet.readU8 ipTtl = .ok (ttlOf packet) ∧
        longestPrefixMatch rtable (destOf packet) = some rt ∧
        forwardedPacket packet (ttlOf packet) = .ok q ∧
        ifaceSendPacketByArp rt.iface (if rt.gw = 0 then destOf packet else rt.gw) q s = .ok s' := by
  have hl := handleIpPacket_length h
  cases ha : answerType rtable iface packet with
  | some type =>
    rw [handleIpPacket_answered hl ha] at h
    exact Or.inl ⟨type, rfl, .of_answerType hl ha, h⟩
  | none =>
    obtain ⟨-, -, rt, hr⟩ := answerType_eq_none.mp ha
    rw [handleIpPacket_forward hl ha hr, bind_ok] at h
    obtain ⟨q, hq, h⟩ := h
    exact Or.inr ⟨rt, q, rfl, readU8_ipTtl hl, hr, hq, h⟩

/-! ## `handle_packet` -/

/-- The outcomes of `handle_packet`: nothing changes, one packet is submitted, or an ARP packet is
handled. -/
theorem handlePacket_cases {s' : Router} (h : handlePacket rtable iface packet s = .ok s') :
    s' = s ∨ (packet.readU16 etherType = .ok ethPIp ∧
        ∃ out dst q env notes, Submission rtable iface packet out dst q ∧
          (∀ e ∈ notes, ∃ type code, e = .originated type code dst) ∧
          ifaceSendPacketByArp out dst q { s with env := env, trace := s.trace ++ notes } = .ok s') ∨
      (packet.readU16 etherType = .ok ethPArp ∧ handleArpPacket iface packet s = .ok s') := by
  simp only [handlePacket, bind_ok] at h
  obtain ⟨type, ht, h⟩ := h
  split_ifs at h with hip harp
  · rcases handleIpPacket_cases h with ⟨type', -, hreason, h⟩ | ⟨rt, q, ha, httl, hr, hq, h⟩
    · rcases icmpSendPacket_cases hreason.ownType h with ⟨-, rfl⟩ | ⟨rt, q, hr, hq, h⟩
      · exact Or.inl rfl
      · exact Or.inr (Or.inl ⟨by rw [ht, hip], rt.iface, sourceOf packet, q, s.drawn.env,
          [.originated type' 0 (sourceOf packet)], .reply hreason hr (builtMessage_ok hq).2, by simp, h⟩)
    · obtain ⟨hd, h2, -⟩ := answerType_eq_none.mp ha
      refine Or.inr (Or.inl ⟨by rw [ht, hip], rt.iface, _, q, s.env, [],
        .forward httl h2 hd hr hq, by simp, ?_⟩)
      rw [forwardedPacket_destOf hq, List.append_nil]
      exact h
  · exact Or.inr (Or.inr ⟨by rw [ht, harp], h⟩)
  · exact Or.inl (Except.ok.inj h).symm

end HandleIp

/-! ## The rounds of `arpcache_sweep` -/

section Rounds

variable {rtable : List RtEntry} {s s' : Router} {node : Nat}

/-- What a round of the inner loop does: it reports a packet of the queue and deletes it. -/
theorem sweepPacket_cases {tag : Nat} (h : sweepPacket rtable node tag s = .ok s') :
    ∃ req ∈ s.reqList, req.node = node ∧ ∃ pkt ∈ req.cachedPackets, pkt.tag = tag ∧
      ((s.findReq node).bind fun req => req.cachedPackets.find? (·.tag = tag)) = some pkt ∧
      ∃ s₁, icmpSendPacket rtable pkt.packet 3 1 s = .ok s₁ ∧
        s' = (s₁.updateReq node (·.deletePkt tag)).log (.unreachable tag) := by
  unfold sweepPacket at h
  cases hf : (s.findReq node).bind fun req => req.cachedPackets.find? (·.tag = tag) with
  | none =>
    rw [hf] at h
    cases h
  | some pkt =>
    rw [hf] at h
    obtain ⟨s₁, h₁, h⟩ := bind_ok.mp h
    obtain ⟨req, hreq, hpkt⟩ := Option.bind_eq_some_iff.mp hf
    exact ⟨req, List.mem_of_find?_eq_some hreq, by simpa using List.find?_some hreq,
      pkt, List.mem_of_find?_eq_some hpkt, by simpa using List.find?_some hpkt, rfl,
      s₁, h₁, (Except.ok.inj h).symm⟩

/-- What a round of the outer loop does: it gives a request up, repeats it, or leaves it. -/
theorem sweepReq_cases {fuel : Nat} (h : sweepReq rtable fuel node s = .ok s') :
    ∃ req ∈ s.reqList, req.node = node ∧
      ((5 ≤ req.retries ∧ ∃ s₁,
          forEachSafe (Router.queueNodes node) (sweepPacket rtable node) fuel s = .ok s₁ ∧
          s' = { s₁ with reqList := s₁.reqList.filter (·.node ≠ node) }.log (.dropped req.ip4)) ∨
        (req.retries < 5 ∧ 1 ≤ s.time.1 - req.sent ∧
          s' = arpSendRequest req.iface req.ip4
            (s.time.2.updateReq node fun req => { req with retries := req.retries + 1 })) ∨
        (req.retries < 5 ∧ s.time.1 - req.sent < 1 ∧ s' = s.time.2)) := by
  unfold sweepReq at h
  cases hf : s.findReq node with
  | none =>
    rw [hf] at h
    cases h
  | some req =>
    rw [hf] at h
    refine ⟨req, List.mem_of_find?_eq_some hf, by simpa using List.find?_some hf, ?_⟩
    simp only at h
    split_ifs at h with h5 ht
    · obtain ⟨s₁, h₁, h⟩ := bind_ok.mp h
      exact Or.inl ⟨h5, s₁, h₁, (Except.ok.inj h).symm⟩
    · exact Or.inr (Or.inl ⟨by omega, by omega, (Except.ok.inj h).symm⟩)
    · exact Or.inr (Or.inr ⟨by omega, by omega, (Except.ok.inj h).symm⟩)

end Rounds

end StaticRouter
