import StaticRouter.Proofs.MessageProofs
import StaticRouter.Proofs.ParsingProofs

/-!
# Proofs: the next hop

`ip_forward_packet` hands a packet to the gateway of its route, `icmp_send_packet` hands a message to the
destination itself.
-/

namespace StaticRouter

open CMem

variable {rtable : List RtEntry} {rt : RtEntry}

/-- What `icmp_send_packet` chooses. -/
theorem hopsSince_icmpSendPacket {inPkt : Frame} {type code : UInt8} {s s' : Router} (ht : OwnType type)
    (hr : longestPrefixMatch rtable (sourceOf inPkt) = some rt)
    (h : icmpSendPacket rtable inPkt type code s = .ok s') :
    hopsSince s s' = [(rt.iface, sourceOf inPkt)] := by
  obtain ⟨q, -, hsub, -⟩ := icmpSendPacket_submitted ht hr h
  rw [hopsSince, hsub]
  rfl

/-- What `ip_forward_packet` chooses. -/
theorem hopsSince_ipForwardPacket {packet : Frame} {s s' : Router} (h2 : 2 ≤ (ttlOf packet).toNat)
    (hr : longestPrefixMatch rtable (destOf packet) = some rt)
    (h : ipForwardPacket rtable (destOf packet) packet s = .ok s') :
    hopsSince s s' = [(rt.iface, if rt.gw = 0 then destOf packet else rt.gw)] := by
  simp only [ipForwardPacket, bind_ok] at h
  obtain ⟨ttl, ht, h⟩ := h
  have httl : ttlOf packet = ttl := (Buffer.readU8_ok.mp ht).2.symm
  rw [if_neg (by rw [← httl]; omega), hr] at h
  simp only [bind_ok] at h
  obtain ⟨q, hq, daddr, hd, h⟩ := h
  have hdest : daddr = destOf packet := by
    rw [← forwardedPacket_destOf hq]
    exact (readU32_daddr hd).symm
  rw [hopsSince, (submittedSince_of_submitted h).1, hdest]
  rfl

/-- **Which messages take the way of forwarded packets.** A message to the source of a packet is handed to
the next hop that a packet for that address would be handed to, if and only if the route to it has no
gateway, or the gateway is the source itself. -/
theorem icmpSendPacket_nextHop_iff {inPkt packet : Frame} {type code : UInt8} {s s' t t' : Router}
    (ht : OwnType type) (hr : longestPrefixMatch rtable (sourceOf inPkt) = some rt)
    (hs : icmpSendPacket rtable inPkt type code s = .ok s') (hd : destOf packet = sourceOf inPkt)
    (h2 : 2 ≤ (ttlOf packet).toNat) (hf : ipForwardPacket rtable (destOf packet) packet t = .ok t') :
    (hopsSince s s' = hopsSince t t' ∧
        hopsSince s s' = [(rt.iface, if rt.gw = 0 then sourceOf inPkt else rt.gw)]) ↔
      rt.gw = 0 ∨ rt.gw = sourceOf inPkt := by
  have hmsg := hopsSince_icmpSendPacket ht hr hs
  have hfwd := hopsSince_ipForwardPacket h2 (hd ▸ hr) hf
  rw [hmsg, hfwd, hd, and_self, List.cons.injEq, Prod.mk.injEq]
  constructor
  · rintro ⟨⟨-, he⟩, -⟩
    split_ifs at he with h0
    · exact Or.inl h0
    · exact Or.inr he.symm
  · intro hgw
    refine ⟨⟨rfl, ?_⟩, rfl⟩
    split_ifs with h0
    · rfl
    · exact (hgw.resolve_left h0).symm

/-- A source on the network of the interface. -/
theorem icmpSendPacket_nextHop_iff_connected :
    ∃ s' t', icmpSendPacket Sample.connected (Sample.udp 0x0a000102 0x0a000202 1) 11 0
        (arpcacheInit (Sample.clockAt 0)) = .ok s' ∧
      ipForwardPacket Sample.connected (destOf (Sample.udp 0x0a000202 0x0a000102 64))
        (Sample.udp 0x0a000202 0x0a000102 64) (arpcacheInit (Sample.clockAt 0)) = .ok t' ∧
      hopsSince (arpcacheInit (Sample.clockAt 0)) s' = hopsSince (arpcacheInit (Sample.clockAt 0)) t' := by
  have hr : longestPrefixMatch Sample.connected (sourceOf (Sample.udp 0x0a000102 0x0a000202 1)) =
      some Sample.toNet1 := by decide
  obtain ⟨s', hs⟩ : ∃ s', icmpSendPacket Sample.connected (Sample.udp 0x0a000102 0x0a000202 1) 11 0
      (arpcacheInit (Sample.clockAt 0)) = .ok s' :=
    exists_icmpSendPacket (Or.inr (Or.inr rfl)) (by decide) (by decide) (by decide) (by decide)
  obtain ⟨t', ht⟩ : ∃ t', ipForwardPacket Sample.connected (destOf (Sample.udp 0x0a000202 0x0a000102 64))
      (Sample.udp 0x0a000202 0x0a000102 64) (arpcacheInit (Sample.clockAt 0)) = .ok t' :=
    exists_ipForwardPacket (by decide) (by decide) (by decide) hr _
  refine ⟨s', t', hs, ht, ?_⟩
  exact ((icmpSendPacket_nextHop_iff (Or.inr (Or.inr rfl)) hr hs rfl (by decide) ht).mpr (Or.inl rfl)).1

/-- A source behind a gateway. -/
theorem icmpSendPacket_missesGateway :
    ∃ s' t', icmpSendPacket Sample.twoUplinks (Sample.udp 0x0a000305 0x0a000405 1) 11 0
        (arpcacheInit (Sample.clockAt 0)) = .ok s' ∧
      ipForwardPacket Sample.twoUplinks 0x0a000305 (Sample.udp 0x0a000405 0x0a000305 64)
        (arpcacheInit (Sample.clockAt 0)) = .ok t' ∧
      hopsSince (arpcacheInit (Sample.clockAt 0)) s' = [(Sample.eth0, 0x0a000305)] ∧
      hopsSince (arpcacheInit (Sample.clockAt 0)) t' = [(Sample.eth0, 0x0a000909)] := by
  have hsrc : sourceOf (Sample.udp 0x0a000305 0x0a000405 1) = 0x0a000305 := by decide
  have hdst : destOf (Sample.udp 0x0a000405 0x0a000305 64) = 0x0a000305 := by decide
  have hr : longestPrefixMatch Sample.twoUplinks 0x0a000305 =
      some ⟨0x0a000300, 0xffffff00, 0x0a000909, Sample.eth0⟩ := by decide
  obtain ⟨s', hs⟩ : ∃ s', icmpSendPacket Sample.twoUplinks (Sample.udp 0x0a000305 0x0a000405 1) 11 0
      (arpcacheInit (Sample.clockAt 0)) = .ok s' :=
    exists_icmpSendPacket (Or.inr (Or.inr rfl)) (by decide) (by decide) (by decide) (by decide)
  obtain ⟨t', ht⟩ : ∃ t', ipForwardPacket Sample.twoUplinks 0x0a000305
      (Sample.udp 0x0a000405 0x0a000305 64) (arpcacheInit (Sample.clockAt 0)) = .ok t' :=
    exists_ipForwardPacket (by decide) (by decide) (by decide) hr _
  refine ⟨s', t', hs, ht, ?_, ?_⟩
  · rw [hopsSince_icmpSendPacket (Or.inr (Or.inr rfl)) (hsrc ▸ hr) hs, hsrc]
  · rw [hopsSince_ipForwardPacket (by decide) (hdst ▸ hr) (hdst ▸ ht), hdst]
    rfl

end StaticRouter
