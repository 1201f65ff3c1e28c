import StaticRouter.Emission
import StaticRouter.Proofs.ArpTableProofs
import StaticRouter.Store

/-!
# Proofs: what the functions of `arp.c` and `arpcache.c` do to the state

One inversion lemma for every function that changes the request list; the later proofs cite these and do
not unfold the functions.
-/

namespace StaticRouter

open CMem

/-! ## ARP frames -/

section ArpFrame

theorem Mac.eq_bytes (mac : Mac) : ∃ a b c d e f, mac.val = [a, b, c, d, e, f] := by
  obtain ⟨l, hl⟩ := mac
  match l, hl with
  | [a, b, c, d, e, f], _ => exact ⟨a, b, c, d, e, f, rfl⟩

theorem readEtherArp_ok {packet : Frame} {ea : EtherArp} :
    readEtherArp packet = .ok ea ↔ packet.readU16 arpOp = .ok ea.op ∧ packet.readU32 arpTpa = .ok ea.tpa ∧
      packet.readU32 arpSpa = .ok ea.spa ∧ readMac packet arpSha = .ok ea.sha := by
  simp only [readEtherArp, bind_ok, Except.ok.injEq]
  constructor
  · rintro ⟨op, hop, tpa, htpa, spa, hspa, sha, hsha, rfl⟩
    exact ⟨hop, htpa, hspa, hsha⟩
  · rintro ⟨hop, htpa, hspa, hsha⟩
    exact ⟨_, hop, _, htpa, _, hspa, _, hsha, rfl⟩

/-- An ARP packet tells the mapping that `handle_arp_packet` learns. -/
theorem told_arp {iface : Iface} {packet : Frame} {env : Env} {ea : EtherArp}
    (harp : packet.readU16 etherType = .ok ethPArp) (hea : readEtherArp packet = .ok ea) :
    told (.frame iface packet env) = some (ea.spa, ea.sha) := by
  obtain ⟨-, -, hspa, hsha⟩ := readEtherArp_ok.mp hea
  rw [told, if_pos harp, hspa, hsha]
  rfl

variable (dhost shost sha tha : Mac) (op : UInt16) (spa tpa : UInt32)

/-- The source address of an ARP frame. -/
theorem slice_arpFrame_shost :
    (arpFrame dhost shost op sha spa tha tpa).slice etherShost ethAlen = shost.val := by
  simp only [arpFrame, List.append_assoc]
  exact Buffer.slice_append dhost.property shost.property

theorem length_arpFrame :
    (arpFrame dhost shost op sha spa tha tpa).length = etherHdrSize + etherArpSize := by
  obtain ⟨_, _, _, _, _, _, hd⟩ := dhost.eq_bytes
  obtain ⟨_, _, _, _, _, _, hs⟩ := shost.eq_bytes
  obtain ⟨_, _, _, _, _, _, ha⟩ := sha.eq_bytes
  obtain ⟨_, _, _, _, _, _, ht⟩ := tha.eq_bytes
  simp only [arpFrame, hd, hs, ha, ht]
  rfl

/-- Its type. -/
theorem readU16_arpFrame :
    (arpFrame dhost shost op sha spa tha tpa).readU16 etherType = .ok ethPArp := by
  have hlen := length_arpFrame dhost shost sha tha op spa tpa
  obtain ⟨_, _, _, _, _, _, hd⟩ := dhost.eq_bytes
  obtain ⟨_, _, _, _, _, _, hs⟩ := shost.eq_bytes
  have htype : (arpFrame dhost shost op sha spa tha tpa).slice etherType 2 = Buffer.be16 ethPArp := by
    simp only [arpFrame, hd, hs]
    rfl
  exact Buffer.readU16_ok.mpr ⟨by rw [hlen]; decide, by rw [htype, Buffer.ofNat_beNat_be16]⟩

/-- An ARP frame carries the fields that it was made of. -/
theorem readEtherArp_arpFrame :
    readEtherArp (arpFrame dhost shost op sha spa tha tpa) = .ok ⟨op, sha, spa, tpa⟩ := by
  obtain ⟨_, _, _, _, _, _, hd⟩ := dhost.eq_bytes
  obtain ⟨_, _, _, _, _, _, hs⟩ := shost.eq_bytes
  obtain ⟨_, _, _, _, _, _, ha⟩ := sha.eq_bytes
  obtain ⟨_, _, _, _, _, _, ht⟩ := tha.eq_bytes
  have hlen := length_arpFrame dhost shost sha tha op spa tpa
  have hop : (arpFrame dhost shost op sha spa tha tpa).slice arpOp 2 = Buffer.be16 op := by
    simp only [arpFrame, hd, hs, ha, ht]
    rfl
  have hsha : (arpFrame dhost shost op sha spa tha tpa).slice arpSha ethAlen = sha.val := by
    simp only [arpFrame, hd, hs, ha, ht]
    rfl
  have hspa : (arpFrame dhost shost op sha spa tha tpa).slice arpSpa 4 = Buffer.be32 spa := by
    simp only [arpFrame, hd, hs, ha, ht]
    rfl
  have htpa : (arpFrame dhost shost op sha spa tha tpa).slice arpTpa 4 = Buffer.be32 tpa := by
    simp only [arpFrame, hd, hs, ha, ht]
    rfl
  refine readEtherArp_ok.mpr ⟨Buffer.readU16_ok.mpr ⟨?_, ?_⟩, Buffer.readU32_ok.mpr ⟨?_, ?_⟩,
    Buffer.readU32_ok.mpr ⟨?_, ?_⟩, readMac_ok.mpr ⟨?_, hsha.symm⟩⟩
  · rw [hlen]; decide
  · rw [hop, Buffer.ofNat_beNat_be16]
  · exact Nat.le_of_eq hlen.symm
  · rw [htpa, Buffer.ofNat_beNat_be32]
  · rw [hlen]; decide
  · rw [hspa, Buffer.ofNat_beNat_be32]
  · rw [hlen]; decide

end ArpFrame

/-! ## `iface_send_packet_by_arp` -/

/-- The three outcomes of `iface_send_packet_by_arp`: the packet leaves at once, it joins a pending
request, or it opens one. -/
theorem ifaceSendPacketByArp_cases {iface : Iface} {dst : UInt32} {packet : Frame} {s s' : Router}
    (h : ifaceSendPacketByArp iface dst packet s = .ok s') :
    ∃ q, Filled iface packet q ∧
      ((∃ mac frame, arpcacheLookup s.table dst = some mac ∧
          q.write etherDhost mac.val = .ok frame ∧
          s' = { s with
            next := s.next + 1
            trace := s.trace ++ [.submitted s.next iface dst packet] ++
              [.sent iface frame (.direct s.next)] }) ∨
        (arpcacheLookup s.table dst = none ∧ (∃ r ∈ s.reqList, r.ip4 = dst) ∧
          s' = { s with
            next := s.next + 1
            trace := s.trace ++ [.submitted s.next iface dst packet] ++ [.queued s.next]
            reqList := s.reqList.map fun r => if r.ip4 = dst then r.append ⟨s.next, q⟩ else r }) ∨
        (arpcacheLookup s.table dst = none ∧ (∀ r ∈ s.reqList, r.ip4 ≠ dst) ∧
          s' = { s with
            next := s.next + 1
            env := { s.env with clock := s.env.clock.tail }
            trace := s.trace ++ [.submitted s.next iface dst packet] ++ [.queued s.next] ++
              [.opened dst] ++ [.sent iface (arpFrame broadcastMac iface.mac arpopRequest iface.mac
                iface.ip zeroMac dst) .arp]
            reqList := s.reqList ++
              [⟨s.next, iface, dst, s.env.clock 0, 0, [⟨s.next, q⟩]⟩] })) := by
  simp only [ifaceSendPacketByArp, bind_ok] at h
  obtain ⟨p', hp', q, hq, h⟩ := h
  refine ⟨q, ⟨p', hp', hq⟩, ?_⟩
  cases hl : arpcacheLookup s.table dst with
  | some mac =>
    simp only [Router.log, hl, bind_ok] at h
    obtain ⟨frame, hf, h⟩ := h
    exact Or.inl ⟨mac, frame, rfl, hf, (Except.ok.inj h).symm⟩
  | none =>
    simp only [Router.log, hl] at h
    right
    by_cases hany : ∃ r ∈ s.reqList, r.ip4 = dst
    · left
      have hb : s.reqList.any (·.ip4 = dst) = true := by simpa using hany
      refine ⟨rfl, hany, ?_⟩
      simp only [arpcacheAppendPacket, Router.log, hb, if_true] at h
      exact (Except.ok.inj h).symm
    · right
      have hb : ¬ s.reqList.any (·.ip4 = dst) = true := by simpa using hany
      push Not at hany
      refine ⟨rfl, hany, ?_⟩
      simp only [arpcacheAppendPacket, Router.log, hb] at h
      exact (Except.ok.inj h).symm

/-- The only submission that `iface_send_packet_by_arp` records. -/
theorem ifaceSendPacketByArp_submitted {iface : Iface} {dst : UInt32} {packet : Frame} {s s' : Router}
    (h : ifaceSendPacketByArp iface dst packet s = .ok s') (n : Nat) (i : Iface) (d : UInt32) (q : Frame) :
    .submitted n i d q ∈ s'.trace ↔
      .submitted n i d q ∈ s.trace ∨ n = s.next ∧ i = iface ∧ d = dst ∧ q = packet := by
  obtain ⟨_, -, ⟨mac, frame, -, -, rfl⟩ | ⟨-, -, rfl⟩ | ⟨-, -, rfl⟩⟩ := ifaceSendPacketByArp_cases h <;>
    simp

/-! ## `arpcache_insert` -/

/-- What `arpcache_insert` sends for the packets of one request. -/
def flushEvents (ip4 : UInt32) (mac : Mac) (r : ArpReq) : List Event :=
  r.cachedPackets.map fun p => .sent r.iface (p.packet.splice etherDhost mac.val) (.flush p.tag ip4)

theorem flushPackets_ok {iface : Iface} {ip4 : UInt32} {mac : Mac} {pkts : List CachedPkt}
    {s s' : Router} (h : flushPackets iface ip4 mac pkts s = .ok s') :
    (∀ p ∈ pkts, ethAlen ≤ p.packet.length) ∧
      s' = { s with
        trace := s.trace ++ (pkts.map fun p =>
          .sent iface (p.packet.splice etherDhost mac.val) (.flush p.tag ip4)) } := by
  induction pkts generalizing s with
  | nil =>
    rw [flushPackets, Except.ok.injEq] at h
    exact ⟨by simp, by simp [h]⟩
  | cons p pkts ih =>
    simp only [flushPackets, bind_ok, Buffer.write_ok] at h
    obtain ⟨frame, ⟨hlen, rfl⟩, h⟩ := h
    obtain ⟨hall, rfl⟩ := ih h
    rw [mac.property, Nat.zero_add] at hlen
    refine ⟨?_, by simp [ifaceSendPacket, Router.log]⟩
    intro x hx
    rcases List.mem_cons.mp hx with rfl | hx
    · exact hlen
    · exact hall x hx

theorem flushReqs_ok {ip4 : UInt32} {mac : Mac} {reqs : List ArpReq} {s s' : Router}
    (h : flushReqs ip4 mac reqs s = .ok s') :
    (∀ r ∈ reqs, r.ip4 = ip4 → ∀ p ∈ r.cachedPackets, ethAlen ≤ p.packet.length) ∧
      s' = { s with
        trace := s.trace ++ (reqs.filter (·.ip4 = ip4)).flatMap (flushEvents ip4 mac) } := by
  induction reqs generalizing s with
  | nil =>
    rw [flushReqs, Except.ok.injEq] at h
    exact ⟨by simp, by simp [h]⟩
  | cons r reqs ih =>
    rw [flushReqs] at h
    split_ifs at h with hip
    · simp only [bind_ok] at h
      obtain ⟨s1, h1, h⟩ := h
      obtain ⟨hlen, rfl⟩ := flushPackets_ok h1
      obtain ⟨hall, rfl⟩ := ih h
      refine ⟨?_, by simp [hip, flushEvents]⟩
      intro x hx hxip
      rcases List.mem_cons.mp hx with rfl | hx
      · exact hlen
      · exact hall x hx hxip
    · obtain ⟨hall, rfl⟩ := ih h
      refine ⟨?_, by simp [hip]⟩
      intro x hx hxip
      rcases List.mem_cons.mp hx with rfl | hx
      · exact absurd hxip hip
      · exact hall x hx hxip

/-- `arpcache_insert` records the mapping, sends the packets of the requests for the address, and
unlinks these requests. -/
theorem arpcacheInsert_ok {ip4 : UInt32} {mac : Mac} {s s' : Router}
    (h : arpcacheInsert ip4 mac s = .ok s') :
    (∀ r ∈ s.reqList, r.ip4 = ip4 → ∀ p ∈ r.cachedPackets, ethAlen ≤ p.packet.length) ∧
      s' = { s with
        table := (tableInsert s.env.before ip4 mac s.table s.env.clock).1
        env := { s.env with clock := (tableInsert s.env.before ip4 mac s.table s.env.clock).2 }
        reqList := s.reqList.filter (·.ip4 ≠ ip4)
        trace := s.trace ++ (s.reqList.filter (·.ip4 = ip4)).flatMap (flushEvents ip4 mac) } := by
  simp only [arpcacheInsert, bind_ok] at h
  obtain ⟨s1, h1, h⟩ := h
  obtain ⟨hall, rfl⟩ := flushReqs_ok h1
  exact ⟨hall, (Except.ok.inj h).symm⟩

/-- `arp_send_reply` sends at most one ARP frame. -/
theorem arpSendReply_cases (iface : Iface) (req : EtherArp) (s : Router) :
    arpSendReply iface req s = s ∨ ∃ sha, arpSendReply iface req s =
      ifaceSendPacket iface (arpFrame req.sha iface.mac arpopReply sha req.tpa req.sha req.spa) .arp s := by
  unfold arpSendReply
  split_ifs
  · exact Or.inr ⟨_, rfl⟩
  · cases arpcacheLookup s.table req.tpa with
    | some _ => exact Or.inr ⟨_, rfl⟩
    | none => exact Or.inl rfl

/-- `handle_arp_packet` stores the sender's mapping, whatever the operation, and sends at most one ARP
frame, a reply. -/
theorem handleArpPacket_cases {iface : Iface} {packet : Frame} {s s' : Router}
    (h : handleArpPacket iface packet s = .ok s') :
    ∃ ea s₁, readEtherArp packet = .ok ea ∧ arpcacheInsert ea.spa ea.sha s = .ok s₁ ∧
      s' = if ea.op = arpopRequest then arpSendReply iface ea s₁ else s₁ := by
  simp only [handleArpPacket, bind_ok] at h
  obtain ⟨ea, hea, s₁, h₁, h⟩ := h
  refine ⟨ea, s₁, hea, h₁, ?_⟩
  split_ifs at h ⊢ <;> exact (Except.ok.inj h).symm

end StaticRouter
