import StaticRouter.Proofs.MessageProofs

/-!
# Proofs: which bytes of fresh memory are sent

Two runs of `icmp_send_packet` that find different bytes in their `malloc` buffers. What others see of a
packet that is handed on is its datagram, so the runs look alike if and only if the messages do, and two
of the three kinds of messages hold bytes that were never written.
-/

namespace StaticRouter

open CMem

/-! ## What others see of a packet -/

/-- The packet once the Ethernet header fields are filled in, from the source address on. -/
theorem Filled.drop {iface : Iface} {p q : Frame} (h : Filled iface p q) :
    q.drop ethAlen = iface.mac.val ++ (Buffer.be16 ethPIp ++ p.drop etherHdrSize) := by
  have hshost : q.slice etherShost ethAlen = iface.mac.val := by
    obtain ⟨p', h₁, h₂⟩ := h
    have hself := Buffer.slice_write_self h₁
    rw [iface.mac.property] at hself
    rw [Buffer.slice_write h₂ (Or.inl (by decide)), hself]
  obtain ⟨p', h₁, h₂⟩ := h
  have htype : q.drop etherType = Buffer.be16 ethPIp ++ p'.drop etherHdrSize := Buffer.drop_write_self h₂
  have hrest : p'.drop etherHdrSize = p.drop etherHdrSize :=
    Buffer.drop_write h₁ (by rw [iface.mac.property]; decide)
  calc q.drop ethAlen = q.slice etherShost ethAlen ++ (q.drop etherShost).drop ethAlen :=
        (List.take_append_drop _ _).symm
    _ = iface.mac.val ++ q.drop etherType := by rw [hshost, List.drop_drop]; rfl
    _ = iface.mac.val ++ (Buffer.be16 ethPIp ++ p.drop etherHdrSize) := by rw [htype, hrest]

/-- What others see after a packet with the bytes `datagram` behind its Ethernet header was handed on. -/
def sendView (iface : Iface) (dst : UInt32) (datagram : List UInt8) (s : Router) :
    List (Iface × Frame) × List (List (List UInt8)) :=
  let tail := iface.mac.val ++ (Buffer.be16 ethPIp ++ datagram)
  match arpcacheLookup s.table dst with
  | some mac => ((exposed s).1 ++ [(iface, mac.val ++ tail)], (exposed s).2)
  | none =>
    if ∃ r ∈ s.reqList, r.ip4 = dst then
      ((exposed s).1, s.reqList.map fun r =>
        (r.cachedPackets.map fun p => p.packet.drop ethAlen) ++ if r.ip4 = dst then [tail] else [])
    else
      ((exposed s).1 ++ [(iface, arpFrame broadcastMac iface.mac arpopRequest iface.mac iface.ip zeroMac
        dst)], (exposed s).2 ++ [[tail]])

theorem exposed_ifaceSendPacketByArp {iface : Iface} {dst : UInt32} {packet : Frame} {s s' : Router}
    (h : ifaceSendPacketByArp iface dst packet s = .ok s') :
    exposed s' = sendView iface dst (packet.drop etherHdrSize) s := by
  obtain ⟨q, hq, ⟨mac, frame, hl, hw, rfl⟩ | ⟨hl, hex, rfl⟩ | ⟨hl, hnew, rfl⟩⟩ := ifaceSendPacketByArp_cases h
  · have hframe : frame = mac.val ++ q.drop ethAlen := by
      obtain ⟨-, rfl⟩ := Buffer.write_ok.mp hw
      rw [Buffer.splice, mac.property]
      rfl
    simp [sendView, hl, exposed, hframe, hq.drop, transmissions]
  · have hmap : ∀ r : ArpReq, (if r.ip4 = dst then r.append ⟨s.next, q⟩ else r).cachedPackets.map
        (fun p => p.packet.drop ethAlen) = (r.cachedPackets.map fun p => p.packet.drop ethAlen) ++
          if r.ip4 = dst then [q.drop ethAlen] else [] := by
      intro r
      split_ifs
      · simp [ArpReq.append]
      · simp
    simp [sendView, hl, exposed, hex, ← hq.drop, transmissions, hmap, Function.comp_def]
  · have hno : ¬ ∃ r ∈ s.reqList, r.ip4 = dst := by
      rintro ⟨r, hr, hip⟩
      exact hnew r hr hip
    simp [sendView, hl, exposed, hno, ← hq.drop, transmissions]

/-- The datagram can be seen. -/
theorem sendView_inj {iface : Iface} {dst : UInt32} {d d' : List UInt8} {s : Router} :
    sendView iface dst d s = sendView iface dst d' s ↔ d = d' := by
  refine ⟨fun h => ?_, fun h => by rw [h]⟩
  unfold sendView at h
  cases hl : arpcacheLookup s.table dst with
  | some mac =>
    simpa [hl] using h
  | none =>
    simp only [hl] at h
    split_ifs at h with hex
    · -- it is the last packet of the request that it joined
      obtain ⟨r, hr, hip⟩ := hex
      have := (List.map_inj_left.mp (Prod.mk.inj h).2) r hr
      simpa [hip] using this
    · simpa using h

/-! ## Two contents of the fresh memory -/

section Heap

variable {rtable : List RtEntry} {inPkt q : Frame} {type code : UInt8} {rt : RtEntry} {s : Router}

/-- What others see of a message is its datagram. -/
theorem exposed_icmpSendPacket (ht : OwnType type) (hl : etherHdrSize + iphdrSize ≤ inPkt.length)
    (hr : longestPrefixMatch rtable (sourceOf inPkt) = some rt) :
    (icmpSendPacket rtable inPkt type code s).map exposed = (builtMessage inPkt type code rt s).map
      fun q => sendView rt.iface (sourceOf inPkt) (q.drop etherHdrSize) s := by
  rw [icmpSendPacket_routed ht (saddr_le hl) hr]
  cases hq : builtMessage inPkt type code rt s with
  | error e => rfl
  | ok q =>
    obtain ⟨s', hs⟩ := exists_ifaceSendPacketByArp (builtMessage_ether hl hq) rt.iface (sourceOf inPkt)
      (s.drawn.log (.originated type code (sourceOf inPkt)))
    have hview : exposed (s.drawn.log (.originated type code (sourceOf inPkt))) = exposed s := by
      simp [exposed, Router.log, transmissions]
    rw [ok_bind, hs, Except.map, Except.map, exposed_ifaceSendPacketByArp hs, sendView, hview]
    rfl

/-- The unused field of an error keeps the bytes of the buffer. -/
theorem builtMessage_unused (h : builtMessage inPkt type code rt s = .ok q) (h0 : type ≠ 0) :
    q.slice (icmpHdr + 4) 4 = (s.malloc icmpErrorLen).1.slice (icmpHdr + 4) 4 := by
  rw [builtMessage, if_neg h0] at h
  obtain ⟨-, c, -, he⟩ := icmpError_layout h
  rw [Buffer.slice_of_slice he 4 (by decide), ← List.append_assoc]
  exact Buffer.slice_append rfl length_malloc_unused

/-- So do the last bytes of an echo reply, as many as the request has options. -/
theorem builtMessage_tail (h : builtMessage inPkt 0 code rt s = .ok q) (h5 : 5 ≤ ihlOf inPkt) {n : Nat}
    (hn : inPkt.length = payloadOffset inPkt + icmphdrSize + n) (hshort : inPkt.length < 2 ^ 64) :
    q.slice (icmpHdr + icmphdrSize + n) (ihlOf inPkt * 4 - iphdrSize) =
      (s.malloc inPkt.length).1.slice (icmpHdr + icmphdrSize + n) (ihlOf inPkt * 4 - iphdrSize) := by
  rw [builtMessage, if_pos rfl] at h
  obtain ⟨-, c, -, he⟩ := icmpEchoReply_layout h hn h5 hshort
  have hsize : icmpHdr + icmphdrSize + n + (ihlOf inPkt * 4 - iphdrSize) = inPkt.length := by
    rw [hn]
    simp only [payloadOffset, icmpHdr, etherHdrSize, iphdrSize]
    omega
  obtain ⟨hid, hdata⟩ := length_echoed hn
  have htail : ((s.malloc inPkt.length).1.slice (icmpHdr + icmphdrSize + n)
      (ihlOf inPkt * 4 - iphdrSize)).length = ihlOf inPkt * 4 - iphdrSize := by
    refine Buffer.length_slice ?_
    rw [length_malloc]
    exact Nat.le_of_eq hsize
  rw [Nat.add_assoc icmpHdr] at hsize ⊢
  rw [Buffer.slice_of_slice he (icmphdrSize + n) (by omega), ← List.append_assoc, ← List.append_assoc,
    ← List.append_assoc, ← List.append_nil (Buffer.slice _ (icmpHdr + icmphdrSize + n) _)]
  refine (Buffer.slice_append ?_ htail).trans ?_
  · rw [List.length_append, List.length_append, List.length_append, hid, hdata]
    rfl
  · rw [Nat.add_assoc]

/-- Without options every byte of an echo reply is written. -/
theorem builtMessage_written {heap heap' : Nat → Nat → UInt8} {q' : Frame}
    (h : builtMessage inPkt 0 code rt (s.withHeap heap) = .ok q)
    (h' : builtMessage inPkt 0 code rt (s.withHeap heap') = .ok q') (h5 : ihlOf inPkt = 5)
    (hp : payloadOffset inPkt + icmphdrSize ≤ inPkt.length) (hshort : inPkt.length < 2 ^ 64) :
    q.drop etherHdrSize = q'.drop etherHdrSize := by
  obtain ⟨n, hn⟩ := Nat.exists_eq_add_of_le hp
  have hlen := (builtMessage_ok h).1
  have hlen' := (builtMessage_ok h').1
  rw [if_pos rfl] at hlen hlen'
  rw [builtMessage, if_pos rfl] at h h'
  obtain ⟨hhead, hmsg⟩ := icmpEchoReply_layout h hn (Nat.le_of_eq h5.symm) hshort
  obtain ⟨hhead', hmsg'⟩ := icmpEchoReply_layout h' hn (Nat.le_of_eq h5.symm) hshort
  have hnone : ∀ b : Buffer, b.slice (icmpHdr + icmphdrSize + n) (ihlOf inPkt * 4 - iphdrSize) = [] := by
    intro b
    rw [h5]
    exact List.take_zero
  rw [hnone] at hmsg hmsg'
  have hdrop : ∀ p : Frame, p.length = inPkt.length → p.drop etherHdrSize =
      p.slice etherHdrSize iphdrSize ++ p.slice icmpHdr (inPkt.length - icmpHdr) := by
    intro p hp
    have hall : (p.drop icmpHdr).length ≤ inPkt.length - icmpHdr := by rw [List.length_drop, hp]
    have hsplit := (List.take_append_drop iphdrSize (p.drop etherHdrSize)).symm
    rw [List.drop_drop] at hsplit
    exact hsplit.trans (congrArg _ (List.take_of_length_le hall).symm)
  rw [hdrop q hlen, hdrop q' hlen', hhead.unique hhead', hmsg.unique hmsg']

/-- A buffer that the fresh memory fills with one byte. -/
theorem malloc_withHeap (a : UInt8) (n : Nat) :
    ((s.withHeap fun _ _ => a).malloc n).1 = List.replicate n a := by
  simp [Router.malloc, Router.withHeap]

/-- Two packets that keep bytes of such buffers. -/
theorem drop_ne_of_kept {q' : Frame} {o n len : Nat} (ho : etherHdrSize ≤ o) (hn : 0 < n)
    (hle : o + n ≤ len) (h : q.slice o n = Buffer.slice (List.replicate len 0) o n)
    (h' : q'.slice o n = Buffer.slice (List.replicate len 1) o n) :
    q.drop etherHdrSize ≠ q'.drop etherHdrSize := by
  intro he
  have hslice : ∀ p : Frame, p.slice o n = Buffer.slice (p.drop etherHdrSize) (o - etherHdrSize) n := by
    intro p
    rw [Buffer.slice, Buffer.slice, List.drop_drop, Nat.add_sub_cancel' ho]
  have hfill : ∀ a : UInt8, Buffer.slice (List.replicate len a) o n = List.replicate n a := by
    intro a
    rw [Buffer.slice, List.drop_replicate, List.take_replicate, Nat.min_eq_left (by omega)]
  rw [hfill] at h h'
  have hsame : List.replicate n (0 : UInt8) = List.replicate n 1 := by
    rw [← h, ← h', hslice q, hslice q', he]
  rw [List.replicate_inj] at hsame
  exact absurd (hsame.2.resolve_left (Nat.ne_of_gt hn)) (by decide)

/-- Two contents of the fresh memory show in every other message. -/
theorem builtMessage_differs (h5 : 5 ≤ ihlOf inPkt)
    (hp : type = 0 → payloadOffset inPkt + icmphdrSize ≤ inPkt.length ∧ ihlOf inPkt ≠ 5)
    (hshort : inPkt.length < 2 ^ 64) {q' : Frame}
    (h : builtMessage inPkt type code rt (s.withHeap fun _ _ => 0) = .ok q)
    (h' : builtMessage inPkt type code rt (s.withHeap fun _ _ => 1) = .ok q') :
    q.drop etherHdrSize ≠ q'.drop etherHdrSize := by
  by_cases h0 : type = 0
  · subst h0
    obtain ⟨hle, hne⟩ := hp rfl
    obtain ⟨n, hn⟩ := Nat.exists_eq_add_of_le hle
    have htail := builtMessage_tail h h5 hn hshort
    have htail' := builtMessage_tail h' h5 hn hshort
    rw [malloc_withHeap] at htail htail'
    refine drop_ne_of_kept ?_ ?_ (Nat.le_of_eq ?_) htail htail'
    · exact Nat.le_trans (by decide) (Nat.le_add_right _ n)
    · simp only [iphdrSize]
      omega
    · rw [hn]
      simp only [payloadOffset, icmpHdr, etherHdrSize, iphdrSize]
      omega
  · have hunused := builtMessage_unused h h0
    have hunused' := builtMessage_unused h' h0
    rw [malloc_withHeap] at hunused hunused'
    exact drop_ne_of_kept (by decide) (by decide) (by decide) hunused hunused'

/-- **Which messages keep bytes of fresh memory to themselves.** What others see of a message does not
depend on what the fresh buffer holds, if and only if there is no way back to the source, or the message
is an echo reply to a packet without options, or it is not made because its length is odd. -/
theorem icmpSendPacket_heap_iff (ht : OwnType type) (h5 : 5 ≤ ihlOf inPkt) (hb : Buildable type inPkt)
    (hshort : inPkt.length < 2 ^ 64) :
    (∀ heap heap', (icmpSendPacket rtable inPkt type code (s.withHeap heap)).map exposed =
        (icmpSendPacket rtable inPkt type code (s.withHeap heap')).map exposed) ↔
      ¬ Routed rtable (sourceOf inPkt) ∨ type = 0 ∧ (ihlOf inPkt = 5 ∨ inPkt.length % 2 = 1) := by
  cases hr : longestPrefixMatch rtable (sourceOf inPkt) with
  | none =>
    have hnone : ¬ Routed rtable (sourceOf inPkt) := not_not.mpr hr
    refine ⟨fun _ => Or.inl hnone, fun _ heap heap' => ?_⟩
    rw [icmpSendPacket_unrouted (saddr_le hb.header) hr, icmpSendPacket_unrouted (saddr_le hb.header) hr]
    rfl
  | some rt =>
    have hrouted : Routed rtable (sourceOf inPkt) := routed_iff.mpr ⟨rt, hr⟩
    have hview : ∀ heap, (icmpSendPacket rtable inPkt type code (s.withHeap heap)).map exposed =
        (builtMessage inPkt type code rt (s.withHeap heap)).map
          fun q => sendView rt.iface (sourceOf inPkt) (q.drop etherHdrSize) s :=
      fun heap => exposed_icmpSendPacket ht hb.header hr
    simp only [hview, not_not.mpr hrouted, false_or]
    constructor
    · -- two fills of the fresh memory are enough to tell
      intro hsame
      by_contra hno
      have heven : type = 0 → inPkt.length % 2 = 0 := by
        intro h0
        by_contra hodd
        exact hno ⟨h0, Or.inr (by omega)⟩
      obtain ⟨q, hq⟩ : ∃ q, builtMessage inPkt type code rt (s.withHeap fun _ _ => 0) = .ok q :=
        exists_builtMessage (fun _ => hshort) hb heven
      obtain ⟨q', hq'⟩ : ∃ q, builtMessage inPkt type code rt (s.withHeap fun _ _ => 1) = .ok q :=
        exists_builtMessage (fun _ => hshort) hb heven
      have hone := hsame (fun _ _ => 0) fun _ _ => 1
      rw [hq, hq', Except.map, Except.map, Except.ok.injEq, sendView_inj] at hone
      refine builtMessage_differs h5 (fun h0 => ⟨?_, fun hihl => hno ⟨h0, Or.inl hihl⟩⟩) hshort hq hq' hone
      subst h0
      exact (buildable_reply.mp hb).2
    · rintro ⟨rfl, hcond⟩ heap heap'
      by_cases heven : inPkt.length % 2 = 0
      · obtain ⟨q, hq⟩ : ∃ q, builtMessage inPkt 0 code rt (s.withHeap heap) = .ok q :=
          exists_builtMessage (fun _ => hshort) hb fun _ => heven
        obtain ⟨q', hq'⟩ : ∃ q, builtMessage inPkt 0 code rt (s.withHeap heap') = .ok q :=
          exists_builtMessage (fun _ => hshort) hb fun _ => heven
        rw [hq, hq', Except.map, Except.map,
          builtMessage_written hq hq' (hcond.resolve_right (by omega)) (buildable_reply.mp hb).2 hshort]
      · rw [builtMessage_assertFailed hshort hb heven, builtMessage_assertFailed hshort hb heven]

end Heap

/-- An echo reply sends none. -/
theorem icmpSendPacket_heap_iff_ping :
    (icmpSendPacket Sample.connected (Sample.ipv4 5 28 64 1 0x0a000102 0x0a000101 (Sample.ping [])) 0 0
        ((arpcacheInit (Sample.clockAt 0)).withHeap fun _ _ => 0)).map exposed =
      (icmpSendPacket Sample.connected (Sample.ipv4 5 28 64 1 0x0a000102 0x0a000101 (Sample.ping [])) 0 0
        ((arpcacheInit (Sample.clockAt 0)).withHeap fun _ _ => 1)).map exposed :=
  (icmpSendPacket_heap_iff (Or.inl rfl) (by decide) (by decide) (by decide)).mpr
    (Or.inr ⟨rfl, Or.inl (by decide)⟩) _ _

/-- An error about any packet sends four bytes of fresh memory. -/
theorem icmpSendPacket_leaksHeap :
    ∃ heap heap', (icmpSendPacket Sample.connected (Sample.udp 0x0a000102 0x0a000202 1) 11 0
        ((arpcacheInit (Sample.clockAt 0)).withHeap heap)).map exposed ≠
      (icmpSendPacket Sample.connected (Sample.udp 0x0a000102 0x0a000202 1) 11 0
        ((arpcacheInit (Sample.clockAt 0)).withHeap heap')).map exposed :=
  ⟨fun _ _ => 0, fun _ _ => 1, by decide +kernel⟩

end StaticRouter
