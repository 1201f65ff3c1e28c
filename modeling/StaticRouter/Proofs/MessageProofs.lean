import StaticRouter.Proofs.LayoutProofs
import StaticRouter.Replay

/-!
# Proofs: the messages that a router builds

Every message is consistent. An error quotes as many bytes as the header of the packet has without
options, so it is the documented one if and only if that packet has none.
-/

namespace StaticRouter

open CMem OnesComplement

/-! ## Fields of a message -/

section Header

variable {q : Frame} {len id : UInt16} {proto : UInt8} {addrs : List UInt8}

/-- The total length that `ip_init_hdr` fills in. -/
theorem totLenOf_checked
    (h : Checked (headerStart len id proto) addrs (q.slice etherHdrSize iphdrSize)) :
    totLenOf q = len.toNat := by
  obtain ⟨c, -, hq⟩ := h
  have hlen : q.slice ipTotLen 2 = Buffer.be16 len := Buffer.slice_of_slice hq 2 (by decide)
  rw [totLenOf, hlen, Buffer.beNat_be16]

theorem ihlOf_checked
    (h : Checked (headerStart len id proto) addrs (q.slice etherHdrSize iphdrSize)) : ihlOf q = 5 := by
  obtain ⟨c, -, hq⟩ := h
  have hver : q.slice ipIhl 1 = [0x45] := Buffer.slice_of_slice hq 0 (by decide)
  rw [ihlOf, hver]
  rfl

theorem protocol_checked
    (h : Checked (headerStart len id proto) addrs (q.slice etherHdrSize iphdrSize)) :
    q.slice ipProtocol 1 = [proto] := by
  obtain ⟨c, -, hq⟩ := h
  exact Buffer.slice_of_slice hq 9 (by decide)

/-- A message of `n` bytes behind a header of `ip_init_hdr`. -/
theorem Consistent.of_checked {type code : UInt8} {n : Nat} {post : List UInt8}
    (hh : Checked (headerStart len id 1) addrs (q.slice etherHdrSize iphdrSize))
    (hi : Checked [type, code] post (q.slice icmpHdr n)) (hq : q.length = icmpHdr + n)
    (hlen : len.toNat = iphdrSize + n) : Consistent q where
  totLen := by
    rw [hq, totLenOf_checked hh, hlen]
    exact Nat.add_assoc _ _ _
  ihl := by rw [ihlOf_checked hh]
  protocol := protocol_checked hh
  header := by
    refine hh.verifies (by rw [length_headerStart]) ?_
    obtain ⟨c, -, he⟩ := hh
    have hle := Buffer.length_slice_le q etherHdrSize iphdrSize
    rw [he, List.length_append, List.length_append] at hle
    simp only [iphdrSize, Buffer.length_le16] at hle
    omega
  icmp := by
    have hn : totLenOf q - iphdrSize = n := by
      rw [totLenOf_checked hh, hlen, Nat.add_sub_cancel_left]
    rw [hn]
    have hpre : [type, code].length = 2 := rfl
    refine hi.verifies (by rw [hpre]) ?_
    obtain ⟨c, -, he⟩ := hi
    have hle := Buffer.length_slice_le q icmpHdr n
    rw [he, List.length_append, List.length_append] at hle
    have hlt := len.toNat_lt
    simp only [Buffer.length_le16] at hle
    omega

end Header

section Built

variable {inPkt q : Frame} {type code : UInt8} {rt : RtEntry} {s : Router}

/-- The unused field of an error. -/
theorem length_malloc_unused : ((s.malloc icmpErrorLen).1.slice (icmpHdr + 4) 4).length = 4 := by
  refine Buffer.length_slice ?_
  rw [length_malloc]
  exact Nat.le_of_ble_eq_true rfl

/-- What an echo reply copies lies inside the request. -/
theorem length_echoed {n : Nat} (hn : inPkt.length = payloadOffset inPkt + icmphdrSize + n) :
    (inPkt.slice (etherHdrSize + ihlOf inPkt * 4 + 4) 4).length = 4 ∧
      (inPkt.slice (etherHdrSize + ihlOf inPkt * 4 + icmphdrSize) n).length = n := by
  refine ⟨Buffer.length_slice ?_, Buffer.length_slice (Nat.le_of_eq hn.symm)⟩
  rw [hn]
  simp only [payloadOffset, icmphdrSize]
  omega

/-- The message of an error, and the region that it quotes. -/
theorem builtMessage_error (h : builtMessage inPkt type code rt s = .ok q) (h0 : type ≠ 0) :
    Consistent q ∧ totLenOf q = iphdrSize + icmphdrSize + (iphdrSize + 8) ∧
      icmpData q = inPkt.slice etherHdrSize (iphdrSize + 8) := by
  have hlen := (builtMessage_ok h).1
  rw [if_neg h0] at hlen
  rw [builtMessage, if_neg h0] at h
  obtain ⟨hh, hi⟩ := icmpError_layout h
  have htot : totLenOf q = 56 := totLenOf_checked hh
  refine ⟨.of_checked hh hi hlen rfl, htot, ?_⟩
  obtain ⟨c, -, he⟩ := hi
  have hdata : q.slice (icmpHdr + 8) 28 = _ := Buffer.slice_of_slice he 8 (by decide)
  rw [icmpData, payloadOffset, ihlOf_checked hh, htot]
  refine hdata.trans ?_
  have hpre : ([type, code] ++ (Buffer.le16 c ++ (s.malloc icmpErrorLen).1.slice (icmpHdr + 4) 4)).length = 8 := by
    rw [List.length_append, List.length_append, length_malloc_unused]
    rfl
  rw [← List.append_assoc (Buffer.le16 c), ← List.append_assoc, Buffer.slice, ← hpre, List.drop_left]
  exact List.take_of_length_le (Buffer.length_slice_le _ _ _)

/-- An echo reply: its lengths are those of the request's frame, and the data comes behind the header as
if the request had no options. -/
theorem builtMessage_echo (h : builtMessage inPkt 0 code rt s = .ok q) (h5 : 5 ≤ ihlOf inPkt) {n : Nat}
    (hn : inPkt.length = payloadOffset inPkt + icmphdrSize + n)
    (hmax : inPkt.length ≤ etherHdrSize + 65535) :
    Consistent q ∧ inPkt.length = etherHdrSize + totLenOf q ∧
      q.slice (icmpHdr + 4) 4 = inPkt.slice (payloadOffset inPkt + 4) 4 ∧
      q.slice (icmpHdr + icmphdrSize) n = inPkt.slice (payloadOffset inPkt + icmphdrSize) n := by
  have hlen := (builtMessage_ok h).1
  rw [if_pos rfl] at hlen
  rw [builtMessage, if_pos rfl] at h
  have h42 : 42 ≤ inPkt.length := by
    rw [hn]
    simp only [payloadOffset, etherHdrSize, icmphdrSize]
    omega
  obtain ⟨hh, hi⟩ := icmpEchoReply_layout h hn h5 (Nat.lt_of_le_of_lt hmax (by decide))
  have h14 : etherHdrSize = 14 := rfl
  have hnat : (UInt16.ofNat (inPkt.length - etherHdrSize)).toNat = inPkt.length - etherHdrSize :=
    UInt16.toNat_ofNat_of_lt (Nat.lt_of_le_of_lt (by omega : _ ≤ 65535) (by decide))
  have htot : inPkt.length = etherHdrSize + totLenOf q := by
    rw [totLenOf_checked hh, hnat]
    omega
  refine ⟨.of_checked hh hi ?_ ?_, htot, ?_⟩
  · simp only [icmpHdr, etherHdrSize, iphdrSize]
    omega
  · -- the length field has 16 bits, and the frame is short enough for them
    rw [hnat]
    simp only [icmpHdr, etherHdrSize, iphdrSize]
    omega
  obtain ⟨c, -, he⟩ := hi
  obtain ⟨hid, hdata⟩ := length_echoed hn
  have h8 : icmphdrSize = 8 := rfl
  -- with options in the request some bytes of the reply are left behind the data
  have hle : icmphdrSize + n ≤ inPkt.length - icmpHdr := by
    rw [hn]
    simp only [payloadOffset, icmpHdr, etherHdrSize, iphdrSize]
    omega
  constructor
  · rw [Buffer.slice_of_slice he 4 (Nat.le_trans (by omega) hle), ← List.append_assoc]
    exact Buffer.slice_append rfl hid
  · rw [Buffer.slice_of_slice he icmphdrSize hle, ← List.append_assoc, ← List.append_assoc]
    refine Buffer.slice_append ?_ hdata
    rw [List.length_append, List.length_append, hid]
    rfl

end Built

/-! ## Submissions -/

/-- `iface_send_packet_by_arp` records one submission and no message. -/
theorem ifaceSendPacketByArp_trace {iface : Iface} {dst : UInt32} {packet : Frame} {s s' : Router}
    (h : ifaceSendPacketByArp iface dst packet s = .ok s') :
    ∃ es, s'.trace = s.trace ++ es ∧ submissions es = [(s.next, iface, dst, packet)] ∧
      originations es = [] := by
  obtain ⟨_, -, ⟨mac, frame, -, -, rfl⟩ | ⟨-, -, rfl⟩ | ⟨-, -, rfl⟩⟩ := ifaceSendPacketByArp_cases h
  · exact ⟨_, List.append_assoc _ _ _, rfl, rfl⟩
  · exact ⟨_, List.append_assoc _ _ _, rfl, rfl⟩
  · exact ⟨[.submitted s.next iface dst packet, .queued s.next, .opened dst,
      .sent iface (arpFrame broadcastMac iface.mac arpopRequest iface.mac iface.ip zeroMac dst) .arp],
      by simp, rfl, rfl⟩

theorem submittedSince_of_submitted {iface : Iface} {dst : UInt32} {packet : Frame} {s s' : Router}
    (h : ifaceSendPacketByArp iface dst packet s = .ok s') :
    submittedSince s s' = [(s.next, iface, dst, packet)] ∧ originatedSince s s' = [] := by
  obtain ⟨es, he, hsub, hor⟩ := ifaceSendPacketByArp_trace h
  rw [submittedSince, originatedSince, he, List.drop_left]
  exact ⟨hsub, hor⟩

section Message

variable {rtable : List RtEntry} {inPkt : Frame} {type code : UInt8} {rt : RtEntry} {s s' : Router}

/-- The message that `icmp_send_packet` builds is submitted. -/
theorem submittedSince_of_built {q : Frame}
    (h : ifaceSendPacketByArp rt.iface (sourceOf inPkt) q
      (s.drawn.log (.originated type code (sourceOf inPkt))) = .ok s') :
    submittedSince s s' = [(s.next, rt.iface, sourceOf inPkt, q)] ∧
      originatedSince s s' = [(type, code, sourceOf inPkt)] := by
  obtain ⟨es, he, hsub, hor⟩ := ifaceSendPacketByArp_trace h
  rw [Router.log, Router.drawn_trace, List.append_assoc] at he
  rw [submittedSince, originatedSince, he, List.drop_left, submissions_append, originations_append, hsub,
    hor]
  exact ⟨rfl, rfl⟩

/-- A call of `icmp_send_packet` with a route to the source that comes to its end. -/
theorem icmpSendPacket_submitted (ht : OwnType type)
    (hr : longestPrefixMatch rtable (sourceOf inPkt) = some rt)
    (h : icmpSendPacket rtable inPkt type code s = .ok s') :
    ∃ q, builtMessage inPkt type code rt s = .ok q ∧
      submittedSince s s' = [(s.next, rt.iface, sourceOf inPkt, q)] ∧
      originatedSince s s' = [(type, code, sourceOf inPkt)] := by
  rcases icmpSendPacket_cases ht h with ⟨hnone, -⟩ | ⟨rt', q, hr', hb, h⟩
  · rw [hr] at hnone
    cases hnone
  · cases hr.symm.trans hr'
    exact ⟨q, hb, submittedSince_of_built h⟩

variable (code s) in
/-- A call that stays within bounds comes to its end. -/
theorem exists_submitted (ht : OwnType type) (hr : longestPrefixMatch rtable (sourceOf inPkt) = some rt)
    (hb : Buildable type inPkt)
    (hshort : type = 0 → inPkt.length < 2 ^ 64) (heven : type = 0 → inPkt.length % 2 = 0) :
    ∃ s' q, icmpSendPacket rtable inPkt type code s = .ok s' ∧
      submittedSince s s' = [(s.next, rt.iface, sourceOf inPkt, q)] ∧
      builtMessage inPkt type code rt s = .ok q := by
  obtain ⟨s', hs⟩ : ∃ s', icmpSendPacket rtable inPkt type code s = .ok s' :=
    exists_icmpSendPacket ht hb.header hshort (fun _ => hb) fun _ => heven
  obtain ⟨q, hq, hsub, -⟩ := icmpSendPacket_submitted ht hr hs
  exact ⟨s', q, hs, hsub, hq⟩

/-- Something is true of the packet that a call submits if it is true of the one that is known to be
submitted. -/
theorem exists_submitted_iff {c : Except Fault Router} {n : Nat} {iface : Iface} {dst : UInt32}
    {P : Frame → Prop} {q : Frame} (hs : c = .ok s') (hsub : submittedSince s s' = [(n, iface, dst, q)]) :
    (∃ s' q, c = .ok s' ∧ submittedSince s s' = [(n, iface, dst, q)] ∧ P q) ↔ P q := by
  constructor
  · rintro ⟨s₁, q₁, hs₁, hsub₁, hq₁⟩
    cases hs.symm.trans hs₁
    rw [hsub, List.cons.injEq, Prod.mk.injEq, Prod.mk.injEq, Prod.mk.injEq] at hsub₁
    obtain ⟨⟨-, -, -, rfl⟩, -⟩ := hsub₁
    exact hq₁
  · intro hq
    exact ⟨s', q, hs, hsub, hq⟩

/-- **Every message is consistent.** What `icmp_send_packet` hands on has the lengths of its frame and
checksums that verify. -/
theorem icmpSendPacket_consistent (ht : OwnType type)
    (hr : longestPrefixMatch rtable (sourceOf inPkt) = some rt)
    (herror : type ≠ 0 → etherHdrSize + iphdrSize + 8 ≤ inPkt.length)
    (hecho : type = 0 → 5 ≤ ihlOf inPkt ∧ payloadOffset inPkt + icmphdrSize ≤ inPkt.length ∧
      inPkt.length % 2 = 0 ∧ inPkt.length ≤ etherHdrSize + 65535) :
    ∃ s' q, icmpSendPacket rtable inPkt type code s = .ok s' ∧
      submittedSince s s' = [(s.next, rt.iface, sourceOf inPkt, q)] ∧ Consistent q := by
  by_cases h0 : type = 0
  · subst h0
    obtain ⟨h5, hle, heven, hmax⟩ := hecho rfl
    obtain ⟨n, hn⟩ := Nat.exists_eq_add_of_le hle
    obtain ⟨s', q, hs, hsub, hq⟩ := exists_submitted code s ht hr (buildable_reply.mpr ⟨h5, hle⟩)
      (fun _ => Nat.lt_of_le_of_lt hmax (by decide)) fun _ => heven
    exact ⟨s', q, hs, hsub, (builtMessage_echo hq h5 hn hmax).1⟩
  · obtain ⟨s', q, hs, hsub, hq⟩ := exists_submitted code s ht hr ((buildable_error h0).mpr (herror h0))
      (fun h => absurd h h0) fun h => absurd h h0
    exact ⟨s', q, hs, hsub, (builtMessage_error hq h0).1⟩

/-- The reply to an echo request with two bytes of data. -/
theorem icmpSendPacket_consistent_ping :
    ∃ s' q, icmpSendPacket Sample.connected (Sample.ipv4 5 30 64 1 0x0a000102 0x0a000101 (Sample.ping [7, 7]))
        0 0 (arpcacheInit (Sample.clockAt 0)) = .ok s' ∧
      submittedSince (arpcacheInit (Sample.clockAt 0)) s' =
        [(0, Sample.eth0, sourceOf (Sample.ipv4 5 30 64 1 0x0a000102 0x0a000101 (Sample.ping [7, 7])), q)] ∧
      Consistent q :=
  have hr : longestPrefixMatch Sample.connected
      (sourceOf (Sample.ipv4 5 30 64 1 0x0a000102 0x0a000101 (Sample.ping [7, 7]))) = some Sample.toNet1 := by
    decide
  icmpSendPacket_consistent (Or.inl rfl) hr (by decide) (by decide)

/-- The quotation of an error ends where the quoted header would end without options. -/
theorem quotes_iff_of_built {q : Frame} (h : builtMessage inPkt type code rt s = .ok q) (h0 : type ≠ 0) :
    Quotes inPkt q ↔ ihlOf inPkt = 5 := by
  obtain ⟨hcons, htot, hdata⟩ := builtMessage_error h h0
  constructor
  · -- the lengths alone tell a header with options
    intro hq
    have hlen := hq.totLen
    rw [htot] at hlen
    simp only [iphdrSize, icmphdrSize] at hlen
    omega
  · intro hihl
    refine ⟨hcons, ?_, ?_⟩
    · rw [htot, hihl]
    · rw [hdata, hihl]

/-- **Which packets are quoted as documented.** An error quotes the whole header of the packet that it is
about and the first 64 bits of the data, if and only if that header has no options. -/
theorem icmpSendPacket_quotes_iff (ht : type = 3 ∨ type = 11)
    (hr : longestPrefixMatch rtable (sourceOf inPkt) = some rt) (h5 : 5 ≤ ihlOf inPkt)
    (h8 : payloadOffset inPkt + 8 ≤ inPkt.length) :
    (∃ s' q, icmpSendPacket rtable inPkt type code s = .ok s' ∧
        submittedSince s s' = [(s.next, rt.iface, sourceOf inPkt, q)] ∧ Quotes inPkt q) ↔
      ihlOf inPkt = 5 := by
  have h0 : type ≠ 0 := by
    rcases ht with rfl | rfl <;> decide
  have hbuild : Buildable type inPkt :=
    (buildable_error h0).mpr (Nat.le_trans (Nat.add_le_add_right (header_le_payloadOffset h5) 8) h8)
  obtain ⟨s', q, hs, hsub, hq⟩ := exists_submitted code s (Or.inr ht) hr hbuild (fun h => absurd h h0)
    fun h => absurd h h0
  rw [exists_submitted_iff hs hsub]
  exact quotes_iff_of_built hq h0

end Message

/-- An error about a packet without options. -/
theorem icmpSendPacket_quotes_iff_udp :
    ∃ s' q, icmpSendPacket Sample.connected (Sample.udp 0x0a000102 0x0a000202 1) 11 0
        (arpcacheInit (Sample.clockAt 0)) = .ok s' ∧
      submittedSince (arpcacheInit (Sample.clockAt 0)) s' =
        [(0, Sample.eth0, sourceOf (Sample.udp 0x0a000102 0x0a000202 1), q)] ∧
      Quotes (Sample.udp 0x0a000102 0x0a000202 1) q :=
  have hr : longestPrefixMatch Sample.connected (sourceOf (Sample.udp 0x0a000102 0x0a000202 1)) =
      some Sample.toNet1 := by decide
  (icmpSendPacket_quotes_iff (Or.inr rfl) hr (by decide) (by decide)).mpr (by decide)

/-- An error about a packet with one word of options. -/
theorem icmpSendPacket_misquotes :
    ∃ inPkt s' q, 5 ≤ ihlOf inPkt ∧ payloadOffset inPkt + 8 ≤ inPkt.length ∧
      icmpSendPacket Sample.connected inPkt 11 0 (arpcacheInit (Sample.clockAt 0)) = .ok s' ∧
      submittedSince (arpcacheInit (Sample.clockAt 0)) s' = [(0, Sample.eth0, sourceOf inPkt, q)] ∧
      ¬ Quotes inPkt q := by
  have hr : longestPrefixMatch Sample.connected
      (sourceOf (Sample.ipv4 6 32 1 17 0x0a000102 0x0a000202 (List.replicate 12 0))) =
        some Sample.toNet1 := by decide
  obtain ⟨s', q, hs, hsub, hq⟩ := exists_submitted 0 (arpcacheInit (Sample.clockAt 0))
    (Or.inr (Or.inr rfl)) hr (by decide) (by decide) (by decide)
  refine ⟨_, s', q, by decide, by decide, hs, hsub, fun hquotes => ?_⟩
  have h5 := (quotes_iff_of_built hq (by decide)).mp hquotes
  exact absurd h5 (by decide)

end StaticRouter
