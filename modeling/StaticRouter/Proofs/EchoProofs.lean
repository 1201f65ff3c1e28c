import StaticRouter.Proofs.MessageProofs
import StaticRouter.Proofs.ParsingProofs

/-!
# Proofs: echo replies

The path of an echo request is taken by every packet to the interface, and its reply is made from the
length of the frame. So a reply answers something else than an echo request, or returns something else
than its data, unless the frames are those that a `ping` without options makes.
-/

namespace StaticRouter

open CMem

variable {rtable : List RtEntry} {iface : Iface} {packet : Frame} {rt : RtEntry} {s : Router}

/-! ## Which frames are answered -/

/-- An echo reply is made for a packet to the interface that has a route back, if there is room for an
ICMP header and the length is even. -/
theorem makesEchoReply_iff (hw : WellFormed packet) (hp : payloadOffset packet ≤ packet.length)
    (hl : packet.length ≤ ethFrameLen) :
    MakesEchoReply rtable iface packet s ↔ destOf packet = iface.ip ∧ Routed rtable (sourceOf packet) ∧
      payloadOffset packet + icmphdrSize ≤ packet.length ∧ packet.length % 2 = 0 := by
  have hshort : packet.length < 2 ^ 64 := Nat.lt_of_le_of_lt hl (by decide)
  have h34 : etherHdrSize + iphdrSize ≤ packet.length := Nat.le_trans (header_le_payloadOffset hw.ihl) hp
  unfold MakesEchoReply
  rw [handlePacket_ip hw.type]
  constructor
  · rintro ⟨s', code, dst, hs, hmem⟩
    rcases handleIpPacket_cases hs with ⟨type, ha, hreason, h⟩ | ⟨rt, q, -, -, -, -, h⟩
    · rcases icmpSendPacket_cases hreason.ownType h with ⟨-, rfl⟩ | ⟨rt, q, hr, hq, hsub⟩
      · rw [originatedSince, List.drop_length] at hmem
        cases hmem
      · rw [(submittedSince_of_built hsub).2, List.mem_singleton, Prod.mk.injEq] at hmem
        obtain ⟨rfl, -⟩ := hmem
        have hd : destOf packet = iface.ip := answerType_eq_zero.mp ha
        obtain ⟨hbuild, heven⟩ := buildable_of_builtMessage (fun _ => hshort) h34 hq
        exact ⟨hd, routed_iff.mpr ⟨rt, hr⟩, (buildable_reply.mp hbuild).2, heven rfl⟩
    · rw [(submittedSince_of_submitted h).2] at hmem
      cases hmem
  · rintro ⟨hd, hrouted, hle, heven⟩
    obtain ⟨rt, hr⟩ := routed_iff.mp hrouted
    rw [handleIpPacket_answered h34 (answerType_eq_zero.mpr hd)]
    obtain ⟨s', hs⟩ : ∃ s', icmpSendPacket rtable packet 0 0 s = .ok s' :=
      exists_icmpSendPacket (Or.inl rfl) h34 (fun _ => hshort)
        (fun _ => buildable_reply.mpr ⟨hw.ihl, hle⟩) fun _ _ => heven
    obtain ⟨q, -, -, hor⟩ := icmpSendPacket_submitted (Or.inl rfl) hr hs
    exact ⟨s', 0, sourceOf packet, hs, by rw [hor]; exact List.mem_singleton.mpr rfl⟩

/-- **Which frames are answered as documented.** An echo reply is made for echo requests to the interface
with a route back and for nothing else, if and only if the echo requests among the packets on that path
are those with room for an ICMP header and an even length. -/
theorem makesEchoReply_iff_request (hw : WellFormed packet) (hp : payloadOffset packet ≤ packet.length)
    (hl : packet.length ≤ ethFrameLen) :
    (MakesEchoReply rtable iface packet s ↔
        IsEchoRequest packet ∧ destOf packet = iface.ip ∧ Routed rtable (sourceOf packet)) ↔
      (destOf packet = iface.ip → Routed rtable (sourceOf packet) →
        (IsEchoRequest packet ↔
          payloadOffset packet + icmphdrSize ≤ packet.length ∧ packet.length % 2 = 0)) := by
  rw [makesEchoReply_iff hw hp hl]
  tauto

/-- An echo request without data is answered. -/
theorem makesEchoReply_iff_request_ping :
    MakesEchoReply Sample.connected Sample.eth0
        (Sample.ipv4 5 28 64 1 0x0a000102 0x0a000101 (Sample.ping [])) (arpcacheInit (Sample.clockAt 0)) :=
  ((makesEchoReply_iff_request ⟨by decide, by decide⟩ (by decide) (by decide)).mpr
    (by decide)).mpr (by decide)

/-- A UDP packet to the interface is answered with an echo reply. -/
theorem makesEchoReply_udp :
    ∃ packet : Frame, WellFormed packet ∧ payloadOffset packet ≤ packet.length ∧ ¬ IsEchoRequest packet ∧
      MakesEchoReply Sample.connected Sample.eth0 packet (arpcacheInit (Sample.clockAt 0)) := by
  refine ⟨Sample.udp 0x0a000102 0x0a000101 64, ⟨by decide, by decide⟩, by decide, by decide, ?_⟩
  exact (makesEchoReply_iff ⟨by decide, by decide⟩ (by decide) (by decide)).mpr (by decide)

/-! ## What an echo reply returns -/

/-- An echo reply is as long as the frame of the request, and its header has no options. -/
theorem echoes_iff_of_built {code : UInt8} {q : Frame} (h : builtMessage packet 0 code rt s = .ok q)
    (h5 : 5 ≤ ihlOf packet) (hlow : ihlOf packet * 4 + icmphdrSize ≤ totLenOf packet)
    (hhigh : etherHdrSize + totLenOf packet ≤ packet.length)
    (hl : packet.length ≤ etherHdrSize + 65535) :
    Echoes packet q ↔ ihlOf packet = 5 ∧ packet.length = etherHdrSize + totLenOf packet := by
  have h14 : etherHdrSize = 14 := rfl
  have h8 : icmphdrSize = 8 := rfl
  have h20 : iphdrSize = 20 := rfl
  obtain ⟨n, hn⟩ : ∃ n, packet.length = payloadOffset packet + icmphdrSize + n := by
    refine Nat.exists_eq_add_of_le ?_
    unfold payloadOffset
    omega
  have hmsg := (builtMessage_ok h).2
  obtain ⟨hcons, hlen, hid, hdata⟩ := builtMessage_echo h h5 hn hl
  have hihl := hcons.ihl
  constructor
  · -- options and padding are both missing from the length that the reply should have
    intro he
    have htot := he.totLen
    omega
  · rintro ⟨hp5, hpad⟩
    have hpq : payloadOffset q = icmpHdr := by rw [payloadOffset, hihl]
    have hpp : payloadOffset packet = icmpHdr := by rw [payloadOffset, hp5]
    have hsize : totLenOf q - ihlOf q * 4 - icmphdrSize = n := by
      rw [hpp] at hn
      have h34 : icmpHdr = 34 := rfl
      omega
    have hsize' : totLenOf packet - ihlOf packet * 4 - icmphdrSize = n := by
      rw [hpp] at hn
      have h34 : icmpHdr = 34 := rfl
      omega
    refine ⟨?_, hmsg.dest, by omega, by rw [hpq, hid], ?_⟩
    · have htype : q.slice (etherHdrSize + ihlOf q * 4) 1 = [0] := by
        rw [hihl]
        exact hmsg.type
      rw [icmpTypeOf, if_pos hmsg.protocol, htype]
      rfl
    · rw [icmpData, icmpData, hsize, hsize', hpq, hdata]

variable (iface s) in
/-- The reply to an echo request of even length is made. -/
theorem exists_echoReply (hw : WellFormed packet) (hd : destOf packet = iface.ip)
    (hr : longestPrefixMatch rtable (sourceOf packet) = some rt)
    (hp : payloadOffset packet + icmphdrSize ≤ packet.length) (heven : packet.length % 2 = 0)
    (hl : packet.length ≤ ethFrameLen) :
    ∃ s' q, handlePacket rtable iface packet s = .ok s' ∧
      submittedSince s s' = [(s.next, rt.iface, sourceOf packet, q)] ∧
      builtMessage packet 0 0 rt s = .ok q := by
  have hb : Buildable 0 packet := buildable_reply.mpr ⟨hw.ihl, hp⟩
  rw [handlePacket_ip hw.type, handleIpPacket_answered hb.header (answerType_eq_zero.mpr hd)]
  exact exists_submitted 0 s (Or.inl rfl) hr hb (fun _ => Nat.lt_of_le_of_lt hl (by decide)) fun _ => heven

/-- **Which echo requests are returned faithfully.** The reply to an echo request with room for its data
returns exactly this data to its source, if and only if the request has no IP options and its frame no
padding. -/
theorem handlePacket_echoes_iff (hw : WellFormed packet) (hd : destOf packet = iface.ip)
    (hr : longestPrefixMatch rtable (sourceOf packet) = some rt)
    (hlow : ihlOf packet * 4 + icmphdrSize ≤ totLenOf packet)
    (hhigh : etherHdrSize + totLenOf packet ≤ packet.length) (heven : packet.length % 2 = 0)
    (hl : packet.length ≤ ethFrameLen) :
    (∃ s' q, handlePacket rtable iface packet s = .ok s' ∧
        submittedSince s s' = [(s.next, rt.iface, sourceOf packet, q)] ∧ Echoes packet q) ↔
      ihlOf packet = 5 ∧ packet.length = etherHdrSize + totLenOf packet := by
  have hmax : packet.length ≤ etherHdrSize + 65535 := Nat.le_trans hl (by decide)
  have hp : payloadOffset packet + icmphdrSize ≤ packet.length := by
    rw [payloadOffset, Nat.add_assoc]
    exact Nat.le_trans (Nat.add_le_add_left hlow etherHdrSize) hhigh
  obtain ⟨s', q, hs, hsub, hq⟩ := exists_echoReply iface s hw hd hr hp heven hl
  rw [exists_submitted_iff hs hsub]
  exact echoes_iff_of_built hq hw.ihl hlow hhigh hmax

/-- An echo request with four bytes of data, as it should be. -/
theorem handlePacket_echoes_iff_ping :
    ∃ s' q, handlePacket Sample.connected Sample.eth0
        (Sample.ipv4 5 32 64 1 0x0a000102 0x0a000101 (Sample.ping [1, 2, 3, 4]))
        (arpcacheInit (Sample.clockAt 0)) = .ok s' ∧
      submittedSince (arpcacheInit (Sample.clockAt 0)) s' = [(0, Sample.eth0, sourceOf
        (Sample.ipv4 5 32 64 1 0x0a000102 0x0a000101 (Sample.ping [1, 2, 3, 4])), q)] ∧
      Echoes (Sample.ipv4 5 32 64 1 0x0a000102 0x0a000101 (Sample.ping [1, 2, 3, 4])) q :=
  have hr : longestPrefixMatch Sample.connected (sourceOf
      (Sample.ipv4 5 32 64 1 0x0a000102 0x0a000101 (Sample.ping [1, 2, 3, 4]))) = some Sample.toNet1 := by
    decide
  (handlePacket_echoes_iff ⟨by decide, by decide⟩ (by decide) hr (by decide) (by decide) (by decide)
    (by decide)).mpr (by decide)

/-- An echo request without data in the shortest Ethernet frame: the padding comes back as data. -/
theorem handlePacket_echoesPadding :
    ∃ packet s' q, WellFormed packet ∧ IsEchoRequest packet ∧
      ihlOf packet * 4 + icmphdrSize ≤ totLenOf packet ∧
      etherHdrSize + totLenOf packet ≤ packet.length ∧ packet.length % 2 = 0 ∧
      handlePacket Sample.connected Sample.eth0 packet (arpcacheInit (Sample.clockAt 0)) = .ok s' ∧
      submittedSince (arpcacheInit (Sample.clockAt 0)) s' = [(0, Sample.eth0, sourceOf packet, q)] ∧
      ¬ Echoes packet q := by
  have hr : longestPrefixMatch Sample.connected (sourceOf (Sample.ipv4 5 28 64 1 0x0a000102 0x0a000101
      (Sample.ping (List.replicate 18 0)))) = some Sample.toNet1 := by decide
  obtain ⟨s', q, hs, hsub, hq⟩ := exists_echoReply Sample.eth0
    (arpcacheInit (Sample.clockAt 0)) ⟨by decide, by decide⟩ (by decide) hr (by decide) (by decide)
    (by decide)
  refine ⟨_, s', q, ⟨by decide, by decide⟩, by decide, by decide, by decide, by decide, hs, hsub, ?_⟩
  intro hechoes
  have hcond := (echoes_iff_of_built hq (by decide) (by decide) (by decide) (by decide)).mp hechoes
  exact absurd hcond (by decide)

end StaticRouter
