import StaticRouter.Parsing
import StaticRouter.Proofs.IcmpProofs

/-!
# Proofs: outcomes

Which calls run to their end, and which access bytes outside a buffer or fail the assertion of
`checksum`.
-/

namespace StaticRouter

open CMem

/-! ## Headers -/

theorem exists_checksum {b : List UInt8} (h : b.length % 2 = 0) (sum : UInt32) :
    ∃ c, checksum b sum = .ok c := ⟨_, if_pos h⟩

/-- The checksum of a header that lies in the packet. -/
theorem exists_ipChecksum {packet : Frame} (h : etherHdrSize + iphdrSize ≤ packet.length)
    (hp : payloadOffset packet ≤ packet.length) : ∃ sum, ipChecksum packet = .ok sum := by
  have hihl : readIhl packet = .ok (ihlOf packet) := readIhl_eq (Nat.le_trans (by decide) h)
  obtain ⟨hdr, hw, hl⟩ := Buffer.exists_write (b := packet) ipCheck [0, 0] (Nat.le_trans (by decide) h)
  obtain ⟨bytes, hr, hb⟩ := Buffer.exists_read (b := hdr) etherHdrSize (ihlOf packet * 4) (hl ▸ hp)
  obtain ⟨sum, hc⟩ := exists_checksum (b := bytes) (by omega) 0
  exact ⟨sum, by simp only [ipChecksum, hihl, hw, hr, ok_bind, hc]⟩

theorem ipChecksum_outOfBounds {packet : Frame} (h : etherHdrSize + iphdrSize ≤ packet.length)
    (hp : ¬ payloadOffset packet ≤ packet.length) : ipChecksum packet = .error .outOfBounds := by
  have hihl : readIhl packet = .ok (ihlOf packet) := readIhl_eq (Nat.le_trans (by decide) h)
  obtain ⟨hdr, hw, hl⟩ := Buffer.exists_write (b := packet) ipCheck [0, 0] (Nat.le_trans (by decide) h)
  have hr : hdr.read etherHdrSize (ihlOf packet * 4) = .error .outOfBounds := if_neg (hl ▸ hp)
  simp only [ipChecksum, hihl, hw, hr, ok_bind, error_bind]

/-- `ip_init_hdr` in a buffer that has room for the header. -/
theorem exists_ipInitHdr {b : Frame} (h : etherHdrSize + iphdrSize ≤ b.length)
    (saddr daddr : UInt32) (len : UInt16) (proto : UInt8) (id : UInt16) :
    ∃ q, ipInitHdr b saddr daddr len proto id = .ok q ∧ q.length = b.length := by
  have h34 : 34 ≤ b.length := h
  obtain ⟨p₁, h₁, l₁⟩ := Buffer.exists_write (b := b) ipIhl
    ([0x45, 0] ++ Buffer.be16 len ++ Buffer.le16 id ++ Buffer.be16 ipDf ++ [defaultTtl, proto])
    (Nat.le_trans (Nat.le_of_ble_eq_true rfl) h34)
  obtain ⟨p₂, h₂, l₂⟩ := Buffer.exists_write (b := p₁) ipSaddr (Buffer.be32 saddr ++ Buffer.be32 daddr)
    (Nat.le_trans (Nat.le_of_ble_eq_true rfl) (l₁ ▸ h34))
  have hv : p₂.slice ipIhl 1 = [0x45] := by
    rw [Buffer.slice_write h₂ (Or.inl (by decide))]
    exact Buffer.slice_of_slice (Buffer.slice_write_self h₁) 0 (by simp)
  have hl₂ : etherHdrSize + iphdrSize ≤ p₂.length := by rw [l₂, l₁]; exact h
  obtain ⟨sum, hs⟩ := exists_ipChecksum hl₂ (by rw [payloadOffset, ihlOf, hv]; exact hl₂)
  obtain ⟨p₃, h₃, l₃⟩ := Buffer.exists_write (b := p₂) ipCheck (Buffer.le16 sum)
    (Nat.le_trans (Nat.le_of_ble_eq_true rfl) hl₂)
  refine ⟨p₃, ?_, l₃.trans (l₂.trans l₁)⟩
  simp only [ipInitHdr, h₁, h₂, hs, h₃, ok_bind]

/-! ## Messages -/

theorem sizeSub_of_le {a b : Nat} (h : b ≤ a) (ha : a < 2 ^ 64) : sizeSub a b = a - b := by
  unfold sizeSub
  omega

theorem length_malloc (n : Nat) (s : Router) : (s.malloc n).1.length = n := by
  rw [Router.malloc, List.length_map, List.length_range]

section IcmpChecksum

variable {p : Frame} {n : Nat}

/-- The checksum of an ICMP message of even length. -/
theorem exists_icmpChecksum (h : icmpHdr + n ≤ p.length) (h4 : icmpHdr + 4 ≤ p.length)
    (heven : n % 2 = 0) : ∃ sum, icmpChecksum p n = .ok sum := by
  obtain ⟨icmp, hw, lw⟩ := Buffer.exists_write (b := p) (icmpHdr + 2) [0, 0] h4
  obtain ⟨bytes, hb, lb⟩ := Buffer.exists_read (b := icmp) icmpHdr n (by rw [lw]; exact h)
  obtain ⟨sum, hc⟩ := exists_checksum (b := bytes) (by rw [lb]; exact heven) 0
  exact ⟨sum, by simp only [icmpChecksum, hw, hb, ok_bind, hc]⟩

/-- The assertion of `checksum` fails for a message of odd length. -/
theorem icmpChecksum_assertFailed (h : icmpHdr + n ≤ p.length) (h4 : icmpHdr + 4 ≤ p.length)
    (hodd : ¬ n % 2 = 0) : icmpChecksum p n = .error .assertFailed := by
  obtain ⟨icmp, hw, lw⟩ := Buffer.exists_write (b := p) (icmpHdr + 2) [0, 0] h4
  obtain ⟨bytes, hb, lb⟩ := Buffer.exists_read (b := icmp) icmpHdr n (by rw [lw]; exact h)
  have hc : checksum bytes 0 = .error .assertFailed := if_neg (by rw [lb]; exact hodd)
  simp only [icmpChecksum, hw, hb, ok_bind, hc]

end IcmpChecksum

section IcmpError

variable {packet inPkt : Frame} (hp : packet.length = icmpErrorLen) (src dst : UInt32)
  (type code : UInt8) (id : UInt16)

include hp

/-- An error about a packet that is long enough to be quoted. -/
theorem exists_icmpError (h : etherHdrSize + iphdrSize + 8 ≤ inPkt.length) :
    ∃ q, icmpError packet inPkt src dst type code id = .ok q := by
  obtain ⟨p₁, h₁, l₁⟩ := exists_ipInitHdr (b := packet) (by rw [hp]; decide) src dst
    (.ofNat (icmpErrorLen - etherHdrSize)) 1 id
  obtain ⟨p₂, h₂, l₂⟩ := Buffer.exists_write (b := p₁) icmpHdr [type, code]
    (by rw [l₁, hp]; exact Nat.le_of_ble_eq_true rfl)
  obtain ⟨quoted, hr, lq⟩ := Buffer.exists_read (b := inPkt) etherHdrSize (iphdrSize + 8) h
  obtain ⟨p₃, h₃, l₃⟩ := Buffer.exists_write (b := p₂) (icmpHdr + icmphdrSize) quoted
    (by rw [lq, l₂, l₁, hp]; decide)
  obtain ⟨sum, hs⟩ := exists_icmpChecksum (p := p₃) (n := icmpErrorLen - icmpHdr)
    (by rw [l₃, l₂, l₁, hp]; decide) (by rw [l₃, l₂, l₁, hp]; decide) (by decide)
  obtain ⟨p₅, h₅, -⟩ := Buffer.exists_write (b := p₃) (icmpHdr + 2) (Buffer.le16 sum)
    (by rw [l₃, l₂, l₁, hp]; exact Nat.le_of_ble_eq_true rfl)
  exact ⟨p₅, by simp only [icmpError, h₁, h₂, hr, h₃, hs, h₅, ok_bind]⟩

/-- An error about a shorter packet quotes bytes behind it. -/
theorem icmpError_outOfBounds (h : ¬ etherHdrSize + iphdrSize + 8 ≤ inPkt.length) :
    icmpError packet inPkt src dst type code id = .error .outOfBounds := by
  obtain ⟨p₁, h₁, l₁⟩ := exists_ipInitHdr (b := packet) (by rw [hp]; decide) src dst
    (.ofNat (icmpErrorLen - etherHdrSize)) 1 id
  obtain ⟨p₂, h₂, -⟩ := Buffer.exists_write (b := p₁) icmpHdr [type, code]
    (by rw [l₁, hp]; exact Nat.le_of_ble_eq_true rfl)
  have hr : inPkt.read etherHdrSize (iphdrSize + 8) = .error .outOfBounds := if_neg h
  simp only [icmpError, h₁, h₂, hr, ok_bind, error_bind]

end IcmpError

section IcmpEchoReply

variable {packet inPkt : Frame} {ihl : Nat} (hp : packet.length = inPkt.length)
  (hshort : inPkt.length < 2 ^ 64) (src dst : UInt32) (code : UInt8) (id : UInt16)

include hp hshort

/-- The echo reply to a packet with an ICMP header, up to its checksum. -/
theorem icmpEchoReply_filled (h5 : 5 ≤ ihl) (h : etherHdrSize + ihl * 4 + icmphdrSize ≤ inPkt.length) :
    ∃ p₄ : Frame, p₄.length = inPkt.length ∧ icmpHdr + icmphdrSize ≤ inPkt.length ∧
      icmpEchoReply packet inPkt ihl src dst code id = icmpChecksum p₄ (inPkt.length - icmpHdr) >>=
        fun sum => p₄.write (icmpHdr + 2) (Buffer.le16 sum) := by
  have h42 : 42 ≤ packet.length := by simp only [etherHdrSize, icmphdrSize] at h; omega
  have hsub : sizeSub inPkt.length (etherHdrSize + ihl * 4 + icmphdrSize) =
      inPkt.length - (etherHdrSize + ihl * 4 + icmphdrSize) := sizeSub_of_le h hshort
  have hicmp : sizeSub inPkt.length icmpHdr = inPkt.length - icmpHdr :=
    sizeSub_of_le (Nat.le_trans (by decide) (hp ▸ h42)) hshort
  -- the writes up to the data stay in front of byte 42, whatever the request looks like
  obtain ⟨p₁, h₁, l₁⟩ := exists_ipInitHdr (b := packet) (Nat.le_trans (by decide) h42) src dst
    (.ofNat (sizeSub inPkt.length etherHdrSize)) 1 id
  obtain ⟨p₂, h₂, l₂⟩ := Buffer.exists_write (b := p₁) icmpHdr [0, code]
    (by rw [l₁]; exact Nat.le_trans (Nat.le_of_ble_eq_true rfl) h42)
  obtain ⟨idSeq, hi, li⟩ := Buffer.exists_read (b := inPkt) (etherHdrSize + ihl * 4 + 4) 4
    (by simp only [icmphdrSize] at h; omega)
  obtain ⟨p₃, h₃, l₃⟩ := Buffer.exists_write (b := p₂) (icmpHdr + 4) idSeq
    (by rw [li, l₂, l₁]; exact Nat.le_trans (by decide) h42)
  -- the reply's own header is no longer than that of the request, so the data fits behind it
  obtain ⟨data, hd, ld⟩ := Buffer.exists_read (b := inPkt) (etherHdrSize + ihl * 4 + icmphdrSize)
    (inPkt.length - (etherHdrSize + ihl * 4 + icmphdrSize)) (by omega)
  obtain ⟨p₄, h₄, l₄⟩ := Buffer.exists_write (b := p₃) (icmpHdr + icmphdrSize) data
    (by rw [ld, l₃, l₂, l₁, hp]; simp only [icmpHdr, etherHdrSize, iphdrSize, icmphdrSize] at *; omega)
  refine ⟨p₄, by rw [l₄, l₃, l₂, l₁, hp], hp ▸ h42, ?_⟩
  simp only [icmpEchoReply, h₁, h₂, hi, h₃, hsub, hd, h₄, hicmp, ok_bind]

/-- The echo reply to a packet with a short header, or without an ICMP header. -/
theorem icmpEchoReply_outOfBounds (h34 : etherHdrSize + iphdrSize ≤ inPkt.length)
    (h : ¬ (5 ≤ ihl ∧ etherHdrSize + ihl * 4 + icmphdrSize ≤ inPkt.length)) :
    icmpEchoReply packet inPkt ihl src dst code id = .error .outOfBounds := by
  have hinit := exists_ipInitHdr (b := packet) (by rw [hp]; exact h34) src dst
  unfold icmpEchoReply
  refine bind_outOfBounds (fun e he => ?_) fun p₁ h₁ => ?_
  · obtain ⟨p₁, h₁, -⟩ := hinit (.ofNat (sizeSub inPkt.length etherHdrSize)) 1 id
    exact absurd (he.symm.trans h₁) (by simp)
  refine bind_outOfBounds (fun e => Buffer.write_error) fun p₂ h₂ => ?_
  refine bind_outOfBounds (fun e => Buffer.read_error) fun idSeq hi => ?_
  refine bind_outOfBounds (fun e => Buffer.write_error) fun p₃ h₃ => ?_
  refine bind_outOfBounds (fun e => Buffer.read_error) fun data hd => ?_
  refine bind_outOfBounds (fun e => Buffer.write_error) fun p₄ h₄ => ?_
  -- the ICMP header has been read, so the header is too short for what is behind it to fit
  obtain ⟨hle, rfl⟩ := Buffer.read_ok.mp hi
  obtain ⟨hle', rfl⟩ := Buffer.read_ok.mp hd
  have hfit := (Buffer.write_ok.mp h₄).1
  have hhdr : etherHdrSize + ihl * 4 + icmphdrSize ≤ inPkt.length := by
    simp only [icmphdrSize]
    omega
  rw [sizeSub_of_le hhdr hshort] at hle' hfit
  rw [Buffer.length_slice hle', Buffer.length_write h₃, Buffer.length_write h₂, (ipInitHdr_ok h₁).1, hp]
    at hfit
  refine absurd ⟨?_, hhdr⟩ h
  clear hshort
  simp only [icmpHdr, etherHdrSize, iphdrSize, icmphdrSize] at hfit hhdr
  omega

end IcmpEchoReply

section BuiltMessage

variable {rtable : List RtEntry} {inPkt : Frame} {type code : UInt8} {rt : RtEntry} {s : Router}

/-- A message that is built. -/
theorem exists_builtMessage (hshort : type = 0 → inPkt.length < 2 ^ 64) (hb : Buildable type inPkt)
    (heven : type = 0 → inPkt.length % 2 = 0) : ∃ q, builtMessage inPkt type code rt s = .ok q := by
  unfold Buildable at hb
  unfold builtMessage
  split_ifs at hb ⊢ with h0
  · obtain ⟨p₄, l₄, h42, he⟩ := icmpEchoReply_filled (length_malloc inPkt.length s) (hshort h0)
      rt.iface.ip (sourceOf inPkt) code (s.env.rand 0) hb.1 hb.2
    have heven := heven h0
    have h34 : icmpHdr = 34 := rfl
    obtain ⟨sum, hs⟩ := exists_icmpChecksum (p := p₄) (n := inPkt.length - icmpHdr)
      (by rw [l₄]; omega) (by rw [l₄]; exact Nat.le_trans (by decide) h42) (by omega)
    obtain ⟨q, hq, -⟩ := Buffer.exists_write (b := p₄) (icmpHdr + 2) (Buffer.le16 sum)
      (by rw [l₄]; exact Nat.le_trans (Nat.le_of_ble_eq_true rfl) h42)
    exact ⟨q, by rw [he, hs, ok_bind, hq]⟩
  · exact exists_icmpError (length_malloc icmpErrorLen s) _ _ _ _ _ hb

/-- The assertion of `checksum` fails for an echo reply of odd length. -/
theorem builtMessage_assertFailed (hshort : inPkt.length < 2 ^ 64) (hb : Buildable 0 inPkt)
    (hodd : ¬ inPkt.length % 2 = 0) : builtMessage inPkt 0 code rt s = .error .assertFailed := by
  obtain ⟨h5, hle⟩ := buildable_reply.mp hb
  rw [builtMessage, if_pos rfl]
  obtain ⟨p₄, l₄, h42, he⟩ := icmpEchoReply_filled (length_malloc inPkt.length s) hshort rt.iface.ip
    (sourceOf inPkt) code (s.env.rand 0) h5 hle
  have h34 : icmpHdr = 34 := rfl
  have hs := icmpChecksum_assertFailed (p := p₄) (n := inPkt.length - icmpHdr)
    (by rw [l₄]; omega) (by rw [l₄]; exact Nat.le_trans (by decide) h42) (by omega)
  rw [he, hs, error_bind]

/-- A message that is not built within bounds. -/
theorem builtMessage_outOfBounds (hshort : type = 0 → inPkt.length < 2 ^ 64)
    (h34 : etherHdrSize + iphdrSize ≤ inPkt.length) (hb : ¬ Buildable type inPkt) :
    builtMessage inPkt type code rt s = .error .outOfBounds := by
  unfold Buildable at hb
  unfold builtMessage
  split_ifs at hb ⊢ with h0
  · exact icmpEchoReply_outOfBounds (length_malloc inPkt.length s) (hshort h0) _ _ _ _ h34 hb
  · exact icmpError_outOfBounds (length_malloc icmpErrorLen s) _ _ _ _ _ hb

/-- A message that is built is built within bounds, and an echo reply has an even length. -/
theorem buildable_of_builtMessage {q : Frame} (hshort : type = 0 → inPkt.length < 2 ^ 64)
    (h34 : etherHdrSize + iphdrSize ≤ inPkt.length) (h : builtMessage inPkt type code rt s = .ok q) :
    Buildable type inPkt ∧ (type = 0 → inPkt.length % 2 = 0) := by
  have hb : Buildable type inPkt := by
    by_contra hno
    rw [builtMessage_outOfBounds hshort h34 hno] at h
    cases h
  refine ⟨hb, fun h0 => ?_⟩
  subst h0
  by_contra hodd
  rw [builtMessage_assertFailed (hshort rfl) hb hodd] at h
  cases h

/-- A message has an Ethernet header. -/
theorem builtMessage_ether {q : Frame} (h34 : etherHdrSize + iphdrSize ≤ inPkt.length)
    (h : builtMessage inPkt type code rt s = .ok q) : etherHdrSize ≤ q.length := by
  rw [(builtMessage_ok h).1]
  split_ifs
  · exact Nat.le_of_add_right_le h34
  · exact Nat.le_of_ble_eq_true rfl

end BuiltMessage

/-! ## Submissions -/

/-- `iface_send_packet_by_arp` of a packet with room for the Ethernet header. -/
theorem exists_ifaceSendPacketByArp {packet : Frame} (h : etherHdrSize ≤ packet.length)
    (iface : Iface) (dst : UInt32) (s : Router) :
    ∃ s', ifaceSendPacketByArp iface dst packet s = .ok s' := by
  have h14 : 14 ≤ packet.length := h
  obtain ⟨p₁, h₁, l₁⟩ := Buffer.exists_write (b := packet) etherShost iface.mac.val
    (by rw [iface.mac.property]; exact Nat.le_trans (by decide) h14)
  obtain ⟨p₂, h₂, l₂⟩ := Buffer.exists_write (b := p₁) etherType (Buffer.be16 ethPIp)
    (by rw [l₁]; exact h14)
  simp only [ifaceSendPacketByArp, h₁, h₂, ok_bind]
  cases hl : arpcacheLookup s.table dst with
  | none => exact ⟨_, by simp only [Router.log, hl]; rfl⟩
  | some mac =>
    obtain ⟨p₃, h₃, -⟩ := Buffer.exists_write (b := p₂) etherDhost mac.val
      (by rw [mac.property, l₂, l₁]; exact Nat.le_trans (by decide) h14)
    exact ⟨_, by simp only [Router.log, hl, h₃, ok_bind]; rfl⟩

section IcmpSendPacket

variable {rtable : List RtEntry} {inPkt : Frame} {type code : UInt8} {s : Router}

theorem saddr_le (h34 : etherHdrSize + iphdrSize ≤ inPkt.length) : ipSaddr + 4 ≤ inPkt.length :=
  Nat.le_trans (Nat.le_of_ble_eq_true rfl) h34

/-- A message that is built is submitted. -/
theorem exists_icmpSendPacket (ht : OwnType type) (h34 : etherHdrSize + iphdrSize ≤ inPkt.length)
    (hshort : type = 0 → inPkt.length < 2 ^ 64) (hb : Routed rtable (sourceOf inPkt) → Buildable type inPkt)
    (heven : Routed rtable (sourceOf inPkt) → type = 0 → inPkt.length % 2 = 0) :
    ∃ s', icmpSendPacket rtable inPkt type code s = .ok s' := by
  cases hr : longestPrefixMatch rtable (sourceOf inPkt) with
  | none => exact ⟨s, icmpSendPacket_unrouted (saddr_le h34) hr⟩
  | some rt =>
    have hrt : Routed rtable (sourceOf inPkt) := routed_iff.mpr ⟨rt, hr⟩
    obtain ⟨q, hq⟩ : ∃ q, builtMessage inPkt type code rt s = .ok q :=
      exists_builtMessage hshort (hb hrt) (heven hrt)
    rw [icmpSendPacket_routed ht (saddr_le h34) hr, hq, ok_bind]
    exact exists_ifaceSendPacketByArp (builtMessage_ether h34 hq) _ _ _

theorem icmpSendPacket_outOfBounds (ht : OwnType type) (h34 : etherHdrSize + iphdrSize ≤ inPkt.length)
    (hshort : type = 0 → inPkt.length < 2 ^ 64) (hr : Routed rtable (sourceOf inPkt))
    (hb : ¬ Buildable type inPkt) :
    icmpSendPacket rtable inPkt type code s = .error .outOfBounds := by
  obtain ⟨rt, hrt⟩ := routed_iff.mp hr
  rw [icmpSendPacket_routed ht (saddr_le h34) hrt, builtMessage_outOfBounds hshort h34 hb, error_bind]

theorem icmpSendPacket_assertFailed (hshort : inPkt.length < 2 ^ 64)
    (hr : Routed rtable (sourceOf inPkt)) (hb : Buildable 0 inPkt) (hodd : ¬ inPkt.length % 2 = 0) : icmpSendPacket rtable inPkt 0 code s = .error .assertFailed := by
  obtain ⟨rt, hrt⟩ := routed_iff.mp hr
  rw [icmpSendPacket_routed (Or.inl rfl) (saddr_le hb.header) hrt,
    builtMessage_assertFailed hshort hb hodd, error_bind]

variable (rtable) in
/-- A report about a packet that is long enough to be quoted. -/
theorem exists_icmpSendPacket_report (h42 : etherHdrSize + iphdrSize + 8 ≤ inPkt.length) (code : UInt8)
    (s : Router) : ∃ s', icmpSendPacket rtable inPkt 3 code s = .ok s' := by
  have h0 : (3 : UInt8) ≠ 0 := by decide
  exact exists_icmpSendPacket (Or.inr (Or.inl rfl)) (Nat.le_of_add_right_le h42) (fun h => absurd h h0)
    (fun _ => (buildable_error h0).mpr h42) fun _ h => absurd h h0

end IcmpSendPacket

/-- The only fault of a report about a packet. -/
theorem icmpSendPacket_report_error {rtable : List RtEntry} {pkt : Frame} {code : UInt8} {s : Router}
    {e : Fault} (h : icmpSendPacket rtable pkt 3 code s = .error e) : e = .outOfBounds := by
  have ht : OwnType 3 := Or.inr (Or.inl rfl)
  by_cases h42 : etherHdrSize + iphdrSize + 8 ≤ pkt.length
  · obtain ⟨s', hs⟩ := exists_icmpSendPacket_report rtable h42 code s
    rw [hs] at h
    cases h
  · by_cases hl : ipSaddr + 4 ≤ pkt.length
    · cases hr : longestPrefixMatch rtable (sourceOf pkt) with
      | none =>
        rw [icmpSendPacket_unrouted hl hr] at h
        cases h
      | some rt =>
        rw [icmpSendPacket_routed ht hl hr, builtMessage, if_neg (by decide),
          icmpError_outOfBounds (length_malloc icmpErrorLen s) _ _ _ _ _ h42, error_bind] at h
        exact (Except.error.inj h).symm
    · have hsrc : pkt.readU32 ipSaddr = .error .outOfBounds := Buffer.map_error.mpr (if_neg hl)
      simp only [icmpSendPacket, hsrc] at h
      rcases bind_error h with h | ⟨ihl, -, h⟩
      · exact Buffer.read_error (Buffer.map_error.mp (Buffer.map_error.mp h))
      · exact (Except.error.inj h).symm

end StaticRouter
