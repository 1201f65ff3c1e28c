import StaticRouter.Messages

/-!
# Frames that are parsed within bounds

No function compares the fields that it reads with the length of the frame. What a frame must hold so
that `handle_packet` stays inside it depends on the path that the frame takes.
-/

namespace StaticRouter

open CMem

/-- Every packet that waits has an Ethernet header. -/
def Framed (s : Router) : Prop :=
  ∀ r ∈ s.reqList, ∀ p ∈ r.cachedPackets, etherHdrSize ≤ p.packet.length

/-- There is a route to the address. -/
def Routed (rtable : List RtEntry) (ip4 : UInt32) : Prop := longestPrefixMatch rtable ip4 ≠ none

instance (rtable : List RtEntry) (ip4 : UInt32) : Decidable (Routed rtable ip4) :=
  inferInstanceAs (Decidable (_ ≠ _))

theorem routed_iff {rtable : List RtEntry} {ip4 : UInt32} :
    Routed rtable ip4 ↔ ∃ rt, longestPrefixMatch rtable ip4 = some rt := Option.ne_none_iff_exists'

/-- The message of a type about `inPkt` is built within bounds: an echo reply copies what is behind the
ICMP header of the request, an error quotes 28 bytes. -/
def Buildable (type : UInt8) (inPkt : Frame) : Prop :=
  if type = 0 then 5 ≤ ihlOf inPkt ∧ payloadOffset inPkt + icmphdrSize ≤ inPkt.length
  else etherHdrSize + iphdrSize + 8 ≤ inPkt.length

instance (type : UInt8) (inPkt : Frame) : Decidable (Buildable type inPkt) :=
  inferInstanceAs (Decidable (ite _ _ _))

theorem buildable_reply {inPkt : Frame} :
    Buildable 0 inPkt ↔ 5 ≤ ihlOf inPkt ∧ payloadOffset inPkt + icmphdrSize ≤ inPkt.length := by
  rw [Buildable, if_pos rfl]

theorem buildable_error {type : UInt8} {inPkt : Frame} (h0 : type ≠ 0) :
    Buildable type inPkt ↔ etherHdrSize + iphdrSize + 8 ≤ inPkt.length := by
  rw [Buildable, if_neg h0]

/-- A packet that a message is built about has an IP header. -/
theorem Buildable.header {type : UInt8} {inPkt : Frame} (h : Buildable type inPkt) :
    etherHdrSize + iphdrSize ≤ inPkt.length := by
  by_cases h0 : type = 0
  · subst h0
    obtain ⟨h5, hle⟩ := buildable_reply.mp h
    exact Nat.le_trans (header_le_payloadOffset h5) (Nat.le_of_add_right_le hle)
  · exact Nat.le_of_add_right_le ((buildable_error h0).mp h)

/-- `handle_ip_packet` stays inside the frame. -/
structure IpInBounds (rtable : List RtEntry) (iface : Iface) (packet : Frame) : Prop where
  header : etherHdrSize + iphdrSize ≤ packet.length
  answer : ∀ type ∈ answerType rtable iface packet, Routed rtable (sourceOf packet) → Buildable type packet
  /-- The checksum of a packet that is forwarded covers its whole header. -/
  forward : answerType rtable iface packet = none → payloadOffset packet ≤ packet.length

/-- `handle_packet` stays inside the frame. -/
structure InBounds (rtable : List RtEntry) (iface : Iface) (packet : Frame) : Prop where
  ether : etherHdrSize ≤ packet.length
  ip : packet.readU16 etherType = .ok ethPIp → IpInBounds rtable iface packet
  arp : packet.readU16 etherType = .ok ethPArp → etherHdrSize + etherArpSize ≤ packet.length

/-- The frame takes the path of an echo request: it is addressed to the interface that it arrives on, and
its source has a route. -/
structure TakesEchoPath (rtable : List RtEntry) (iface : Iface) (packet : Frame) : Prop where
  type : packet.readU16 etherType = .ok ethPIp
  dest : destOf packet = iface.ip
  routed : Routed rtable (sourceOf packet)

section Decide

variable (rtable : List RtEntry) (iface : Iface) (packet : Frame)

instance : Decidable (IpInBounds rtable iface packet) :=
  letI : Decidable (∀ type ∈ answerType rtable iface packet, Routed rtable (sourceOf packet) →
      Buildable type packet) := Option.decidableForallMem _
  decidable_of_iff (_ ∧ _ ∧ _) ⟨fun ⟨h, a, f⟩ => ⟨h, a, f⟩, fun ⟨h, a, f⟩ => ⟨h, a, f⟩⟩

instance : Decidable (InBounds rtable iface packet) :=
  decidable_of_iff (_ ∧ _ ∧ _) ⟨fun ⟨e, i, a⟩ => ⟨e, i, a⟩, fun ⟨e, i, a⟩ => ⟨e, i, a⟩⟩

end Decide

end StaticRouter
