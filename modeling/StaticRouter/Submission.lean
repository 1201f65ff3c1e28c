import StaticRouter.Icmp

/-!
# The packets that a router submits

What `handle_packet` hands to `iface_send_packet_by_arp` for an IPv4 frame, in terms of the frame's
header fields and the routing table.
-/

namespace StaticRouter

open CMem

/-! ## Header fields -/

/-- The source address field. -/
def sourceOf (packet : Frame) : UInt32 := .ofNat (Buffer.beNat (packet.slice ipSaddr 4))

/-- The destination address field. -/
def destOf (packet : Frame) : UInt32 := .ofNat (Buffer.beNat (packet.slice ipDaddr 4))

/-- The time to live. -/
def ttlOf (packet : Frame) : UInt8 := .ofNat (Buffer.beNat (packet.slice ipTtl 1))

/-- The packet `q` has the bytes of `p` from the IP header's first byte on. -/
def SameDatagram (p q : Frame) : Prop :=
  q.length = p.length ∧ ∀ o n, etherHdrSize ≤ o → q.slice o n = p.slice o n

/-! ## The kinds of packets -/

/-- The length of the IP header, in units of four bytes. -/
def ihlOf (packet : Frame) : Nat := (UInt8.ofNat (Buffer.beNat (packet.slice ipIhl 1))).toNat % 16

/-- The first byte behind the IP header of an ICMP message. -/
def icmpTypeOf (packet : Frame) : Option UInt8 :=
  if packet.slice ipProtocol 1 = [1] then
    some (.ofNat (Buffer.beNat (packet.slice (etherHdrSize + ihlOf packet * 4) 1)))
  else none

/-- An ICMP error: the destination is unreachable, or the time to live was exceeded. -/
def IsError (packet : Frame) : Prop := icmpTypeOf packet = some 3 ∨ icmpTypeOf packet = some 11

/-- An ICMP echo request. -/
def IsEchoRequest (packet : Frame) : Prop := icmpTypeOf packet = some 8

instance (packet : Frame) : Decidable (IsError packet) := inferInstanceAs (Decidable (_ ∨ _))

instance (packet : Frame) : Decidable (IsEchoRequest packet) := inferInstanceAs (Decidable (_ = _))

/-- An IPv4 frame whose header has at least the smallest length. -/
structure WellFormed (packet : Frame) : Prop where
  type : packet.readU16 etherType = .ok ethPIp
  ihl : 5 ≤ ihlOf packet

/-! ## Messages of the router's own -/

/-- The types of the messages that the router originates. -/
def OwnType (type : UInt8) : Prop := type = 0 ∨ type = 3 ∨ type = 11

/-- What the rest of the program can rely on in a message that `icmp_send_packet` builds. -/
structure IcmpMessage (src dst : UInt32) (type : UInt8) (q : Frame) : Prop where
  ihl : q.slice ipIhl 1 = [0x45]
  ttl : q.slice ipTtl 1 = [defaultTtl]
  protocol : q.slice ipProtocol 1 = [1]
  source : sourceOf q = src
  dest : destOf q = dst
  type : q.slice icmpHdr 1 = [type]

/-! ## What is submitted -/

/-- Why a message of a type is returned to the source of the frame `packet` that arrived on `iface`. -/
inductive ReplyReason (rtable : List RtEntry) (iface : Iface) (packet : Frame) : UInt8 → Prop where
  /-- The packet is addressed to the interface, whatever it is. -/
  | toIface (hd : destOf packet = iface.ip) : ReplyReason rtable iface packet 0
  /-- Its time to live is used up. -/
  | exceeded {ttl : UInt8} (hd : destOf packet ≠ iface.ip) (ht : packet.readU8 ipTtl = .ok ttl)
      (h1 : ttl.toNat ≤ 1) : ReplyReason rtable iface packet 11
  /-- There is no route to its destination. -/
  | unrouted (hd : destOf packet ≠ iface.ip) (hr : longestPrefixMatch rtable (destOf packet) = none) :
      ReplyReason rtable iface packet 3

/-- The type of the message that is returned for an IPv4 frame `packet` that arrived on `iface`, unless the
packet is forwarded. -/
def answerType (rtable : List RtEntry) (iface : Iface) (packet : Frame) : Option UInt8 :=
  if destOf packet = iface.ip then some 0
  else if (ttlOf packet).toNat ≤ 1 then some 11
  else if longestPrefixMatch rtable (destOf packet) = none then some 3
  else none

/-- What `handle_packet` submits for an IPv4 frame `packet` that arrived on `iface`: the next interface,
the next hop and the packet. The header changes of forwarding have been made. -/
inductive Submission (rtable : List RtEntry) (iface : Iface) (packet : Frame) :
    Iface → UInt32 → Frame → Prop where
  /-- The packet is forwarded. -/
  | forward {ttl : UInt8} {rt : RtEntry} {q : Frame} (ht : packet.readU8 ipTtl = .ok ttl)
      (h2 : 2 ≤ ttl.toNat) (hd : destOf packet ≠ iface.ip)
      (hr : longestPrefixMatch rtable (destOf packet) = some rt)
      (hq : forwardedPacket packet ttl = .ok q) :
      Submission rtable iface packet rt.iface (if rt.gw = 0 then destOf q else rt.gw) q
  /-- A message is returned to the packet's source. -/
  | reply {type : UInt8} {rt : RtEntry} {q : Frame} (ht : ReplyReason rtable iface packet type)
      (hr : longestPrefixMatch rtable (sourceOf packet) = some rt)
      (hq : IcmpMessage rt.iface.ip (sourceOf packet) type q) :
      Submission rtable iface packet rt.iface (sourceOf packet) q

/-- The interface and the next hop of what is submitted for `packet`, if anything is. -/
def nextHop (rtable : List RtEntry) (iface : Iface) (packet : Frame) : Option (Iface × UInt32) :=
  let back := (longestPrefixMatch rtable (sourceOf packet)).map fun rt => (rt.iface, sourceOf packet)
  if destOf packet = iface.ip ∨ (ttlOf packet).toNat ≤ 1 then back
  else
    match longestPrefixMatch rtable (destOf packet) with
    | some rt => some (rt.iface, if rt.gw = 0 then destOf packet else rt.gw)
    | none => back

/-- The frame `g` is the received frame `p`, with a header of `ihl` words, as the interface `out` forwards
it to the station `mac`. -/
structure Forwarded (p : Frame) (ihl : Nat) (out : Iface) (mac : Mac) (g : Frame) : Prop where
  length : g.length = p.length
  dhost : g.slice etherDhost ethAlen = mac.val
  shost : g.slice etherShost ethAlen = out.mac.val
  type : g.slice etherType 2 = Buffer.be16 ethPIp
  ttl : (ttlOf g).toNat + 1 = (ttlOf p).toNat
  checksum : checksum (g.slice etherHdrSize (ihl * 4)) 0 = .ok 0
  /-- The other bytes of the datagram. -/
  same : ∀ k, etherHdrSize ≤ k → k ≠ ipTtl → k ≠ ipCheck → k ≠ ipCheck + 1 → g[k]? = p[k]?

end StaticRouter
