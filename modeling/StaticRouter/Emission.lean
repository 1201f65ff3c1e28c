import StaticRouter.Messages
import StaticRouter.Sweep

/-!
# What leaves the router

Where its frames go and what is in them, over whole runs: the hardware address that the ARP packets have told
last, the headers of the IPv4 packets that are submitted, and the ARP frames that the router makes.
-/

namespace StaticRouter

open CMem

/-! ## What was told -/

/-- The mapping that an ARP packet tells, whether it is a request or a reply. -/
def told : Input → Option (UInt32 × Mac)
  | .frame _ packet _ =>
    if packet.readU16 etherType = .ok ethPArp then do
      let spa ← (packet.readU32 arpSpa).toOption
      let sha ← (readMac packet arpSha).toOption
      return (spa, sha)
    else none
  | .sweep _ => none

/-- The hardware address that was told last for `ip4`. -/
def lastTold (is : List Input) (ip4 : UInt32) : Option Mac :=
  ((is.filterMap told).reverse.find? (·.1 = ip4)).map (·.2)

/-- What the table answers with is what was told last. -/
def ArpTable.FollowsTold (is : List Input) (t : ArpTable) : Prop :=
  ∀ e ∈ t.entries, e.valid = true → lastTold is e.ip4 = some e.mac

/-! ## What is made -/

/-- A packet that goes out: it is long enough for an IP header, which leaves it some time to live, and which
verifies where its length field does not say less than that of a header; and it takes the interface of the route
to its destination, to the gateway of that route or to the destination itself. -/
structure Outgoing (rtable : List RtEntry) (iface : Iface) (dst : UInt32) (q : Frame) : Prop where
  long : etherHdrSize + iphdrSize ≤ q.length
  alive : 1 ≤ (ttlOf q).toNat
  header : 5 ≤ ihlOf q → checksum (q.slice etherHdrSize (ihlOf q * 4)) 0 = .ok 0
  route : ∃ rt, longestPrefixMatch rtable (destOf q) = some rt ∧ rt.iface = iface ∧
    (dst = destOf q ∨ rt.gw ≠ 0 ∧ dst = rt.gw)

/-- An ARP frame of the interface: a request for all stations with the interface's own addresses, or a reply
to one station. -/
def ArpOf (iface : Iface) (frame : Frame) : Prop :=
  (∃ ip4, frame = arpFrame broadcastMac iface.mac arpopRequest iface.mac iface.ip zeroMac ip4) ∨
    ∃ sha spa tha tpa, frame = arpFrame tha iface.mac arpopReply sha spa tha tpa

/-- A frame that leaves through `out`: one of ARP, or a packet that was submitted, in an Ethernet frame of
IPv4. -/
def Emitted (rtable : List RtEntry) (tr : List Event) (out : Iface) (g : Frame) : Origin → Prop
  | .arp => ArpOf out g
  | .direct n | .flush n _ => g.readU16 etherType = .ok ethPIp ∧
      ∃ iface d q, .submitted n iface d q ∈ tr ∧ Outgoing rtable iface d g

end StaticRouter
