import Mathlib.Algebra.Group.Nat.Defs
import StaticRouter.Arp
import StaticRouter.Ip

/-!
# ICMP messages and forwarding

`icmp.c` and `ip_forwarding.c`.
-/

namespace StaticRouter

open CMem

/-- Subtraction of `size_t` values. -/
def sizeSub (a b : Nat) : Nat := (a + 2 ^ 64 - b) % 2 ^ 64

/-- The offset of the ICMP header behind an IP header without options. -/
abbrev icmpHdr : Nat := etherHdrSize + iphdrSize

/-- `icmp_checksum` of `len` bytes with the checksum field zeroed; the field is put back. -/
def icmpChecksum (packet : Frame) (len : Nat) : Except Fault UInt16 := do
  let icmp ← packet.write (icmpHdr + 2) [0, 0]
  let bytes ← icmp.read icmpHdr len
  checksum bytes 0

/-- Case 0 of `icmp_send_packet`: fill the fresh buffer `packet` with the echo reply to `inPkt`. -/
def icmpEchoReply (packet inPkt : Frame) (ihl : Nat) (src dst : UInt32) (code : UInt8) (id : UInt16) :
    Except Fault Frame := do
  let len := inPkt.length
  let packet ← ipInitHdr packet src dst (.ofNat (sizeSub len etherHdrSize)) 1 id
  let packet ← packet.write icmpHdr [0, code]
  let idSeq ← inPkt.read (etherHdrSize + ihl * 4 + 4) 4
  let packet ← packet.write (icmpHdr + 4) idSeq
  let data ← inPkt.read (etherHdrSize + ihl * 4 + icmphdrSize)
    (sizeSub len (etherHdrSize + ihl * 4 + icmphdrSize))
  let packet ← packet.write (icmpHdr + icmphdrSize) data
  let sum ← icmpChecksum packet (sizeSub len icmpHdr)
  packet.write (icmpHdr + 2) (Buffer.le16 sum)

/-- The length of the packets of cases 3 and 11. -/
abbrev icmpErrorLen : Nat := etherHdrSize + iphdrSize + icmphdrSize + iphdrSize + 8

/-- Cases 3 and 11 of `icmp_send_packet`: fill the fresh buffer `packet` with an error about `inPkt`. -/
def icmpError (packet inPkt : Frame) (src dst : UInt32) (type code : UInt8) (id : UInt16) :
    Except Fault Frame := do
  let packet ← ipInitHdr packet src dst (.ofNat (icmpErrorLen - etherHdrSize)) 1 id
  let packet ← packet.write icmpHdr [type, code]
  let quoted ← inPkt.read etherHdrSize (iphdrSize + 8)
  let packet ← packet.write (icmpHdr + icmphdrSize) quoted
  let sum ← icmpChecksum packet (icmpErrorLen - icmpHdr)
  packet.write (icmpHdr + 2) (Buffer.le16 sum)

/-- `icmp_send_packet`. In case 8 the packet pointer is not initialised. -/
def icmpSendPacket (rtable : List RtEntry) (inPkt : Frame) (type code : UInt8) (s : Router) :
    Except Fault Router := do
  let ihl ← readIhl inPkt
  let saddr ← inPkt.readU32 ipSaddr
  match longestPrefixMatch rtable saddr with
  | none => .ok s
  | some rt =>
    if type = 0 then
      let buf := s.malloc inPkt.length
      let id := buf.2.rand
      let packet ← icmpEchoReply buf.1 inPkt ihl rt.iface.ip saddr code id.1
      ifaceSendPacketByArp rt.iface saddr packet (id.2.log (.originated type code saddr))
    else if type = 3 ∨ type = 11 then
      let buf := s.malloc icmpErrorLen
      let id := buf.2.rand
      let packet ← icmpError buf.1 inPkt rt.iface.ip saddr type code id.1
      ifaceSendPacketByArp rt.iface saddr packet (id.2.log (.originated type code saddr))
    else if type = 8 then .error .outOfBounds
    else .ok s

/-! ## Forwarding -/

/-- The header changes of `ip_forward_packet`: one hop less to live, and a new checksum. -/
def forwardedPacket (packet : Frame) (ttl : UInt8) : Except Fault Frame := do
  let packet ← packet.write ipTtl [ttl - 1]
  let sum ← ipChecksum packet
  packet.write ipCheck (Buffer.le16 sum)

/-- `ip_forward_packet`. -/
def ipForwardPacket (rtable : List RtEntry) (ipDst : UInt32) (packet : Frame) (s : Router) :
    Except Fault Router := do
  let ttl ← packet.readU8 ipTtl
  if (ttl.toNat : Int) - 1 ≤ 0 then
    icmpSendPacket rtable packet 11 0 s
  else
    match longestPrefixMatch rtable ipDst with
    | some rt =>
      let packet ← forwardedPacket packet ttl
      let daddr ← packet.readU32 ipDaddr
      ifaceSendPacketByArp rt.iface (if rt.gw = 0 then daddr else rt.gw) packet s
    | none => icmpSendPacket rtable packet 3 0 s

/-- `handle_ip_packet`. -/
def handleIpPacket (rtable : List RtEntry) (iface : Iface) (packet : Frame) (s : Router) :
    Except Fault Router := do
  let daddr ← packet.readU32 ipDaddr
  if daddr = iface.ip then icmpSendPacket rtable packet 0 0 s
  else ipForwardPacket rtable daddr packet s

/-- `handle_packet`. -/
def handlePacket (rtable : List RtEntry) (iface : Iface) (packet : Frame) (s : Router) :
    Except Fault Router := do
  let type ← packet.readU16 etherType
  if type = ethPIp then handleIpPacket rtable iface packet s
  else if type = ethPArp then handleArpPacket iface packet s
  else .ok s

end StaticRouter
