import StaticRouter.ArpTable

/-!
# Sending through the ARP cache

`packet.c`, `arp.c` and the request list of `arpcache.c`. The state also records, as a ghost history,
what was submitted, queued, sent and given up; no function reads it. The n-th submission to
`iface_send_packet_by_arp` has the number `n`; it names the list nodes that the submission allocates as
their addresses do in the program, which frees none of them.
-/

namespace StaticRouter

open CMem

/-- What the program gets from its surroundings: the readings of `time`, the values of `rand`, the
contents of fresh `malloc` buffers, and the bytes in front of the ARP table. -/
structure Env where
  clock : Clock
  rand : Nat → UInt16
  heap : Nat → Nat → UInt8
  before : ArpCacheEntry

/-- A packet that waits for a hardware address (`struct cached_pkt`). -/
structure CachedPkt where
  tag : Nat
  packet : Frame
  deriving DecidableEq, Repr

/-- A pending ARP request and its queue of packets (`struct arp_req`). -/
structure ArpReq where
  node : Nat
  iface : Iface
  ip4 : UInt32
  sent : Int
  retries : Int
  cachedPackets : List CachedPkt
  deriving DecidableEq, Repr

/-- The call of `iface_send_packet` that sent a frame. -/
inductive Origin where
  /-- An ARP request or reply. -/
  | arp
  /-- `iface_send_packet_by_arp`, on a cache hit. -/
  | direct (tag : Nat)
  /-- `arpcache_insert` of the address `ip4`. -/
  | flush (tag : Nat) (ip4 : UInt32)
  deriving DecidableEq, Repr

/-- The submission that a frame belongs to. -/
def Origin.tag? : Origin → Option Nat
  | .arp => none
  | .direct tag => some tag
  | .flush tag _ => some tag

/-- An entry of the ghost history. -/
inductive Event where
  /-- `iface_send_packet_by_arp(iface, dst, packet)` was called. -/
  | submitted (tag : Nat) (iface : Iface) (dst : UInt32) (packet : Frame)
  /-- `arpcache_append_packet` was called. -/
  | queued (tag : Nat)
  /-- An `arp_req` was created. -/
  | opened (ip4 : UInt32)
  /-- `iface_send_packet(iface, frame)` was called. -/
  | sent (iface : Iface) (frame : Frame) (origin : Origin)
  /-- The sweep called `icmp_send_packet` with type 3 and code 1 for a packet and unlinked it. -/
  | unreachable (tag : Nat)
  /-- The sweep unlinked an `arp_req`. -/
  | dropped (ip4 : UInt32)
  /-- `icmp_send_packet` built a message for `dst`. -/
  | originated (type code : UInt8) (dst : UInt32)
  deriving DecidableEq, Repr

/-- The state of a router: `arpcache`, its surroundings and the ghost history. -/
structure Router where
  table : ArpTable
  reqList : List ArpReq
  env : Env
  next : Nat
  trace : List Event

namespace Router

def log (e : Event) (s : Router) : Router := { s with trace := s.trace ++ [e] }

/-- The next reading of `time`. -/
def time (s : Router) : Int × Router :=
  (s.env.clock 0, { s with env := { s.env with clock := s.env.clock.tail } })

/-- The next value of `rand`. -/
def rand (s : Router) : UInt16 × Router :=
  (s.env.rand 0, { s with env := { s.env with rand := fun n => s.env.rand (n + 1) } })

/-- `malloc(n)`: a buffer of `n` unspecified bytes. -/
def malloc (n : Nat) (s : Router) : Buffer × Router :=
  ((List.range n).map (s.env.heap 0),
    { s with env := { s.env with heap := fun k => s.env.heap (k + 1) } })

end Router

/-- `arpcache_init`. -/
def arpcacheInit (env : Env) : Router := ⟨ArpTable.zero, [], env, 0, []⟩

/-! ## `packet.c` -/

/-- `iface_send_packet`. -/
def ifaceSendPacket (iface : Iface) (frame : Frame) (origin : Origin) (s : Router) : Router :=
  s.log (.sent iface frame origin)

/-! ## Sending ARP packets -/

/-- The address that every station on the link receives. -/
def broadcastMac : Mac := ⟨List.replicate ethAlen 0xff, rfl⟩

/-- An Ethernet header and a `struct ether_arp` behind it, field by field. -/
def arpFrame (dhost shost : Mac) (op : UInt16) (sha : Mac) (spa : UInt32) (tha : Mac) (tpa : UInt32) :
    Frame :=
  dhost.val ++ shost.val ++ Buffer.be16 ethPArp ++
    (Buffer.be16 1 ++ Buffer.be16 0x0800 ++ [6, 4] ++ Buffer.be16 op ++
      sha.val ++ Buffer.be32 spa ++ tha.val ++ Buffer.be32 tpa)

/-- `arp_send_request`. -/
def arpSendRequest (iface : Iface) (dstIp : UInt32) (s : Router) : Router :=
  ifaceSendPacket iface
    (arpFrame broadcastMac iface.mac arpopRequest iface.mac iface.ip zeroMac dstIp) .arp s

/-- The fields of a received ARP packet that the handlers use. -/
structure EtherArp where
  op : UInt16
  sha : Mac
  spa : UInt32
  tpa : UInt32
  deriving DecidableEq, Repr

/-- `arp_send_reply`. For an address found in the cache the looked-up hardware address goes to the
target field of the request, and the sender field of the reply keeps its zero bytes. -/
def arpSendReply (iface : Iface) (req : EtherArp) (s : Router) : Router :=
  if req.tpa = iface.ip then
    ifaceSendPacket iface
      (arpFrame req.sha iface.mac arpopReply iface.mac req.tpa req.sha req.spa) .arp s
  else
    match arpcacheLookup s.table req.tpa with
    | some _ =>
      ifaceSendPacket iface
        (arpFrame req.sha iface.mac arpopReply zeroMac req.tpa req.sha req.spa) .arp s
    | none => s

/-! ## The request list -/

/-- The packet `packet` at the tail of the queue of `ele`. -/
def ArpReq.append (ele : ArpReq) (packet : CachedPkt) : ArpReq :=
  { ele with cachedPackets := ele.cachedPackets ++ [packet] }

/-- `arpcache_append_packet`. Requests are compared by their address only. -/
def arpcacheAppendPacket (iface : Iface) (ip4 : UInt32) (packet : Frame) (tag : Nat) (s : Router) :
    Router :=
  let s := s.log (.queued tag)
  if s.reqList.any (·.ip4 = ip4) then
    { s with reqList := s.reqList.map fun ele => if ele.ip4 = ip4 then ele.append ⟨tag, packet⟩ else ele }
  else
    let newReq : ArpReq := ⟨tag, iface, ip4, s.time.1, 0, [⟨tag, packet⟩]⟩
    let s := { s.time.2 with reqList := s.reqList ++ [newReq] }
    arpSendRequest iface ip4 (s.log (.opened ip4))

/-- `iface_send_packet_by_arp`. -/
def ifaceSendPacketByArp (iface : Iface) (dstIp : UInt32) (packet : Frame) (s : Router) :
    Except Fault Router := do
  let tag := s.next
  let s := { s.log (.submitted tag iface dstIp packet) with next := tag + 1 }
  let packet ← packet.write etherShost iface.mac.val
  let packet ← packet.write etherType (Buffer.be16 ethPIp)
  match arpcacheLookup s.table dstIp with
  | some dstMac =>
    let packet ← packet.write etherDhost dstMac.val
    .ok (ifaceSendPacket iface packet (.direct tag) s)
  | none => .ok (arpcacheAppendPacket iface dstIp packet tag s)

/-! ## Learning a mapping -/

/-- The inner loop of `arpcache_insert`: fill in the address and send the packets of one request. -/
def flushPackets (iface : Iface) (ip4 : UInt32) (mac : Mac) :
    List CachedPkt → Router → Except Fault Router
  | [], s => .ok s
  | pkt :: rest, s => do
    let frame ← pkt.packet.write etherDhost mac.val
    flushPackets iface ip4 mac rest (ifaceSendPacket iface frame (.flush pkt.tag ip4) s)

/-- The second loop of `arpcache_insert`: send the packets of every request for `ip4`. The body only
unlinks the current nodes, so the loop goes through the list once. -/
def flushReqs (ip4 : UInt32) (mac : Mac) : List ArpReq → Router → Except Fault Router
  | [], s => .ok s
  | req :: rest, s =>
    if req.ip4 = ip4 then do
      let s ← flushPackets req.iface ip4 mac req.cachedPackets s
      flushReqs ip4 mac rest s
    else flushReqs ip4 mac rest s

/-- `arpcache_insert`. -/
def arpcacheInsert (ip4 : UInt32) (mac : Mac) (s : Router) : Except Fault Router := do
  let r := tableInsert s.env.before ip4 mac s.table s.env.clock
  let s := { s with table := r.1, env := { s.env with clock := r.2 } }
  let s ← flushReqs ip4 mac s.reqList s
  .ok { s with reqList := s.reqList.filter (·.ip4 ≠ ip4) }

/-- The ARP header behind the Ethernet header, its fields converted to host order. -/
def readEtherArp (packet : Frame) : Except Fault EtherArp := do
  let op ← packet.readU16 arpOp
  let tpa ← packet.readU32 arpTpa
  let spa ← packet.readU32 arpSpa
  let sha ← readMac packet arpSha
  .ok ⟨op, sha, spa, tpa⟩

/-- `handle_arp_packet`. -/
def handleArpPacket (iface : Iface) (packet : Frame) (s : Router) : Except Fault Router := do
  let ea ← readEtherArp packet
  let s ← arpcacheInsert ea.spa ea.sha s
  if ea.op = arpopRequest then .ok (arpSendReply iface ea s) else .ok s

end StaticRouter
