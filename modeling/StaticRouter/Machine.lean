import StaticRouter.Emission
import StaticRouter.History
import StaticRouter.Lib.Heap

/-!
# The router on the heap

The same functions as they allocate and free: a packet is a block that its callee may free, a queue holds
blocks, and the structs of the request list and of the ARP table are blocks too. Every access goes through
the heap, so that a freed block cannot be read, written or freed again. `tag` and `node` are the names that
the router of `Arp` gives to the structs; nothing but the order of a queue depends on them.
-/

namespace StaticRouter

open CMem

/-- What a block was allocated for. -/
inductive Block where
  | packet (bytes : Frame)
  /-- `struct cached_pkt` -/
  | cachedPkt
  /-- `struct arp_req` -/
  | arpReq
  /-- The `struct arp_cache_entry` that `arpcache_insert` copies into the table. -/
  | cacheEntry

/-- A block that holds a packet. -/
def Block.isPacket : Block → Bool
  | .packet _ => true
  | _ => false

/-- A block that holds a `struct cached_pkt`. -/
def Block.isCachedPkt : Block → Bool
  | .cachedPkt => true
  | _ => false

/-- A block that holds a `struct arp_req`. -/
def Block.isArpReq : Block → Bool
  | .arpReq => true
  | _ => false

/-- A block that holds a `struct arp_cache_entry`. -/
def Block.isCacheEntry : Block → Bool
  | .cacheEntry => true
  | _ => false

/-- A `struct cached_pkt` at `addr`; `packet` is the pointer that it holds. -/
structure PktRef where
  tag : Nat
  addr : Nat
  packet : Nat

/-- A `struct arp_req` at `addr`. -/
structure ReqRef where
  node : Nat
  addr : Nat
  iface : Iface
  ip4 : UInt32
  sent : Int
  retries : Int
  cachedPackets : List PktRef

/-- A router and its heap. -/
structure Machine where
  table : ArpTable
  reqList : List ReqRef
  env : Env
  next : Nat
  trace : List Event
  heap : Heap Block

namespace Machine

/-! ## Memory -/

/-- `malloc`, together with what is written to the whole block right away. -/
def malloc (b : Block) (m : Machine) : Nat × Machine :=
  ((m.heap.malloc b).1, { m with heap := (m.heap.malloc b).2 })

/-- `malloc(n)` of a packet of which nothing is written yet. -/
def mallocBytes (n : Nat) (m : Machine) : Nat × Machine :=
  let r := m.malloc (.packet ((List.range n).map (m.env.heap 0)))
  (r.1, { r.2 with env := { m.env with heap := fun k => m.env.heap (k + 1) } })

/-- The bytes of a packet. -/
def load (packet : Nat) (m : Machine) : Except Fault Frame := do
  match ← m.heap.load packet with
  | .packet bytes => .ok bytes
  | _ => .error .outOfBounds

/-- The packet gets the bytes `bytes`. -/
def store (packet : Nat) (bytes : Frame) (m : Machine) : Except Fault Machine := do
  let heap ← m.heap.store packet (.packet bytes)
  .ok { m with heap := heap }

/-- A write into a packet. -/
def write (packet off : Nat) (bs : List UInt8) (m : Machine) : Except Fault Machine := do
  let bytes ← m.load packet
  let bytes ← bytes.write off bs
  m.store packet bytes

/-- `free` -/
def free (addr : Nat) (m : Machine) : Except Fault Machine := do
  let heap ← m.heap.free addr
  .ok { m with heap := heap }

def log (e : Event) (m : Machine) : Machine := { m with trace := m.trace ++ [e] }

/-- The next reading of `time`. -/
def time (m : Machine) : Int × Machine :=
  (m.env.clock 0, { m with env := { m.env with clock := m.env.clock.tail } })

/-- The next value of `rand`. -/
def rand (m : Machine) : UInt16 × Machine :=
  (m.env.rand 0, { m with env := { m.env with rand := fun n => m.env.rand (n + 1) } })

/-! ## `packet.c` and `arp.c` -/

/-- `iface_send_packet`: the packet is sent and freed. -/
def ifaceSendPacket (iface : Iface) (packet : Nat) (origin : Origin) (m : Machine) :
    Except Fault Machine := do
  let frame ← m.load packet
  (m.log (.sent iface frame origin)).free packet

/-- `arp_send_request` -/
def arpSendRequest (iface : Iface) (dstIp : UInt32) (m : Machine) : Except Fault Machine :=
  let packet := m.malloc
    (.packet (arpFrame broadcastMac iface.mac arpopRequest iface.mac iface.ip zeroMac dstIp))
  ifaceSendPacket iface packet.1 .arp packet.2

/-- The target hardware address of an ARP packet. -/
abbrev arpTha : Nat := etherHdrSize + 18

/-- `arp_send_reply`. The looked-up hardware address is written into the request, which is the packet at
`inPkt`. -/
def arpSendReply (iface : Iface) (inPkt : Nat) (req : EtherArp) (m : Machine) : Except Fault Machine :=
  let packet := m.malloc (.packet (arpFrame req.sha iface.mac arpopReply zeroMac req.tpa req.sha req.spa))
  if req.tpa = iface.ip then do
    let m ← packet.2.write packet.1 arpSha iface.mac.val
    ifaceSendPacket iface packet.1 .arp m
  else
    match arpcacheLookup m.table req.tpa with
    | some mac => do
      let m ← packet.2.write inPkt arpTha mac.val
      ifaceSendPacket iface packet.1 .arp m
    | none => packet.2.free packet.1

/-! ## `arpcache.c` -/

/-- The copy of a packet that a queue gets: a `struct cached_pkt` and a block with the packet's bytes. -/
def newPkt (packet tag : Nat) (m : Machine) : Except Fault (PktRef × Machine) := do
  let addr := m.malloc .cachedPkt
  let bytes ← addr.2.load packet
  let copy := addr.2.malloc (.packet bytes)
  .ok (⟨tag, addr.1, copy.1⟩, copy.2)

/-- The loop of `arpcache_append_packet`: every request for `ip4` gets a copy of the packet. -/
def appendToReqs (ip4 : UInt32) (packet tag : Nat) :
    List ReqRef → Machine → Except Fault (List ReqRef × Machine)
  | [], m => .ok ([], m)
  | ele :: rest, m =>
    if ele.ip4 = ip4 then do
      let pkt ← newPkt packet tag m
      let r ← appendToReqs ip4 packet tag rest pkt.2
      .ok ({ ele with cachedPackets := ele.cachedPackets ++ [pkt.1] } :: r.1, r.2)
    else do
      let r ← appendToReqs ip4 packet tag rest m
      .ok (ele :: r.1, r.2)

/-- `arpcache_append_packet`. The queue gets a copy; the packet itself is not freed. -/
def arpcacheAppendPacket (iface : Iface) (ip4 : UInt32) (packet tag : Nat) (m : Machine) :
    Except Fault Machine := do
  let m := m.log (.queued tag)
  let r ← appendToReqs ip4 packet tag m.reqList m
  let m := { r.2 with reqList := r.1 }
  if r.1.any (·.ip4 = ip4) then .ok m
  else
    let addr := m.malloc .arpReq
    let sent := addr.2.time
    let pkt ← newPkt packet tag sent.2
    let newReq : ReqRef := ⟨tag, addr.1, iface, ip4, sent.1, 0, [pkt.1]⟩
    let m := { pkt.2 with reqList := pkt.2.reqList ++ [newReq] }
    arpSendRequest iface ip4 (m.log (.opened ip4))

/-- `iface_send_packet_by_arp` -/
def ifaceSendPacketByArp (iface : Iface) (dstIp : UInt32) (packet : Nat) (m : Machine) :
    Except Fault Machine := do
  let tag := m.next
  let bytes ← m.load packet
  let m := { m.log (.submitted tag iface dstIp bytes) with next := tag + 1 }
  let m ← m.write packet etherShost iface.mac.val
  let m ← m.write packet etherType (Buffer.be16 ethPIp)
  match arpcacheLookup m.table dstIp with
  | some dstMac =>
    let m ← m.write packet etherDhost dstMac.val
    ifaceSendPacket iface packet (.direct tag) m
  | none => arpcacheAppendPacket iface dstIp packet tag m

/-- The inner loop of `arpcache_insert`. The structs are unlinked and not freed. -/
def flushPackets (iface : Iface) (ip4 : UInt32) (mac : Mac) :
    List PktRef → Machine → Except Fault Machine
  | [], m => .ok m
  | pkt :: rest, m => do
    let m ← m.write pkt.packet etherDhost mac.val
    let m ← ifaceSendPacket iface pkt.packet (.flush pkt.tag ip4) m
    flushPackets iface ip4 mac rest m

/-- The second loop of `arpcache_insert`. -/
def flushReqs (ip4 : UInt32) (mac : Mac) : List ReqRef → Machine → Except Fault Machine
  | [], m => .ok m
  | req :: rest, m =>
    if req.ip4 = ip4 then do
      let m ← flushPackets req.iface ip4 mac req.cachedPackets m
      flushReqs ip4 mac rest m
    else flushReqs ip4 mac rest m

/-- `arpcache_insert`. A new entry is allocated, copied into the table and not freed. -/
def arpcacheInsert (ip4 : UInt32) (mac : Mac) (m : Machine) : Except Fault Machine := do
  let m := if m.table.entries.any (·.ip4 = ip4) then m else (m.malloc .cacheEntry).2
  let r := tableInsert m.env.before ip4 mac m.table m.env.clock
  let m := { m with table := r.1, env := { m.env with clock := r.2 } }
  let m ← flushReqs ip4 mac m.reqList m
  .ok { m with reqList := m.reqList.filter (·.ip4 ≠ ip4) }

/-- `handle_arp_packet`. The ARP header is read in the packet before and after `arpcache_insert`. -/
def handleArpPacket (iface : Iface) (packet : Nat) (m : Machine) : Except Fault Machine := do
  let bytes ← m.load packet
  let ea ← readEtherArp bytes
  let m ← arpcacheInsert ea.spa ea.sha m
  let bytes ← m.load packet
  let ea ← readEtherArp bytes
  let m ← if ea.op = arpopRequest then arpSendReply iface packet ea m else .ok m
  m.free packet

/-! ## `icmp.c` and `ip_forwarding.c` -/

variable (rtable : List RtEntry)

/-- `icmp_send_packet` -/
def icmpSendPacket (inPkt : Nat) (type code : UInt8) (m : Machine) : Except Fault Machine := do
  let bytes ← m.load inPkt
  let ihl ← readIhl bytes
  let saddr ← bytes.readU32 ipSaddr
  match longestPrefixMatch rtable saddr with
  | none => .ok m
  | some rt =>
    if type = 0 then
      let buf := m.mallocBytes bytes.length
      let id := buf.2.rand
      let fresh ← id.2.load buf.1
      let packet ← icmpEchoReply fresh bytes ihl rt.iface.ip saddr code id.1
      let m ← id.2.store buf.1 packet
      ifaceSendPacketByArp rt.iface saddr buf.1 (m.log (.originated type code saddr))
    else if type = 3 ∨ type = 11 then
      let buf := m.mallocBytes icmpErrorLen
      let id := buf.2.rand
      let fresh ← id.2.load buf.1
      let packet ← icmpError fresh bytes rt.iface.ip saddr type code id.1
      let m ← id.2.store buf.1 packet
      ifaceSendPacketByArp rt.iface saddr buf.1 (m.log (.originated type code saddr))
    else if type = 8 then .error .outOfBounds
    else .ok m

/-- `ip_forward_packet`. A packet that is forwarded is left to `iface_send_packet_by_arp`. -/
def ipForwardPacket (ipDst : UInt32) (packet : Nat) (m : Machine) : Except Fault Machine := do
  let bytes ← m.load packet
  let ttl ← bytes.readU8 ipTtl
  if (ttl.toNat : Int) - 1 ≤ 0 then
    let m ← icmpSendPacket rtable packet 11 0 m
    m.free packet
  else
    match longestPrefixMatch rtable ipDst with
    | some rt =>
      let bytes ← forwardedPacket bytes ttl
      let m ← m.store packet bytes
      let daddr ← bytes.readU32 ipDaddr
      ifaceSendPacketByArp rt.iface (if rt.gw = 0 then daddr else rt.gw) packet m
    | none =>
      let m ← icmpSendPacket rtable packet 3 0 m
      m.free packet

/-- `handle_ip_packet` -/
def handleIpPacket (iface : Iface) (packet : Nat) (m : Machine) : Except Fault Machine := do
  let bytes ← m.load packet
  let daddr ← bytes.readU32 ipDaddr
  if daddr = iface.ip then
    let m ← icmpSendPacket rtable packet 0 0 m
    m.free packet
  else ipForwardPacket rtable daddr packet m

/-- `handle_packet`. A packet of a type that is not known is not freed. -/
def handlePacket (iface : Iface) (packet : Nat) (m : Machine) : Except Fault Machine := do
  let bytes ← m.load packet
  let type ← bytes.readU16 etherType
  if type = ethPIp then handleIpPacket rtable iface packet m
  else if type = ethPArp then handleArpPacket iface packet m
  else .ok m

/-- `ustack_run` for one frame: it is copied into a block of its own, which `handle_packet` is given. -/
def receive (iface : Iface) (frame : Frame) (m : Machine) : Except Fault Machine :=
  let packet := m.malloc (.packet frame)
  handlePacket rtable iface packet.1 packet.2

/-! ## The sweep -/

def findReq (m : Machine) (node : Nat) : Option ReqRef := m.reqList.find? (·.node = node)

def queueNodes (node : Nat) (m : Machine) : List Nat :=
  ((m.findReq node).map fun req => req.cachedPackets.map (·.tag)).getD []

def updateReq (node : Nat) (f : ReqRef → ReqRef) (m : Machine) : Machine :=
  { m with reqList := m.reqList.map fun req => if req.node = node then f req else req }

/-- `list_delete_entry` of a packet of the queue. -/
def deletePkt (tag : Nat) (req : ReqRef) : ReqRef :=
  { req with cachedPackets := req.cachedPackets.filter (·.tag ≠ tag) }

/-- The body of the inner loop of `arpcache_sweep`. Neither the struct nor its packet is freed. -/
def sweepPacket (node tag : Nat) (m : Machine) : Except Fault Machine :=
  match (m.findReq node).bind fun req => req.cachedPackets.find? (·.tag = tag) with
  | none => .error .outOfBounds
  | some pkt => do
    let m ← icmpSendPacket rtable pkt.packet 3 1 m
    .ok ((m.updateReq node (deletePkt tag)).log (.unreachable tag))

/-- The body of the outer loop of `arpcache_sweep`. -/
def sweepReq (fuel node : Nat) (m : Machine) : Except Fault Machine :=
  match m.findReq node with
  | none => .error .outOfBounds
  | some req =>
    if req.retries ≥ 5 then do
      let m ← forEachSafe (queueNodes node) (sweepPacket rtable node) fuel m
      .ok ({ m with reqList := m.reqList.filter (·.node ≠ node) }.log (.dropped req.ip4))
    else
      if m.time.1 - req.sent ≥ 1 then
        arpSendRequest req.iface req.ip4
          (m.time.2.updateReq node fun req => { req with retries := req.retries + 1 })
      else .ok m.time.2

/-- The first loop of `arpcache_sweep`. -/
def sweepTable (m : Machine) : Machine :=
  let r := tableExpire m.table m.env.clock
  { m with table := r.1, env := { m.env with clock := r.2 } }

/-- One pass of the body of the loop of `arpcache_sweep`. -/
def arpcacheSweep (fuel : Nat) (m : Machine) : Except Fault Machine :=
  forEachSafe (fun m => m.reqList.map (·.node)) (sweepReq rtable fuel) fuel (sweepTable m)

/-! ## `arpcache_destroy` -/

/-- The inner loop of `arpcache_destroy`. The node is unlinked before its struct is freed. -/
def destroyPackets : List PktRef → Machine → Except Fault Machine
  | [], m => .ok m
  | pkt :: rest, m => do
    let m ← m.free pkt.packet
    let m ← m.free pkt.addr
    destroyPackets rest m

/-- The outer loop of `arpcache_destroy`. -/
def destroyReqs : List ReqRef → Machine → Except Fault Machine
  | [], m => .ok m
  | req :: rest, m => do
    let m ← destroyPackets req.cachedPackets m
    let m ← m.free req.addr
    destroyReqs rest m

/-- How a call ends: it returns, or the process ends in it. -/
inductive Ended where
  | returned (m : Machine)
  | killed (m : Machine)

/-- `pthread_kill(arpcache.thread, SIGTERM)`. The program has no handler for the signal, which therefore ends the
process and not only the thread. -/
def killThread (m : Machine) : Ended := .killed m

/-- `arpcache_destroy`. The unlocking behind the signal is not reached. -/
def arpcacheDestroy (m : Machine) : Except Fault Ended := do
  let m ← destroyReqs m.reqList m
  .ok (killThread { m with reqList := [] })

/-! ## Runs -/

/-- A frame that has been received and handled, or a completed sweep pass. -/
inductive Step : Input → Machine → Machine → Prop where
  | frame {iface : Iface} {packet : Frame} {env : Env} {m m' : Machine}
      (h : receive rtable iface packet { m with env := env } = .ok m') :
      Step (.frame iface packet env) m m'
  | sweep {fuel : Nat} {env : Env} {m m' : Machine}
      (h : arpcacheSweep rtable fuel { m with env := env } = .ok m') : Step (.sweep env) m m'

/-- The next step of the run, with traversals of at most `fuel` rounds. -/
def doInput (fuel : Nat) (m : Machine) : Input → Except Fault Machine
  | .frame iface packet env => receive rtable iface packet { m with env := env }
  | .sweep env => arpcacheSweep rtable fuel { m with env := env }

/-- The state after `arpcache_init`. -/
def init (env : Env) : Machine := ⟨ArpTable.zero, [], env, 0, [], Heap.empty⟩

/-- The machine after the inputs `is`. -/
def Run (is : List Input) (m : Machine) : Prop :=
  ∃ env, Runs.Steps (Step rtable) (fun _ _ => True) is (init env) m

end Machine

/-! ## What a machine stands for -/

/-- The struct and its packet are live, and the packet is that of `p`. -/
structure PktRef.Holds (h : Heap Block) (r : PktRef) (p : CachedPkt) : Prop where
  tag : r.tag = p.tag
  struct : h.get r.addr = some .cachedPkt
  packet : h.get r.packet = some (.packet p.packet)

/-- The struct is live, and the request is `q`. -/
structure ReqRef.Holds (h : Heap Block) (r : ReqRef) (q : ArpReq) : Prop where
  node : r.node = q.node
  iface : r.iface = q.iface
  ip4 : r.ip4 = q.ip4
  sent : r.sent = q.sent
  retries : r.retries = q.retries
  struct : h.get r.addr = some .arpReq
  queue : List.Forall₂ (PktRef.Holds h) r.cachedPackets q.cachedPackets

/-- The blocks of a struct and of its packet. -/
def PktRef.blocks (r : PktRef) : List Nat := [r.addr, r.packet]

/-- The blocks of a request and of its queue. -/
def ReqRef.blocks (r : ReqRef) : List Nat := r.addr :: r.cachedPackets.flatMap PktRef.blocks

/-- The lists `refs` stand for `reqs`. They and the packets `held`, which are in use, have blocks of their
own. -/
structure Owns (h : Heap Block) (refs : List ReqRef) (reqs : List ArpReq) (held : List (Nat × Frame)) :
    Prop where
  queues : List.Forall₂ (ReqRef.Holds h) refs reqs
  live : ∀ x ∈ held, h.get x.1 = some (.packet x.2)
  apart : (held.map (·.1) ++ refs.flatMap ReqRef.blocks).Nodup

/-- The addresses for which an `arp_req` was created. -/
def openings (tr : List Event) : List UInt32 :=
  tr.filterMap fun
    | .opened ip4 => some ip4
    | _ => none

/-- How many blocks are live after the history `tr`: for every packet that was queued the packet itself and
its copy, unless `arpcache_insert` has sent the copy, and the struct; for every request its struct. Another
`extra` packets are live, and the `entries` structs from which slots of the ARP table were filled. -/
structure Balance (h : Heap Block) (tr : List Event) (extra entries : Nat) : Prop where
  packets : h.count Block.isPacket + (flushes tr).length = 2 * (queuedTags tr).length + extra
  cachedPkts : h.count Block.isCachedPkt = (queuedTags tr).length
  arpReqs : h.count Block.isArpReq = (openings tr).length
  cacheEntries : h.count Block.isCacheEntry = entries

namespace Machine

/-- The machine stands for the router, but for the list of requests: there it has the requests `refs`, which
stand for `reqs`. -/
structure Rep (refs : List ReqRef) (reqs : List ArpReq) (held : List (Nat × Frame)) (extra entries : Nat)
    (m : Machine) (s : Router) : Prop where
  table : m.table = s.table
  env : m.env = s.env
  next : m.next = s.next
  trace : m.trace = s.trace
  owns : Owns m.heap refs reqs held
  balance : Balance m.heap m.trace extra entries
  ip4s : (reqs.map (·.ip4)).Nodup

/-- The machine stands for the router, while the packets `held` are in use. -/
def Shows (held : List (Nat × Frame)) (extra entries : Nat) (m : Machine) (s : Router) : Prop :=
  Rep m.reqList s.reqList held extra entries m s

/-- The machine stands for the router: the table and the history are the same, and what is on the lists is live
and holds the packets that wait. -/
structure StandsFor (m : Machine) (s : Router) : Prop where
  table : m.table = s.table
  trace : m.trace = s.trace
  queues : List.Forall₂ (ReqRef.Holds m.heap) m.reqList s.reqList

/-- The blocks on the lists. -/
def linked (m : Machine) : List Nat := m.reqList.flatMap ReqRef.blocks

end Machine

/-- A frame of a type that `handle_packet` does not know. -/
def Input.isStray : Input → Bool
  | .frame _ packet _ => packet.readU16 etherType ≠ .ok ethPIp ∧ packet.readU16 etherType ≠ .ok ethPArp
  | .sweep _ => false

/-- The addresses for which `handle_arp_packet` calls `arpcache_insert`. -/
def learned (is : List Input) : List UInt32 := (is.filterMap told).map (·.1)

/-- The addresses in the slots. -/
def ArpTable.ip4s (table : ArpTable) : List UInt32 := table.entries.map (·.ip4)

/-- The addresses in the slots after an insertion of `ip4`. -/
def learnSlots (slots : List UInt32) (ip4 : UInt32) : List UInt32 :=
  if ip4 ∈ slots then slots else ip4 :: slots.take (maxArpSize - 1)

/-- How many of the insertions of `ip4s` find their address in none of the slots, which carry `slots` at first. -/
def newEntries (slots : List UInt32) : List UInt32 → Nat
  | [] => 0
  | ip4 :: rest => (if ip4 ∈ slots then 0 else 1) + newEntries (learnSlots slots ip4) rest

end StaticRouter
