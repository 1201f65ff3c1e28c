import Mathlib.Algebra.GroupWithZero.Nat
import StaticRouter.Netlink

/-!
# Loading the kernel's routes

`rtable_internal.c`: reading the route dump from the netlink socket, and parsing it.
-/

namespace StaticRouter

open CMem

/-! ## Interface names -/

/-- A name as the kernel gives it to an interface: with its terminator it fits 16 bytes. -/
structure IfName where
  bytes : List UInt8
  short : bytes.length < 16
  noNul : 0 ∉ bytes
  deriving DecidableEq

/-- The name as a C string. -/
def IfName.str (name : IfName) : Buffer := name.bytes ++ [0]

/-- `char if_name[16]` -/
structure NameBuf where
  bytes : Buffer
  length_eq : bytes.length = 16

/-- The string in the buffer: what stands before the first terminator. -/
def NameBuf.text (buf : NameBuf) : Buffer := buf.bytes.takeWhile (· ≠ 0)

/-- An interface of `instance->iface_list` with its name. -/
structure NamedIface where
  name : IfName
  iface : Iface

/-- `strcpy(if_name, name)`. -/
def NameBuf.strcpy (buf : NameBuf) (name : IfName) : NameBuf where
  bytes := buf.bytes.splice 0 name.str
  length_eq := by
    have hshort := name.short
    have hlen := buf.length_eq
    rw [Buffer.length_splice (by simp only [IfName.str, List.length_append, List.length_singleton]; omega), hlen]

/-- `strcmp(s, t) == 0`. -/
def strcmpEq : Buffer → Buffer → Except Fault Bool
  | a :: s, b :: t => if a ≠ b then .ok false else if a = 0 then .ok true else strcmpEq s t
  | _, _ => .error .outOfBounds

/-- `if_name_to_iface`. The name that is not found is printed, up to its terminator. -/
def ifNameToIface (ifName : NameBuf) : List NamedIface → Except Fault (Option Iface)
  | [] => if 0 ∈ ifName.bytes then .ok none else .error .outOfBounds
  | iface :: rest => do
    if ← strcmpEq iface.name.str ifName.bytes then return some iface.iface else ifNameToIface ifName rest

/-! ## `parse_routing_info` -/

/-- The variables of one message. -/
structure RouteVars where
  dest : UInt32
  mask : UInt32
  gw : UInt32
  ifName : NameBuf

section Parse

variable (ifIndexToName : Int32 → IfName) (ifaces : List NamedIface) (stack : Nat → NameBuf) (buf : Buffer)

/-- The body of the inner loop, for the attribute at `rtap` of the message whose `struct rtmsg` is at `rtp`. A
shift by 32 bits or more, which has no meaning in C, is here the one of the machine, by the count modulo 32. -/
def parseAttr (rtp rtap : Nat) (v : RouteVars) : Except Fault RouteVars := do
  let type ← buf.readLe16 (rtap + rtaType)
  if type = rtaDst then
    let dest ← buf.readU32 (rtap + rtattrSize)
    let dstLen ← buf.readU8 (rtp + rtmDstLen)
    return { v with dest := dest, mask := 0xFFFFFFFF <<< (32 - dstLen.toUInt32) }
  else if type = rtaGateway then
    let gw ← buf.readU32 (rtap + rtattrSize)
    return { v with gw := gw }
  else if type = rtaOif then
    let index ← buf.readLe32 (rtap + rtattrSize)
    return { v with ifName := v.ifName.strcpy (ifIndexToName index.toInt32) }
  else return v

/-- The body of the outer loop, for the message at `nlp`. The 16 bytes of `if_name` hold what the stack
happens to hold when the message is reached. The local `flags` is not kept: nothing reads it. -/
def parseMsg (nlp : Nat) (s : Nat × List RtEntry) : Except Fault (Nat × List RtEntry) := do
  let rtp := nlp + nlmsgHdrSize
  let table ← buf.readU8 (rtp + rtmTable)
  if table ≠ rtTableMain then return s
  else
    let nlmsgLen ← nlmsg.lengthAt buf nlp
    -- `RTM_PAYLOAD`
    let rtl : Int := nlmsgLen - (nlmsgHdrSize + rtmsgSize : Nat)
    let v ← rtattr.walk buf (parseAttr ifIndexToName buf rtp) nlmsgLen (rtp + rtmsgSize) rtl
      ⟨0, 0, 0, stack nlp⟩
    match ← ifNameToIface v.ifName ifaces with
    | some iface => return (s.1 + 1, addRtEntry (newRtEntry v.dest v.mask v.gw iface) s.2)
    | none => return s

/-- `parse_routing_info`: the number of entries, and the routing table with them. -/
def parseRoutingInfo (len : Nat) : Except Fault (Nat × List RtEntry) :=
  nlmsg.walk buf (parseMsg ifIndexToName ifaces stack buf) len 0 len (0, [])

end Parse

/-! ## What the messages say -/

section Meaning

variable (ifIndexToName : Int32 → IfName) (ifaces : List NamedIface)

/-- The address in the attribute of type `type`, 0 without one. -/
def RouteMsg.address (m : RouteMsg) (type : UInt16) : UInt32 := .ofNat (Buffer.beNat ((m.attr type).getD []))

/-- The name of the interface with the index `data`. -/
def oifName (data : Buffer) : IfName := ifIndexToName (UInt32.ofNat (Buffer.leNat data)).toInt32

/-- The entry that a message stands for: a route of the main table through an interface of the router. -/
def routeEntry (m : RouteMsg) : Option RtEntry :=
  if m.table = rtTableMain then do
    let oif ← m.attr rtaOif
    let named ← ifaces.find? fun i => i.name = oifName ifIndexToName oif
    return ⟨m.address rtaDst, prefixMask m.dstLen.toNat, m.address rtaGateway, named.iface⟩
  else none

/-- The table consists of the routes of the dump, in the order of the messages. -/
def LoadsRoutes (ms : List RouteMsg) (x : Except Fault (Nat × List RtEntry)) : Prop :=
  x = .ok ((ms.filterMap (routeEntry ifIndexToName ifaces)).length,
    ms.filterMap (routeEntry ifIndexToName ifaces))

/-- The network that the message is about contains the address: their first `dst_len` bits are the same. -/
def RouteMsg.Covers (dst : UInt32) (m : RouteMsg) : Prop :=
  (m.address rtaDst).toNat / 2 ^ (32 - m.dstLen.toNat) = dst.toNat / 2 ^ (32 - m.dstLen.toNat)

instance (dst : UInt32) (m : RouteMsg) : Decidable (m.Covers dst) := inferInstanceAs (Decidable (_ = _))

/-- Of the routes through the router's interfaces that contain the address, `m` is the last of the longest. -/
def RouteMsg.Wins (ms : List RouteMsg) (dst : UInt32) (m : RouteMsg) : Prop :=
  ∃ pre post, ms = pre ++ m :: post ∧ m.Covers dst ∧
    (∀ m' ∈ pre, (routeEntry ifIndexToName ifaces m').isSome → m'.Covers dst →
      m'.dstLen.toNat ≤ m.dstLen.toNat) ∧
    ∀ m' ∈ post, (routeEntry ifIndexToName ifaces m').isSome → m'.Covers dst →
      m'.dstLen.toNat < m.dstLen.toNat

/-- What an attribute of a message with the prefix length `dstLen` says about the variables. -/
def attrStep (dstLen : UInt8) (v : RouteVars) (a : RtAttr) : RouteVars :=
  if a.type = rtaDst then
    { v with dest := .ofNat (Buffer.beNat a.data), mask := 0xFFFFFFFF <<< (32 - dstLen.toUInt32) }
  else if a.type = rtaGateway then { v with gw := .ofNat (Buffer.beNat a.data) }
  else if a.type = rtaOif then { v with ifName := v.ifName.strcpy (oifName ifIndexToName a.data) }
  else v

/-- What a message does to the table if the stack holds `left` when it is reached. -/
def msgStep (left : NameBuf) (m : RouteMsg) (s : Nat × List RtEntry) : Except Fault (Nat × List RtEntry) :=
  if m.table ≠ rtTableMain then .ok s
  else do
    let v := m.attrs.foldl (attrStep ifIndexToName m.dstLen) ⟨0, 0, 0, left⟩
    match ← ifNameToIface v.ifName ifaces with
    | some iface => return (s.1 + 1, addRtEntry (newRtEntry v.dest v.mask v.gw iface) s.2)
    | none => return s

end Meaning

/-! ## `get_unparsed_route_info` -/

/-- How `get_unparsed_route_info` ends. -/
inductive DumpEnd where
  /-- It returns the number of bytes that it has put into the buffer. -/
  | returned (buf : Buffer) (len : Nat)
  /-- `exit(-1)`: the routing table is larger than the buffer. -/
  | tooLarge
  /-- `exit(-1)`: the kernel reports an error. -/
  | netlinkError
  /-- It waits in `recv` for a datagram that does not come. -/
  | waiting
  deriving DecidableEq

/-- The loop of `get_unparsed_route_info`, after the request has been sent: `recv` delivers the datagrams one by
one, each cut to the space that is left, or fails. -/
def getUnparsedLoop : List (Option Buffer) → Buffer → Nat → Nat → Except Fault DumpEnd
  | ds, buf, len, left => do
    if left < nlmsgHdrSize then return .tooLarge
    match ds with
    | [] => return .waiting
    | none :: _ => return .returned buf len
    | some d :: ds =>
      let got := d.take left
      if got.length = 0 then return .returned buf len
      let buf ← buf.write len got
      let type ← buf.readLe16 (len + nlmsgType)
      if type = nlmsgDone then return .returned buf len
      else if type = nlmsgError then return .netlinkError
      else getUnparsedLoop ds buf (len + got.length) (left - got.length)

/-- `get_unparsed_route_info` with the buffer `buf`. -/
def getUnparsedRouteInfo (ds : List (Option Buffer)) (buf : Buffer) : Except Fault DumpEnd :=
  getUnparsedLoop ds buf 0 buf.length

/-- `load_rtable_from_kernel`: the table, unless the program has exited or waits. -/
def loadRtableFromKernel (ifIndexToName : Int32 → IfName) (ifaces : List NamedIface) (stack : Nat → NameBuf)
    (ds : List (Option Buffer)) (buf : Buffer) : Except Fault (Option (Nat × List RtEntry)) := do
  match ← getUnparsedRouteInfo ds buf with
  | .returned buf len =>
    let loaded ← parseRoutingInfo ifIndexToName ifaces stack buf len
    return some loaded
  | _ => return none

/-- The last message of a dump. -/
structure IsDone (c : Buffer) : Prop where
  chunk : nlmsg.IsChunk c
  type_eq : c.readLe16 nlmsgType = .ok nlmsgDone

/-- A dump as the kernel sends it: datagrams of route messages, the last of which ends with `NLMSG_DONE`. -/
structure DumpStream where
  /-- The messages of each datagram before the last, and its bytes. -/
  before : List (List RouteMsg × Buffer)
  /-- The route messages of the last datagram. -/
  last : List RouteMsg
  lastBytes : Buffer
  done : Buffer
  before_nonempty : ∀ d ∈ before, d.1 ≠ []
  before_dump : ∀ d ∈ before, IsDump d.1 d.2 ∧ 4 ∣ d.2.length
  last_dump : IsDump last lastBytes ∧ 4 ∣ lastBytes.length
  isDone : IsDone done

namespace DumpStream

variable (s : DumpStream)

def datagrams : List Buffer := s.before.map (·.2) ++ [s.lastBytes ++ s.done]

/-- The route messages of the dump, in their order. -/
def routes : List RouteMsg := s.before.flatMap (·.1) ++ s.last

/-- The number of bytes that are sent. -/
def size : Nat := (s.datagrams.map List.length).sum

end DumpStream

/-- The reader has ended because the table is too large, or returns a buffer that holds the whole dump of the
routes `ms`. -/
def ReadsWhole (ms : List RouteMsg) (x : Except Fault DumpEnd) : Prop :=
  x = .ok .tooLarge ∨ ∃ buf len, x = .ok (.returned buf len) ∧ len ≤ buf.length ∧ IsDump ms (buf.take len)

namespace Sample

def eth0Name : IfName := ⟨[101, 116, 104, 48], by decide, by decide⟩
def eth1Name : IfName := ⟨[101, 116, 104, 49], by decide, by decide⟩

def ifIndexToName (index : Int32) : IfName := if index = 2 then eth0Name else eth1Name

/-- 10.0.1.1 and 10.0.2.1. -/
def managed : List NamedIface :=
  [⟨eth0Name, ⟨0, ⟨[2, 0, 0, 0, 0, 1], rfl⟩, 0x0a000101⟩⟩,
    ⟨eth1Name, ⟨1, ⟨[2, 0, 0, 0, 0, 2], rfl⟩, 0x0a000201⟩⟩]

/-- An `AF_INET` route. -/
def route (dstLen table kind : UInt8) (attrs : List RtAttr) : RouteMsg where
  nlmsgFlags := 2
  nlmsgSeq := 0
  nlmsgPid := 0
  family := 2
  dstLen := dstLen
  srcLen := 0
  tos := 0
  table := table
  protocol := 3
  scope := 0
  kind := kind
  flags := 0
  attrs := attrs

/-- The default route, through 10.0.1.254 on `eth0`. -/
def defaultRoute : RouteMsg :=
  route 0 254 1 [⟨4, Buffer.le32 2, by decide⟩, ⟨5, Buffer.be32 0x0a0001fe, by decide⟩]

/-- The unreachable network 10.9.0.0/16. -/
def unreachable : RouteMsg := route 16 254 7 [⟨1, Buffer.be32 0x0a090000, by decide⟩]

/-- A route to 10.0.2.0/24 on `eth1`, its destination behind the rest. -/
def connectedRoute : RouteMsg :=
  route 24 254 1
    [⟨4, Buffer.le32 3, by decide⟩, ⟨6, Buffer.le32 100, by decide⟩, ⟨1, Buffer.be32 0x0a000200, by decide⟩]

/-- A broadcast route of the table 255. -/
def localRoute : RouteMsg := route 32 255 3 [⟨1, Buffer.be32 0x0a0001ff, by decide⟩]

/-- A stack that holds a name. -/
def holding (name : IfName) : NameBuf := NameBuf.strcpy ⟨List.replicate 16 0, rfl⟩ name

end Sample

end StaticRouter
