import Mathlib.Data.List.Infix
import StaticRouter.Replay
import StaticRouter.RouteDump

/-!
# The user stack

`main.c`: the interfaces that the program serves, and the loop that takes frames from their sockets and hands
them to `handle_packet`. The descriptors, and what arrives in the sockets, are the kernel's.
-/

namespace StaticRouter

open CMem

/-! ## Finding the interfaces -/

/-- `AF_PACKET` -/
abbrev afPacket : Nat := 17

/-- What `find_available_ifaces` reads of a `struct ifaddrs`: the family of its address, if it has one, and its
name. -/
structure IfAddrs where
  family : Option Nat
  name : IfName

/-- `strstr(name, "-eth") != NULL`, for an `AF_PACKET` address. -/
def IfAddrs.isEth (addr : IfAddrs) : Bool :=
  addr.family = some afPacket ∧ [45, 101, 116, 104] <:+: addr.name.bytes

/-- `iface_info_t` -/
structure IfaceInfo where
  name : IfName
  fd : Int
  index : Nat
  mac : Mac
  ip : UInt32
  mask : UInt32

/-- What the router reads of it. -/
def IfaceInfo.iface (info : IfaceInfo) : Iface := ⟨info.index, info.mac, info.ip⟩

/-- What `if_name_to_iface` reads of it. -/
def IfaceInfo.named (info : IfaceInfo) : NamedIface := ⟨info.name, info.iface⟩

/-- `struct pollfd`: whether `POLLIN` is asked for, and whether it was reported. -/
structure PollFd where
  fd : Int
  events : Bool
  revents : Bool
  deriving DecidableEq

/-- `ustack_t` -/
structure UStack where
  ifaceList : List IfaceInfo
  nifs : Nat
  fds : List PollFd

/-- Why a function does not return. -/
inductive Stop where
  /-- The program has exited. -/
  | exit
  /-- `load_rtable_from_kernel` has exited or waits. -/
  | noRoutes
  | fault (f : Fault)

/-- An access to memory, which may be a fault. -/
def orFault {α : Type} : Except Fault α → Except Stop α
  | .ok a => .ok a
  | .error f => .error (.fault f)

/-- The family of a socket. -/
inductive Family where
  /-- `AF_PACKET` -/
  | packet
  /-- `AF_INET` -/
  | inet

/-- What the kernel answers while `init_ustack` runs, and what `ifr` holds where an answer is missing and nobody
looks. What it says of an interface does not change meanwhile. -/
structure Kernel where
  /-- Whether the allocation with this number succeeds, of those that `init_ustack` makes. -/
  malloc : Nat → Bool
  /-- The descriptor of a new socket, while those in the list are open. -/
  socket : Family → List Int → Option Int
  socket_new : ∀ family opened fd, socket family opened = some fd → 0 ≤ fd ∧ fd ∉ opened
  /-- `SIOCGIFINDEX` -/
  ifIndex : IfName → Option Nat
  bind : Nat → Bool
  /-- `SIOCGIFHWADDR` -/
  hwAddr : IfName → Option Mac
  /-- `SIOCGIFADDR` -/
  addr : IfName → Option UInt32
  /-- `SIOCGIFNETMASK` -/
  netmask : IfName → Option UInt32
  ifr : IfName → Nat × Mac

namespace Kernel

variable (k : Kernel)

/-- `malloc` with the `bzero` that follows it everywhere; the result is not looked at in between. -/
def mallocZero (number : Nat) : Except Fault Unit := if k.malloc number then .ok () else .error .outOfBounds

/-- The first loop of `find_available_ifaces`. The interfaces are the allocations from the second on. -/
def findIfaces : List IfAddrs → UStack → Except Fault UStack
  | [], u => .ok u
  | addr :: rest, u =>
    if addr.isEth then do
      k.mallocZero (u.nifs + 1)
      findIfaces rest { u with
        ifaceList := u.ifaceList ++ [⟨addr.name, 0, 0, zeroMac, 0, 0⟩]
        nifs := u.nifs + 1 }
    else findIfaces rest u

end Kernel

/-- The second loop of `find_available_ifaces`: each name is printed behind the `off` characters that are in
`dev_names[1024]`, with a blank in front and a terminator behind it. -/
def printNames : List IfaceInfo → Nat → Except Fault Nat
  | [], off => .ok off
  | iface :: rest, off =>
    if off + (1 + iface.name.bytes.length + 1) ≤ 1024 then printNames rest (off + (1 + iface.name.bytes.length))
    else .error .outOfBounds

namespace Kernel

/-- `find_available_ifaces`. A failure of `getifaddrs` is not noticed; it leaves an empty list. -/
def findAvailableIfaces (k : Kernel) (addrs : Option (List IfAddrs)) : Except Stop UStack := do
  let u ← orFault (k.findIfaces (addrs.getD []) ⟨[], 0, []⟩)
  if u.nifs = 0 then .error .exit
  else do
    let _ ← orFault (printNames u.ifaceList 0)
    return u

end Kernel

/-! ## Reading their addresses -/

namespace Kernel

variable (k : Kernel)

/-- `socket`: the descriptor, or -1, and those that are open then. -/
def openSocket (family : Family) (opened : List Int) : Int × List Int :=
  match k.socket family opened with
  | none => (-1, opened)
  | some sd => (sd, sd :: opened)

/-- An `ioctl` on a descriptor. There is none below 0. -/
def ioctl {α : Type} (fd : Int) (answer : Option α) : Option α := if fd < 0 then none else answer

/-- `open_device`. The socket stays open when it is of no use. -/
def openDevice (dname : IfName) (opened : List Int) : Int × List Int :=
  let sd := k.openSocket .packet opened
  match ioctl sd.1 (k.ifIndex dname) with
  | none => (-1, sd.2)
  | some index => if k.bind index ∧ (ioctl sd.1 (k.hwAddr dname)).isSome then sd else (-1, sd.2)

/-- `read_iface_info`. The socket `s` is not closed. -/
def readIfaceInfo (iface : IfaceInfo) (opened : List Int) : Except Stop (IfaceInfo × List Int) :=
  let fd := k.openDevice iface.name opened
  let s := k.openSocket .inet fd.2
  let index := (ioctl s.1 (k.ifIndex iface.name)).getD (k.ifr iface.name).1
  let mac := (ioctl s.1 (k.hwAddr iface.name)).getD (k.ifr iface.name).2
  match ioctl fd.1 (k.addr iface.name) with
  | none => .error .exit
  | some ip =>
    match ioctl fd.1 (k.netmask iface.name) with
    | none => .error .exit
    | some mask => .ok (⟨iface.name, fd.1, index, mac, ip, mask⟩, s.2)

/-- The loop of `init_all_ifaces`, from the interface with the number `i` on: what it makes of the interfaces and
of the array. -/
def initIfaces : List IfaceInfo → Nat → List PollFd → List Int →
    Except Stop (List IfaceInfo × List PollFd)
  | [], _, fds, _ => .ok ([], fds)
  | iface :: rest, i, fds, opened => do
    let info ← k.readIfaceInfo iface opened
    if i < fds.length then
      let r ← initIfaces rest (i + 1) (fds.set i ⟨info.1.fd, true, false⟩) info.2
      return (info.1 :: r.1, r.2)
    else .error (.fault .outOfBounds)

/-- `init_all_ifaces`; the descriptors `opened` are open before. -/
def initAllIfaces (addrs : Option (List IfAddrs)) (opened : List Int) : Except Stop UStack := do
  let u ← k.findAvailableIfaces addrs
  orFault (k.mallocZero (u.nifs + 1))
  let r ← k.initIfaces u.ifaceList 0 (List.replicate u.nifs ⟨0, false, false⟩) opened
  return ⟨r.1, u.nifs, r.2⟩

end Kernel

/-- `fd_to_iface` -/
def fdToIface (fd : Int) : List IfaceInfo → Option IfaceInfo
  | [] => none
  | iface :: rest => if iface.fd = fd then some iface else fdToIface fd rest

/-- `init_ustack`: the stack, the routing table and the cache. -/
def initUstack (k : Kernel) (addrs : Option (List IfAddrs)) (opened : List Int)
    (ifIndexToName : Int32 → IfName) (stack : Nat → NameBuf) (ds : List (Option Buffer)) (buf : Buffer)
    (env : Env) : Except Stop (UStack × List RtEntry × Router) := do
  orFault (k.mallocZero 0)
  let u ← k.initAllIfaces addrs opened
  let router := arpcacheInit env
  match ← orFault (loadRtableFromKernel ifIndexToName (u.ifaceList.map (·.named)) stack ds buf) with
  | none => .error .noRoutes
  | some loaded => return (u, loaded.2, router)

/-! ## What is expected of the interfaces -/

/-- The names of the interfaces that `find_available_ifaces` takes. -/
def ethNames (addrs : List IfAddrs) : List IfName := (addrs.filter IfAddrs.isEth).map (·.name)

/-- The characters that the names take, each with a blank. -/
def namesLength (names : List IfName) : Nat := (names.map fun n => 1 + n.bytes.length).sum

namespace Kernel

variable (k : Kernel)

/-- The descriptors that are open after `read_iface_info` has been called `n` times: two more for each call, but
for those that the kernel did not give. -/
def openedAfter : Nat → List Int → List Int
  | 0, opened => opened
  | n + 1, opened => openedAfter n (k.openSocket .inet (k.openSocket .packet opened).2).2

/-- What `read_iface_info` needs for the interface `name`, when the descriptors `opened` are open: a socket for the
device, its index, with which the socket can be bound, and its three addresses. -/
structure Serves (opened : List Int) (name : IfName) : Prop where
  socket : k.socket .packet opened ≠ none
  bind : ∃ index, k.ifIndex name = some index ∧ k.bind index = true
  hwAddr : k.hwAddr name ≠ none
  addr : k.addr name ≠ none
  netmask : k.netmask name ≠ none

/-- Something that `find_available_ifaces` and `init_all_ifaces` do for the interfaces `names` does not fit into
memory: an allocation, or the list of the names. -/
def LacksMemory (names : List IfName) : Prop :=
  (∃ i ≤ names.length, k.malloc (i + 1) = false) ∨ 1024 ≤ namesLength names

/-- What is known about an interface that was read while the descriptors `opened` were open. Its index and its
hardware address are asked for on a second socket, which may be missing. -/
structure HasRead (opened : List Int) (info : IfaceInfo) : Prop where
  fd : k.socket .packet opened = some info.fd
  ip : k.addr info.name = some info.ip
  mask : k.netmask info.name = some info.mask
  index : k.socket .inet (info.fd :: opened) ≠ none → k.ifIndex info.name = some info.index
  mac : k.socket .inet (info.fd :: opened) ≠ none → k.hwAddr info.name = some info.mac
  stale : k.socket .inet (info.fd :: opened) = none → k.ifr info.name = (info.index, info.mac)

end Kernel

/-- What `init_all_ifaces` returns. -/
structure Served (k : Kernel) (opened : List Int) (u : UStack) : Prop where
  nonempty : u.ifaceList ≠ []
  nifs : u.nifs = u.ifaceList.length
  fds : u.fds = u.ifaceList.map fun i => ⟨i.fd, true, false⟩
  nodup : (u.ifaceList.map (·.fd)).Nodup
  answers : ∀ n i, u.ifaceList[n]? = some i → k.HasRead (k.openedAfter n opened) i
  read : ∀ i ∈ u.ifaceList, 0 ≤ i.fd ∧ i.fd ∉ opened ∧ fdToIface i.fd u.ifaceList = some i

/-! ## The loop -/

/-- A frame in a socket, and whether `sll_pkttype` is `PACKET_OUTGOING`. -/
structure RawPacket where
  outgoing : Bool
  bytes : Buffer
  deriving DecidableEq

/-- What `recvfrom` copies into `buf`. -/
def RawPacket.buf (p : RawPacket) : Frame := p.bytes.take ethFrameLen

/-- A frame that `ustack_run` does not pass over: `len` is positive and it is not outgoing. -/
def RawPacket.counts (p : RawPacket) : Bool := p.buf.length ≠ 0 ∧ p.outgoing = false

/-- What becomes of a frame that is taken from a socket. -/
inductive Fate where
  /-- `handle_packet` gets it. -/
  | handled (iface : Iface) (env : Env)
  /-- There is no memory for it. -/
  | lost
  /-- It is empty, or outgoing. -/
  | ignored

/-- An entry of the ghost history of the loop. -/
inductive LoopEvent where
  | arrived (fd : Int) (p : RawPacket)
  | taken (fd : Int) (p : RawPacket) (fate : Fate)
  | swept (env : Env)

/-- The state of the program in `ustack_run`; `log` is a ghost. -/
structure Loop where
  router : Router
  fds : List PollFd
  /-- What is in the sockets, by their descriptors. -/
  sockets : Int → List RawPacket
  /-- The counter of the inner loop, or `none` while `poll` waits. -/
  pos : Option Nat
  log : List LoopEvent

/-- What happens next. -/
inductive LoopInput where
  /-- A frame arrives. -/
  | arrive (fd : Int) (p : RawPacket)
  /-- `poll` returns. `error` tells whether a descriptor reports another event than `POLLIN`. -/
  | poll (error : Bool)
  /-- One round of the inner loop. `received` tells whether `recvfrom` succeeds, `allocated` whether `malloc`
  does. -/
  | turn (received allocated : Bool) (env : Env)
  /-- The other thread makes a sweep pass. -/
  | sweep (env : Env)

namespace LoopInput

/-- A return of `poll`. -/
def isPoll : LoopInput → Bool
  | .poll _ => true
  | _ => false

/-- A round of the inner loop, or its end. -/
def isTurn : LoopInput → Bool
  | .turn .. => true
  | _ => false

/-- No `recvfrom` fails. -/
def Receives : LoopInput → Prop
  | .turn received _ _ => received = true
  | _ => True

instance (x : LoopInput) : Decidable x.Receives :=
  match x with
  | .turn received _ _ => inferInstanceAs (Decidable (received = true))
  | .arrive .. | .poll _ | .sweep _ => .isTrue trivial

end LoopInput

section Loop

variable (u : UStack) (rtable : List RtEntry)

/-- The kernel puts a frame into a socket. -/
def Loop.arrive (fd : Int) (p : RawPacket) (s : Loop) : Loop :=
  { s with
    sockets := Function.update s.sockets fd (s.sockets fd ++ [p])
    log := s.log ++ [.arrived fd p] }

/-- `POLLIN` holds for a socket that was asked about and has a frame. -/
def PollFd.poll (sockets : Int → List RawPacket) (pfd : PollFd) : PollFd :=
  { pfd with revents := pfd.events && !(sockets pfd.fd).isEmpty }

/-- `poll(instance->fds, instance->nifs, -1)`: it waits until a descriptor has an event. -/
def Loop.poll (error : Bool) (s : Loop) : Option Loop :=
  let fds := (s.fds.take u.nifs).map (PollFd.poll s.sockets) ++ s.fds.drop u.nifs
  if error || (fds.take u.nifs).any (·.revents) then some { s with fds := fds, pos := some 0 } else none

/-- What `ustack_run` does with a frame from the socket `fd`. -/
def Loop.take (fd : Int) (p : RawPacket) (allocated : Bool) (env : Env) (s : Loop) : Except Fault Loop :=
  if p.buf.length = 0 ∨ p.outgoing then .ok { s with log := s.log ++ [.taken fd p .ignored] }
  else
    match fdToIface fd u.ifaceList with
    | none => .error .outOfBounds
    | some iface =>
      if allocated then do
        let router ← handlePacket rtable iface.iface p.buf { s.router with env := env }
        return { s with router := router, log := s.log ++ [.taken fd p (.handled iface.iface env)] }
      else .ok { s with log := s.log ++ [.taken fd p .lost] }

/-- One round of the inner loop at `i`, or the end of that loop. It is `none` when `recvfrom` waits. -/
def Loop.turn (i : Nat) (received allocated : Bool) (env : Env) (s : Loop) : Except Fault (Option Loop) :=
  if i < u.nifs then
    match s.fds[i]? with
    | none => .error .outOfBounds
    | some pfd =>
      let s := { s with pos := some (i + 1) }
      if pfd.revents then
        if received then
          match s.sockets pfd.fd with
          | [] => .ok none
          | p :: rest =>
            (Loop.take u rtable pfd.fd p allocated env
              { s with sockets := Function.update s.sockets pfd.fd rest }).map some
        else .ok (some s)
      else .ok (some s)
  else .ok (some { s with pos := none })

/-- The sweep of the other thread. -/
def Loop.sweep (fuel : Nat) (env : Env) (s : Loop) : Except Fault Loop := do
  let router ← arpcacheSweep rtable fuel { s.router with env := env }
  return { s with router := router, log := s.log ++ [.swept env] }

/-- A completed step of the program. A `poll` that fails ends it. -/
inductive Loop.Step : LoopInput → Loop → Loop → Prop where
  | arrive (fd : Int) (p : RawPacket) (s : Loop) : Step (.arrive fd p) s (s.arrive fd p)
  | poll {error : Bool} {s s' : Loop} (hpos : s.pos = none) (h : s.poll u error = some s') :
      Step (.poll error) s s'
  | turn {i : Nat} {received allocated : Bool} {env : Env} {s s' : Loop} (hpos : s.pos = some i)
      (h : s.turn u rtable i received allocated env = .ok (some s')) : Step (.turn received allocated env) s s'
  | sweep {fuel : Nat} {env : Env} {s s' : Loop} (h : s.sweep rtable fuel env = .ok s') :
      Step (.sweep env) s s'

/-- The state in which `ustack_run` is entered. -/
def Loop.start (router : Router) : Loop := ⟨router, u.fds, fun _ => [], none, []⟩

/-- The states of `ustack_run`, entered after `init_ustack` with an empty cache. -/
abbrev Loop.Reached : Loop → Prop :=
  Runs.RunOf (fun s => ∃ env, s = Loop.start u (arpcacheInit env)) (Loop.Step u rtable) fun _ _ => True

end Loop

/-! ## What the history tells -/

/-- The frames that arrived in the socket. -/
def arrivals (fd : Int) (log : List LoopEvent) : List RawPacket :=
  log.filterMap fun
    | .arrived fd' p => if fd' = fd then some p else none
    | _ => none

/-- The frames that were taken from the socket. -/
def takings (fd : Int) (log : List LoopEvent) : List RawPacket :=
  log.filterMap fun
    | .taken fd' p _ => if fd' = fd then some p else none
    | _ => none

/-- The frames of the socket that got past the checks, each with the interface for which it was handled, unless
there was no memory for it. -/
def passed (fd : Int) (log : List LoopEvent) : List (Frame × Option Iface) :=
  log.filterMap fun
    | .taken fd' p (.handled iface _) => if fd' = fd then some (p.buf, some iface) else none
    | .taken fd' p .lost => if fd' = fd then some (p.buf, none) else none
    | _ => none

/-- What the router was given. -/
def routerInputs (log : List LoopEvent) : List Input :=
  log.filterMap fun
    | .taken _ p (.handled iface env) => some (.frame iface p.buf env)
    | .swept env => some (.sweep env)
    | _ => none

/-! ## Replaying runs -/

section Replay

variable (u : UStack) (rtable : List RtEntry)

/-- The state after the step, if it is completed. -/
def Loop.exec (fuel : Nat) (x : LoopInput) (s : Loop) : Option Loop :=
  match x with
  | .arrive fd p => some (s.arrive fd p)
  | .poll error => if s.pos = none then s.poll u error else none
  | .turn received allocated env =>
    s.pos.bind fun i => (s.turn u rtable i received allocated env).toOption.join
  | .sweep env => (s.sweep rtable fuel env).toOption

variable {u rtable}

theorem Loop.Step.of_exec {fuel : Nat} (x : LoopInput) (s s' : Loop) (h : Loop.exec u rtable fuel x s = some s') :
    Loop.Step u rtable x s s' := by
  cases x with
  | arrive fd p =>
    obtain rfl := Option.some.inj h
    exact .arrive fd p s
  | poll error =>
    rw [Loop.exec] at h
    split_ifs at h with hpos
    exact .poll hpos h
  | turn received allocated env =>
    obtain ⟨i, hpos, h⟩ := Option.bind_eq_some_iff.mp h
    exact .turn hpos (toOption_eq_some.mp (Option.join_eq_some_iff.mp h))
  | sweep env => exact .sweep (toOption_eq_some.mp h)

end Replay

namespace Sample

/-- r1-eth0 -/
def r1Eth0 : IfName := ⟨[114, 49, 45, 101, 116, 104, 48], by decide, by decide⟩

/-- r1-eth1 -/
def r1Eth1 : IfName := ⟨[114, 49, 45, 101, 116, 104, 49], by decide, by decide⟩

/-- The loopback device, two interfaces, and the IPv4 address of the first. -/
def ifAddrs : List IfAddrs :=
  [⟨some afPacket, ⟨[108, 111], by decide, by decide⟩⟩, ⟨some afPacket, r1Eth0⟩, ⟨some afPacket, r1Eth1⟩,
    ⟨some 2, r1Eth0⟩]

/-- A kernel that gives out the lowest descriptor. -/
def kernel : Kernel where
  malloc _ := true
  socket _ opened := ((List.range (opened.length + 1)).map Int.ofNat).find? fun fd => 0 ≤ fd ∧ fd ∉ opened
  socket_new _ opened fd h := by simpa using List.find?_some h
  ifIndex name := some (if name = r1Eth0 then 0 else 1)
  bind _ := true
  hwAddr name := some (if name = r1Eth0 then station 1 else station 2)
  addr name := some (if name = r1Eth0 then 0x0a000101 else 0x0a000201)
  netmask _ := some 0xffffff00
  ifr _ := (0, zeroMac)

/-- The two interfaces. The descriptors 4 and 6 belong to the sockets that `read_iface_info` leaves open. -/
def ustack : UStack :=
  ⟨[⟨r1Eth0, 3, 0, station 1, 0x0a000101, 0xffffff00⟩, ⟨r1Eth1, 5, 1, station 2, 0x0a000201, 0xffffff00⟩], 2,
    [⟨3, true, false⟩, ⟨5, true, false⟩]⟩

/-- Two frames have arrived on the first interface and one on the second. -/
def waitingLoop : Loop :=
  let p : RawPacket := ⟨false, udp 0x0a000102 0x0a000202 64⟩
  (((Loop.start ustack (arpcacheInit (clockAt 0))).arrive 3 p).arrive 3 p).arrive 5 p

/-- `poll` returns, and the inner loop is run. -/
def oneRound : List LoopInput := .poll false :: List.replicate 3 (.turn true true (clockAt 0))

theorem initAllIfaces_kernel : kernel.initAllIfaces (some ifAddrs) [0, 1, 2] = .ok ustack := by rfl

end Sample

end StaticRouter
