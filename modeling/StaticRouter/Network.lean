import Mathlib.Data.Multiset.Bind
import Mathlib.Logic.Function.Basic
import StaticRouter.History
import StaticRouter.Replay
import StaticRouter.Submission

/-!
# Networks of routers

Any number of routers with any routing tables, joined in any way. The next hops are in the caches and no
sweep is made, so every received packet causes at most one transmission; what it sends is on its way to
the stations it reaches, which receive it in any order.
-/

namespace StaticRouter

open CMem

/-! ## The network -/

/-- A frame that arrives at an interface of a router. -/
structure Arrival (ι : Type) where
  router : ι
  iface : Iface
  frame : Frame

/-- The routing tables of the routers, and the interfaces that a frame sent on an interface reaches. -/
structure Network (ι : Type) where
  rtable : ι → List RtEntry
  reach : ι → Iface → Frame → Multiset (ι × Iface)

/-- The routers and the frames on their way. -/
structure NetState (ι : Type) where
  router : ι → Router
  flight : Multiset (Arrival ι)

/-- The frames that the router sent between two states, with their interfaces. -/
def sentSince (s s' : Router) : List (Iface × Frame) :=
  (transmissions (s'.trace.drop s.trace.length)).map fun x => (x.1, x.2.1)

namespace Network

variable {ι : Type} (N : Network ι)

/-- The arrivals of a frame that router `i` sends. -/
def arrivals (i : ι) (sent : Iface × Frame) : Multiset (Arrival ι) :=
  (N.reach i sent.1 sent.2).map fun dest => ⟨dest.1, dest.2, sent.2⟩

/-- One of the frames is received. The mapping of its next hop is valid. -/
inductive Step [DecidableEq ι] : Arrival ι × Env → NetState ι → NetState ι → Prop where
  | receive {a : Arrival ι} {env : Env} {s : NetState ι} {rest : Multiset (Arrival ι)} {r : Router}
      (hin : s.flight = a ::ₘ rest)
      (hknown : ∀ out dst, nextHop (N.rtable a.router) a.iface a.frame = some (out, dst) →
        arpcacheLookup (s.router a.router).table dst ≠ none)
      (h : handlePacket (N.rtable a.router) a.iface a.frame { s.router a.router with env := env } = .ok r) :
      Step (a, env) s ⟨Function.update s.router a.router r,
        rest + (sentSince (s.router a.router) r : Multiset (Iface × Frame)).bind (N.arrivals a.router)⟩

/-- The router returns a message of type `type` to the source of the arriving packet. -/
def Returns (a : Arrival ι) (type : UInt8) : Prop :=
  ReplyReason (N.rtable a.router) a.iface a.frame type ∧
    longestPrefixMatch (N.rtable a.router) (sourceOf a.frame) ≠ none

/-- The router reports an error about an error message. -/
def ErrorAboutError (a : Arrival ι) : Prop := IsError a.frame ∧ ∃ type, type ≠ 0 ∧ N.Returns a type

/-- The router answers a packet that is not an echo request with an echo reply. -/
def StrayReply (a : Arrival ι) : Prop := ¬ IsEchoRequest a.frame ∧ N.Returns a 0

end Network

namespace Sample

/-- A cache that knows one station. -/
def knowing (ip4 : UInt32) (mac : Mac) : ArpTable :=
  (tableInsert zeroEntry ip4 mac ArpTable.zero fun _ => 0).1

/-- Two routers; each sends on its interface `out` to the interface `inn` of the other, where it finds the
network of the other's interface `out`. -/
def pair (out inn : Bool → Iface) : Network Bool where
  rtable b := [⟨(out !b).ip &&& 0xffffff00, 0xffffff00, 0, out b⟩]
  reach b _ _ := {(!b, inn !b)}

/-- A frame is on its way to router `false`; the next hops are in the caches. -/
def start (out inn : Bool → Iface) (frame : Frame) : NetState Bool where
  router b := { arpcacheInit (clockAt 0) with table := knowing (out !b).ip (inn !b).mac }
  flight := {⟨false, inn false, frame⟩}

/-- 10.0.1.1 and 10.0.2.2. -/
def outward : Bool → Iface
  | false => eth0
  | true => ⟨1, station 4, 0x0a000202⟩

/-- 10.0.2.1 and 10.0.1.2. -/
def inward : Bool → Iface
  | false => eth1
  | true => ⟨0, station 3, 0x0a000102⟩

/-- 10.0.1.1 and 10.0.1.2. -/
def oneLink : Bool → Iface
  | false => outward false
  | true => inward true

end Sample

end StaticRouter
