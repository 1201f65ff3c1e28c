import StaticRouter.Icmp
import StaticRouter.Lib.Runs
import StaticRouter.Lib.SafeTraversal

/-!
# The sweep and the runs of a router

The body of the loop of `arpcache_sweep`, and the runs in which received frames and completed sweep
passes alternate in any order.
-/

namespace StaticRouter

open CMem

variable (rtable : List RtEntry)

/-- The node of the request list that a pointer leads to. -/
def Router.findReq (s : Router) (node : Nat) : Option ArpReq := s.reqList.find? (·.node = node)

/-- The nodes of the queue of a request. -/
def Router.queueNodes (node : Nat) (s : Router) : List Nat :=
  ((s.findReq node).map fun req => req.cachedPackets.map (·.tag)).getD []

/-- Change the request that a pointer leads to. -/
def Router.updateReq (node : Nat) (f : ArpReq → ArpReq) (s : Router) : Router :=
  { s with reqList := s.reqList.map fun req => if req.node = node then f req else req }

/-- `list_delete_entry` of a packet of the queue. -/
def ArpReq.deletePkt (tag : Nat) (req : ArpReq) : ArpReq :=
  { req with cachedPackets := req.cachedPackets.filter (·.tag ≠ tag) }

/-- The body of the inner loop of `arpcache_sweep`: report a packet to its source and unlink it. -/
def sweepPacket (node tag : Nat) (s : Router) : Except Fault Router :=
  match (s.findReq node).bind fun req => req.cachedPackets.find? (·.tag = tag) with
  | none => .error .outOfBounds
  | some pkt => do
    let s ← icmpSendPacket rtable pkt.packet 3 1 s
    .ok ((s.updateReq node (·.deletePkt tag)).log (.unreachable tag))

/-- The body of the outer loop of `arpcache_sweep`: give a request up after five retransmissions, or
repeat it if it was sent a second ago. -/
def sweepReq (fuel node : Nat) (s : Router) : Except Fault Router :=
  match s.findReq node with
  | none => .error .outOfBounds
  | some req =>
    if req.retries ≥ 5 then do
      let s ← forEachSafe (Router.queueNodes node) (sweepPacket rtable node) fuel s
      .ok ({ s with reqList := s.reqList.filter (·.node ≠ node) }.log (.dropped req.ip4))
    else
      if s.time.1 - req.sent ≥ 1 then
        let s := s.time.2.updateReq node fun req => { req with retries := req.retries + 1 }
        .ok (arpSendRequest req.iface req.ip4 s)
      else .ok s.time.2

/-- The first loop of `arpcache_sweep`. -/
def sweepTable (s : Router) : Router :=
  let r := tableExpire s.table s.env.clock
  { s with table := r.1, env := { s.env with clock := r.2 } }

/-- One pass of the body of the loop of `arpcache_sweep`; each of its list traversals stops after `fuel`
rounds. -/
def arpcacheSweep (fuel : Nat) (s : Router) : Except Fault Router :=
  forEachSafe (fun s => s.reqList.map (·.node)) (sweepReq rtable fuel) fuel (sweepTable s)

/-! ## Runs -/

/-- What happens next: a frame arrives, or a sweep pass is made; and what the surroundings hold ready
for it. -/
inductive Input where
  | frame (iface : Iface) (packet : Frame) (env : Env)
  | sweep (env : Env)

/-- A completed `handle_packet` or a completed sweep pass. -/
inductive Step : Input → Router → Router → Prop where
  | frame {iface : Iface} {packet : Frame} {env : Env} {s s' : Router}
      (h : handlePacket rtable iface packet { s with env := env } = .ok s') :
      Step (.frame iface packet env) s s'
  | sweep {fuel : Nat} {env : Env} {s s' : Router}
      (h : arpcacheSweep rtable fuel { s with env := env } = .ok s') : Step (.sweep env) s s'

/-- The states of the runs from `arpcache_init` in which every step satisfies `C` on the state before
it. -/
abbrev RunOf (C : Input → Router → Prop) : Router → Prop :=
  Runs.RunOf (fun s => ∃ env, s = arpcacheInit env) (Step rtable) C

/-- The reachable states. -/
abbrev Reachable : Router → Prop := RunOf rtable fun _ _ => True

/-- The states that further steps lead to. -/
abbrev Later : Router → Router → Prop := Runs.Later (Step rtable)

end StaticRouter
