import StaticRouter.Messages
import StaticRouter.Network

/-!
# Forwarding through a network

The routers of a network in any run: frames of any kind arrive anywhere, whether a host or another router
has sent them, and sweep passes are made at any time. A ghost log records which receptions led to a
packet being forwarded, so that the way of a packet can be followed from router to router.
-/

namespace StaticRouter

open CMem

/-! ## Runs -/

/-- The number under which a packet was submitted between two states without a message having been
built: the packet was forwarded. -/
def forwardedSince (s s' : Router) : Option Nat :=
  if originatedSince s s' = [] then (submittedSince s s').head?.map (·.1) else none

/-- What a router does about the packet `p`, which has reached it with its time to live used up: on the interface
of its route to the source of `p` it submits a report of type 11 for that source, which is accepted there and
quotes `p` but for the time to live and the header checksum. Without such a route it submits nothing. -/
structure ReportsExpiry (rtable : List RtEntry) (p : Frame) (s s' : Router) : Prop where
  unrouted : longestPrefixMatch rtable (sourceOf p) = none → submittedSince s s' = []
  routed : ∀ rt, longestPrefixMatch rtable (sourceOf p) = some rt →
    ∃ q, submittedSince s s' = [(s.next, rt.iface, sourceOf p, q)] ∧
      IcmpMessage rt.iface.ip (sourceOf p) 11 q ∧ Consistent q ∧
      ∀ b < iphdrSize + 8, b ≠ 8 → b ≠ 10 → b ≠ 11 → (icmpData q)[b]? = p[etherHdrSize + b]?

/-- A frame that a router has received, and the number under which it was forwarded, if it was. -/
structure Reception (ι : Type) extends Arrival ι where
  forwarded : Option Nat

/-- The routers, and what they have received. -/
structure RelayState (ι : Type) where
  router : ι → Router
  log : List (Reception ι)

/-- What happens next in the network. -/
inductive RelayInput (ι : Type) where
  /-- A frame arrives; a router may have sent it, or a host. -/
  | receive (a : Arrival ι) (env : Env)
  /-- A router makes a sweep pass. -/
  | sweep (i : ι) (env : Env)

/-- The frame is sent, or waits, under the number `n`. -/
def Carries (s : Router) (n : Nat) (frame : Frame) : Prop :=
  (∃ out o, .sent out frame o ∈ s.trace ∧ o.tag? = some n) ∨
    ∃ r ∈ s.reqList, ∃ p ∈ r.cachedPackets, p.tag = n ∧ p.packet = frame

/-- The routers made the frame `g` of the frame `p` in `n` forwardings, the packet waiting where it had to:
each time a router received the one frame and sent the next for it. -/
inductive RelayState.Travels {ι : Type} (S : RelayState ι) : Frame → Nat → Frame → Prop where
  | here (p : Frame) : Travels S p 0 p
  | hop {x : Reception ι} {m n : Nat} {out : Iface} {o : Origin} {q g : Frame} (hx : x ∈ S.log)
      (hm : x.forwarded = some m) (hs : .sent out q o ∈ (S.router x.router).trace) (ho : o.tag? = some m)
      (h : Travels S q n g) : Travels S x.frame (n + 1) g

namespace Network

variable {ι : Type} (N : Network ι)

/-- A completed step of one of the routers. -/
inductive RelayStep [DecidableEq ι] : RelayInput ι → RelayState ι → RelayState ι → Prop where
  | receive {a : Arrival ι} {env : Env} {S : RelayState ι} {r : Router}
      (h : handlePacket (N.rtable a.router) a.iface a.frame { S.router a.router with env := env } = .ok r) :
      RelayStep (.receive a env) S ⟨Function.update S.router a.router r,
        S.log ++ [{ a with forwarded := forwardedSince (S.router a.router) r }]⟩
  | sweep {i : ι} {fuel : Nat} {env : Env} {S : RelayState ι} {r : Router}
      (h : arpcacheSweep (N.rtable i) fuel { S.router i with env := env } = .ok r) :
      RelayStep (.sweep i env) S ⟨Function.update S.router i r, S.log⟩

/-- The states of the runs from empty caches. -/
abbrev RelayRun [DecidableEq ι] : RelayState ι → Prop :=
  Runs.RunOf (fun S => (∀ i, ∃ env, S.router i = arpcacheInit env) ∧ S.log = []) N.RelayStep
    fun _ _ => True

/-! ## The way of a packet -/

/-- The packet of the reception `x` was forwarded, and what was sent for it, at once or from the queue, is
the frame that `y` received. -/
def Link (S : RelayState ι) (x y : Reception ι) : Prop :=
  ∃ n out o, x.forwarded = some n ∧ .sent out y.frame o ∈ (S.router x.router).trace ∧ o.tag? = some n ∧
    (y.router, y.iface) ∈ N.reach x.router out y.frame

/-- Successive forwardings of one packet. -/
structure ForwardingChain (S : RelayState ι) (chain : List (Reception ι)) : Prop where
  received : ∀ x ∈ chain, x ∈ S.log
  forwarded : ∀ x ∈ chain, x.forwarded ≠ none
  linked : chain.IsChain (N.Link S)

end Network

/-! ## Replaying runs -/

section Replay

variable {ι : Type} [DecidableEq ι] (N : Network ι)

/-- The state after the step, if it is completed. -/
def Network.relayExec (fuel : Nat) (x : RelayInput ι) (S : RelayState ι) : Option (RelayState ι) :=
  match x with
  | .receive a env =>
    (handlePacket (N.rtable a.router) a.iface a.frame { S.router a.router with env := env }).toOption.map
      fun r => ⟨Function.update S.router a.router r,
        S.log ++ [{ a with forwarded := forwardedSince (S.router a.router) r }]⟩
  | .sweep i env =>
    (arpcacheSweep (N.rtable i) fuel { S.router i with env := env }).toOption.map
      fun r => ⟨Function.update S.router i r, S.log⟩

variable {N}

theorem Network.RelayStep.of_exec {fuel : Nat} (x : RelayInput ι) (S S' : RelayState ι)
    (h : N.relayExec fuel x S = some S') : N.RelayStep x S S' := by
  cases x with
  | receive a env =>
    obtain ⟨r, hr, rfl⟩ := Option.map_eq_some_iff.mp h
    exact .receive (toOption_eq_some.mp hr)
  | sweep i env =>
    obtain ⟨r, hr, rfl⟩ := Option.map_eq_some_iff.mp h
    exact .sweep (toOption_eq_some.mp hr)

/-- What a replay from empty caches shows of its last state is true of some state of a run. -/
theorem Network.RelayRun.of_replay (fuel : Nat) (xs : List (RelayInput ι)) (env : Env)
    (P : RelayState ι → Prop) [DecidablePred P]
    (h : (Runs.replay (fun _ _ => True) (N.relayExec fuel) xs ⟨fun _ => arpcacheInit env, []⟩).any (P ·) = true) :
    ∃ S, N.RelayRun S ∧ P S :=
  Runs.RunOf.of_replay Network.RelayStep.of_exec xs ⟨fun _ => ⟨env, rfl⟩, rfl⟩ P h

end Replay

namespace Sample

/-- Two routers on one link, each of which is the other's gateway for everything. -/
def loop : Network Bool where
  rtable b := [⟨0, 0, (oneLink !b).ip, oneLink b⟩]
  reach b _ _ := {(!b, oneLink !b)}

/-- Nothing has been received. -/
def idle : RelayState Bool := ⟨fun _ => arpcacheInit (clockAt 0), []⟩

/-- Router `false` receives a packet for an unknown network, and then the ARP reply of router `true`. -/
def intoLoop : List (RelayInput Bool) :=
  [.receive ⟨false, oneLink false, udp 0x0a000105 0x0a000909 3⟩ (clockAt 0),
    .receive ⟨false, oneLink false, arpReply (oneLink true).ip (oneLink true).mac⟩ (clockAt 0)]

/-- The frame that router `false` then sends. -/
def inLoop : Frame :=
  (((Runs.replay (fun _ _ => True) (loop.relayExec 8) intoLoop idle).bind fun S =>
    (transmissions (S.router false).trace).getLast?).map (·.2.1)).getD []

end Sample

end StaticRouter
