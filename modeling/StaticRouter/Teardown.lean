import StaticRouter.Store
import StaticRouter.Submission
import StaticRouter.Lib.FeedingQueue

/-!
# What a sweep pass gives up

The messages of a sweep pass may be queued on the requests of the list that it walks, the one that is
being torn down included. Which packets a pass answers can be told before it is made, from the sources of
the packets that wait: a message to `ip4` that has to wait itself carries the address of the interface
that it would leave through.
-/

namespace StaticRouter

open FeedingQueue

/-- The source of a message to `ip4` if the message has to be queued; none is if there is no route or the
cache knows the hardware address. -/
def queuedReply (rtable : List RtEntry) (table : ArpTable) (ip4 : UInt32) : Option UInt32 :=
  if arpcacheLookup table ip4 = none then (longestPrefixMatch rtable ip4).map (·.iface.ip) else none

/-- The sources of the packets that wait for a request. -/
def ArpReq.sources (r : ArpReq) : List UInt32 := r.cachedPackets.map fun p => sourceOf p.packet

/-- A request that a pass tears down. -/
structure Teardown where
  req : ArpReq
  /-- The sources of its packets when the pass gets there. -/
  queue : List UInt32
  /-- The other requests of before the pass that are in the list then. -/
  others : List ArpReq

section Pass

variable (reply : UInt32 → Option UInt32)

namespace Teardown

/-- The sources of the packets that are given up. -/
def answered (td : Teardown) : List UInt32 := served td.req.ip4 (reply td.req.ip4) td.queue

/-- The sources of the packets that are still queued when the request is unlinked. -/
def leftOver (td : Teardown) : List UInt32 :=
  FeedingQueue.leftOver td.req.ip4 (reply td.req.ip4) td.queue

/-- No packet is still queued: messages to the request's own address are not queued on it, or the last
packet that the pass gives up is not from that address. -/
def Clean (td : Teardown) : Prop :=
  ∀ y, reply td.req.ip4 = some y → td.req.ip4 ∈ td.queue →
    y ≠ td.req.ip4 ∧ td.req.ip4 ∈ td.queue.dropLast

instance (td : Teardown) : Decidable (td.Clean reply) :=
  match h : reply td.req.ip4 with
  | none => .isTrue fun y hy => by rw [h] at hy; cases hy
  | some y =>
    decidable_of_iff (td.req.ip4 ∈ td.queue → y ≠ td.req.ip4 ∧ td.req.ip4 ∈ td.queue.dropLast) <| by
      simp only [Clean, h, Option.some.injEq, forall_eq']

/-- The queue is emptied after finitely many packets. -/
def Ends (td : Teardown) : Prop := FeedingQueue.Ends td.req.ip4 (reply td.req.ip4) td.queue

instance (td : Teardown) : Decidable (td.Ends reply) :=
  inferInstanceAs (Decidable (FeedingQueue.Ends _ _ _))

end Teardown

/-- The sources of the packets that wait for `r` after the pass has given up packets with the sources
`acc`. -/
def queueAt (acc : List UInt32) (r : ArpReq) : List UInt32 :=
  r.sources ++ acc.flatMap (feed r.ip4 (reply r.ip4))

/-- The teardowns when the requests `kept` have been passed over, `rest` are still to come, and packets
with the sources `acc` have been given up. -/
def teardowns : List UInt32 → List ArpReq → List ArpReq → List Teardown
  | _, _, [] => []
  | acc, kept, r :: rest =>
    if r.retries ≥ 5 then
      let td : Teardown := ⟨r, queueAt reply acc r, kept ++ rest⟩
      td :: teardowns (acc ++ td.answered reply) kept rest
    else teardowns acc (kept ++ [r]) rest

end Pass

/-- The messages that a pass from the state `s` queues. -/
def passReply (rtable : List RtEntry) (s : Router) : UInt32 → Option UInt32 :=
  queuedReply rtable (sweepTable s).table

/-- The teardowns of a pass from the state `s`. -/
def passTeardowns (rtable : List RtEntry) (s : Router) : List Teardown :=
  teardowns (passReply rtable s) [] [] s.reqList

/-- A sweep pass that unlinks no request with packets in its queue. -/
def CleanStep (rtable : List RtEntry) : Input → Router → Prop
  | .frame _ _ _, _ => True
  | .sweep env, s => ∀ td ∈ passTeardowns rtable { s with env := env },
      td.Clean (passReply rtable { s with env := env })

instance (rtable : List RtEntry) (i : Input) (s : Router) : Decidable (CleanStep rtable i s) :=
  match i with
  | .frame _ _ _ => inferInstanceAs (Decidable True)
  | .sweep _ => inferInstanceAs (Decidable (∀ _ ∈ _, _))

/-- A step that joins packets only to requests on their own interface: the pending request for the next
hop, if there is one, is on the interface of the route. -/
def SameEgress (rtable : List RtEntry) : Input → Router → Prop
  | .frame iface packet _, s => packet.readU16 etherType = .ok ethPIp →
      ∀ hop ∈ nextHop rtable iface packet, ∀ r ∈ s.reqList, r.ip4 = hop.2 → r.iface = hop.1
  | .sweep env, s => ∀ td ∈ passTeardowns rtable { s with env := env },
      ∀ src ∈ td.answered (passReply rtable { s with env := env }),
        ∀ rt ∈ longestPrefixMatch rtable src, ∀ r ∈ td.others, r.ip4 = src → r.iface = rt.iface

instance (rtable : List RtEntry) (i : Input) (s : Router) : Decidable (SameEgress rtable i s) :=
  match i with
  | .frame _ _ _ => inferInstanceAs (Decidable (_ → ∀ _ ∈ _, _))
  | .sweep env =>
    -- the sources are searched for in the list, not among all addresses
    have (td : Teardown) := List.decidableBAll (fun src => ∀ rt ∈ longestPrefixMatch rtable src,
      ∀ r ∈ td.others, r.ip4 = src → r.iface = rt.iface)
      (td.answered (passReply rtable { s with env := env }))
    List.decidableBAll _ _

/-- The address of one of the router's own interfaces. -/
def IsOwn (ifaces : List Iface) (ip4 : UInt32) : Prop := ∃ i ∈ ifaces, i.ip = ip4

instance (ifaces : List Iface) (ip4 : UInt32) : Decidable (IsOwn ifaces ip4) :=
  inferInstanceAs (Decidable (∃ _ ∈ _, _))

/-- A step that submits nothing for an address of the router: neither a forwarded packet nor a message,
to the source of a received frame or of a packet that the pass gives up. -/
def AvoidsSelf (rtable : List RtEntry) (ifaces : List Iface) : Input → Router → Prop
  | .frame iface packet _, _ => packet.readU16 etherType = .ok ethPIp →
      ∀ hop ∈ nextHop rtable iface packet, ¬ IsOwn ifaces hop.2
  | .sweep env, s => ∀ td ∈ passTeardowns rtable { s with env := env },
      ∀ src ∈ td.answered (passReply rtable { s with env := env }), ¬ IsOwn ifaces src

instance (rtable : List RtEntry) (ifaces : List Iface) (i : Input) (s : Router) :
    Decidable (AvoidsSelf rtable ifaces i s) :=
  match i with
  | .frame _ _ _ => inferInstanceAs (Decidable (_ → ∀ _ ∈ _, _))
  | .sweep env =>
    have (td : Teardown) := List.decidableBAll (¬ IsOwn ifaces ·)
      (td.answered (passReply rtable { s with env := env }))
    List.decidableBAll _ _

/-- A pass from the state `s` ends: its traversals need finitely many rounds. -/
def SweepEnds (rtable : List RtEntry) (s : Router) : Prop :=
  ∃ n, ∀ fuel, n ≤ fuel → arpcacheSweep rtable fuel s ≠ .error .outOfFuel

/-- The packet is long enough to be quoted in an error message. -/
def Quotable (p : CachedPkt) : Prop := etherHdrSize + iphdrSize + 8 ≤ p.packet.length

instance (p : CachedPkt) : Decidable (Quotable p) := inferInstanceAs (Decidable (_ ≤ _))

/-- Every packet that waits is long enough to be quoted. -/
def AllQuotable (s : Router) : Prop := ∀ r ∈ s.reqList, ∀ p ∈ r.cachedPackets, Quotable p

instance (s : Router) : Decidable (AllQuotable s) :=
  inferInstanceAs (Decidable (∀ _ ∈ _, ∀ _ ∈ _, _))

/-! ## The actions of a step -/

/-- The request of `td` is being torn down. Every other request in the list was there before the pass, or
was opened in it for a message. -/
structure TearingDown (rtable : List RtEntry) (td : Teardown) (st : Store) : Prop where
  tearing : st.tearing = some td.req.node
  known : ∀ r ∈ st.router.reqList, r.node = td.req.node ∨
    (∃ o ∈ td.others, o.node = r.node ∧ o.iface = r.iface ∧ o.ip4 = r.ip4) ∨
    ∃ rt, longestPrefixMatch rtable r.ip4 = some rt ∧ rt.iface = r.iface

/-- The request that the sweep repeats. -/
def requestFrame (r : ArpReq) : Frame :=
  arpFrame broadcastMac r.iface.mac arpopRequest r.iface.mac r.iface.ip zeroMac r.ip4

/-- The actions of a sweep pass that makes the teardowns `tds`. -/
def PassAct (rtable : List RtEntry) (reply : UInt32 → Option UInt32) (tds : List Teardown) :
    Act → Store → Prop
  | .env, _ => True
  | .originate _ _ dst, _ => ∃ td ∈ tds, dst ∈ td.answered reply
  | .arp iface frame, st => ∃ r ∈ st.router.reqList, iface = r.iface ∧ frame = requestFrame r
  | .submit iface dst packet, st =>
    ∃ td ∈ tds, dst ∈ td.answered reply ∧ TearingDown rtable td st ∧
      IcmpMessage iface.ip dst 3 packet ∧ ∃ rt, longestPrefixMatch rtable dst = some rt ∧ rt.iface = iface
  | .learn _ _, _ => False
  | .expire, _ => True
  | .retry _, _ => True
  | .begin node, _ => ∃ td ∈ tds, td.req.node = node
  | .giveUp _, _ => True
  | .unlink node, st => ∃ td ∈ tds, td.req.node = node ∧
      ∀ r ∈ st.router.reqList, r.node = node → r.sources = td.leftOver reply

/-- The actions of `handle_packet` in the state `s` on a frame `packet` that arrived on `iface`. -/
def FrameAct (rtable : List RtEntry) (s : Router) (iface : Iface) (packet : Frame) : Act → Store → Prop
  | .env, _ => True
  | .originate _ _ dst, _ => packet.readU16 etherType = .ok ethPIp ∧
      ∃ out, nextHop rtable iface packet = some (out, dst)
  | .arp out frame, _ => packet.readU16 etherType = .ok ethPArp ∧ out = iface ∧
      ∃ dhost sha spa tha tpa, frame = arpFrame dhost iface.mac arpopReply sha spa tha tpa
  | .submit out dst q, st => packet.readU16 etherType = .ok ethPIp ∧
      Submission rtable iface packet out dst q ∧ st.tearing = none ∧
      st.router.reqList = s.reqList ∧ st.router.table = s.table
  | .learn ip4 mac, _ => packet.readU16 etherType = .ok ethPArp ∧
      packet.readU32 arpSpa = .ok ip4 ∧ readMac packet arpSha = .ok mac
  | _, _ => False

/-- The actions of a step from the state `s`. -/
def StepAct (rtable : List RtEntry) (s : Router) : Input → Act → Store → Prop
  | .frame iface packet _ => FrameAct rtable s iface packet
  | .sweep env => PassAct rtable (passReply rtable { s with env := env })
      (passTeardowns rtable { s with env := env })

end StaticRouter
