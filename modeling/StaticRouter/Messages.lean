import StaticRouter.History
import StaticRouter.Lib.OnesComplement
import StaticRouter.Submission

/-!
# The messages that a router builds

What an ICMP message must hold, whatever packet it is about: what a receiver checks in it, what an echo
reply returns and what an error quotes.
-/

namespace StaticRouter

open CMem OnesComplement

/-! ## ICMP messages -/

/-- The total length field. -/
def totLenOf (packet : Frame) : Nat := Buffer.beNat (packet.slice ipTotLen 2)

/-- The offset of what follows the IP header. -/
def payloadOffset (packet : Frame) : Nat := etherHdrSize + ihlOf packet * 4

theorem header_le_payloadOffset {packet : Frame} (h5 : 5 ≤ ihlOf packet) :
    etherHdrSize + iphdrSize ≤ payloadOffset packet := by
  unfold payloadOffset
  simp only [iphdrSize]
  omega

/-- The data of an ICMP message: what follows its header, as far as the total length says. -/
def icmpData (packet : Frame) : List UInt8 :=
  packet.slice (payloadOffset packet + icmphdrSize) (totLenOf packet - ihlOf packet * 4 - icmphdrSize)

/-- A message that a receiver accepts: its lengths agree, and its checksums verify. -/
structure Consistent (q : Frame) : Prop where
  totLen : q.length = etherHdrSize + totLenOf q
  ihl : ihlOf q * 4 = iphdrSize
  protocol : q.slice ipProtocol 1 = [1]
  header : Verifies (q.slice etherHdrSize iphdrSize)
  icmp : Verifies (q.slice icmpHdr (totLenOf q - iphdrSize))

/-- The echo reply `q` returns what the echo request `p` carries, to its source. -/
structure Echoes (p q : Frame) : Prop where
  type : icmpTypeOf q = some 0
  dest : destOf q = sourceOf p
  totLen : totLenOf q = iphdrSize + (totLenOf p - ihlOf p * 4)
  /-- The identifier and the sequence number. -/
  idSeq : q.slice (payloadOffset q + 4) 4 = p.slice (payloadOffset p + 4) 4
  data : icmpData q = icmpData p

/-- The error `q` quotes the header of the packet `p` and the first 64 bits of its data. -/
structure Quotes (p q : Frame) : Prop where
  consistent : Consistent q
  totLen : totLenOf q = iphdrSize + icmphdrSize + (ihlOf p * 4 + 8)
  data : icmpData q = p.slice etherHdrSize (ihlOf p * 4 + 8)

/-! ## What `icmp_send_packet` builds -/

/-- The message about `inPkt` that `icmp_send_packet` builds in fresh memory, if `rt` is the route to its
source. -/
def builtMessage (inPkt : Frame) (type code : UInt8) (rt : RtEntry) (s : Router) : Except Fault Frame :=
  if type = 0 then
    icmpEchoReply (s.malloc inPkt.length).1 inPkt (ihlOf inPkt) rt.iface.ip (sourceOf inPkt) code
      (s.env.rand 0)
  else
    icmpError (s.malloc icmpErrorLen).1 inPkt rt.iface.ip (sourceOf inPkt) type code (s.env.rand 0)

/-- The router after the buffer and the header's `id` have been taken. -/
def Router.drawn (s : Router) : Router :=
  { s with env := { s.env with
      heap := fun k => s.env.heap (k + 1)
      rand := fun n => s.env.rand (n + 1) } }

@[simp] theorem Router.drawn_table (s : Router) : s.drawn.table = s.table := rfl
@[simp] theorem Router.drawn_reqList (s : Router) : s.drawn.reqList = s.reqList := rfl
@[simp] theorem Router.drawn_next (s : Router) : s.drawn.next = s.next := rfl
@[simp] theorem Router.drawn_trace (s : Router) : s.drawn.trace = s.trace := rfl

/-! ## What a call adds -/

/-- The packets submitted between two states. -/
def submittedSince (s s' : Router) : List (Nat × Iface × UInt32 × Frame) :=
  submissions (s'.trace.drop s.trace.length)

/-- The interfaces and next hops of the packets submitted between two states. -/
def hopsSince (s s' : Router) : List (Iface × UInt32) :=
  (submittedSince s s').map fun x => (x.2.1, x.2.2.1)

/-- The messages built between two states. -/
def originatedSince (s s' : Router) : List (UInt8 × UInt8 × UInt32) :=
  originations (s'.trace.drop s.trace.length)

/-- `handle_packet` handles the frame, and makes an echo reply. -/
def MakesEchoReply (rtable : List RtEntry) (iface : Iface) (packet : Frame) (s : Router) : Prop :=
  ∃ s' code dst, handlePacket rtable iface packet s = .ok s' ∧ (0, code, dst) ∈ originatedSince s s'

/-! ## Reports about packets that are given up -/

/-- What the history tells of the call of `icmp_send_packet` about the packet `p`, which has waited too long: that
a message of type 3 and code 1 was built, comes from the interface of the route to the source of `p`, is accepted
there and quotes `p`, and was submitted for that source; nothing, if there is no such route. -/
structure ReportOf (rtable : List RtEntry) (p : Frame) (call : List Event) : Prop where
  unrouted : longestPrefixMatch rtable (sourceOf p) = none → call = []
  routed : ∀ rt, longestPrefixMatch rtable (sourceOf p) = some rt →
    ∃ m q, originations call = [(3, 1, sourceOf p)] ∧ submissions call = [(m, rt.iface, sourceOf p, q)] ∧
      IcmpMessage rt.iface.ip (sourceOf p) 3 q ∧ q.slice icmpHdr 2 = [3, 1] ∧ Consistent q ∧
      icmpData q = p.slice etherHdrSize (iphdrSize + 8)

/-- The history tells that the packet with the number `n` was given up, and right before that of the call about
it. -/
def Reported (rtable : List RtEntry) (tr : List Event) (n : Nat) : Prop :=
  ∃ before call rest, tr = before ++ call ++ .unreachable n :: rest ∧
    ∃ iface d p, (n, iface, d, p) ∈ submissions before ∧ ReportOf rtable p call

/-! ## What others can see -/

/-- The frames that were sent, and the packets that wait, but for the destination address that is filled
in when they leave. -/
def exposed (s : Router) : List (Iface × Frame) × List (List (List UInt8)) :=
  ((transmissions s.trace).map fun x => (x.1, x.2.1),
    s.reqList.map fun r => r.cachedPackets.map fun p => p.packet.drop ethAlen)

/-- The router `s` when its next `malloc` buffers hold `heap`. -/
def Router.withHeap (s : Router) (heap : Nat → Nat → UInt8) : Router :=
  { s with env := { s.env with heap := heap } }

end StaticRouter
