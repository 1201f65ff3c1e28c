import Mathlib.Algebra.GroupWithZero.Nat
import StaticRouter.History

/-!
# What the router's traffic costs

The frames that the router received and sent, counted, and the repeats that its ARP requests still allow.
-/

namespace StaticRouter

/-- The number of received frames of the type `type`. -/
def received (type : UInt16) (is : List Input) : Nat :=
  is.countP fun
    | .frame _ packet _ => packet.readU16 etherType = .ok type
    | .sweep _ => false

/-- The number of ARP frames that were sent. -/
def arpSent (tr : List Event) : Nat :=
  tr.countP fun
    | .sent _ _ .arp => true
    | _ => false

/-- The number of ARP requests that may still be sent for an `arp_req`. -/
def ArpReq.repeatsLeft (r : ArpReq) : Nat := (5 - r.retries).toNat

/-- The number of ARP requests that may still be sent for the `arp_req`s on the list. -/
def repeatsLeft (reqs : List ArpReq) : Nat := (reqs.map (·.repeatsLeft)).sum

/-- What the router sent, and what it may still send, is paid for by `ip` received IPv4 frames, `arp` received
ARP frames and the packets that were given up. -/
structure PaidBy (ip arp : Nat) (s : Router) : Prop where
  /-- A received IPv4 frame pays for one packet, and so does a packet that is given up. -/
  packets : (sentTags s.trace).length + (waiting s.reqList).length ≤ ip
  queued : (queuedTags s.trace).length ≤ ip + (givenUp s.trace).length
  /-- A received ARP frame pays for one reply, and a packet that is queued for six requests. -/
  frames : arpSent s.trace + repeatsLeft s.reqList ≤ arp + 6 * (queuedTags s.trace).length

section Append

variable (type : UInt16) (is js : List Input) (tr tr' : List Event) (reqs reqs' : List ArpReq)

theorem received_append : received type (is ++ js) = received type is + received type js := List.countP_append

@[simp] theorem arpSent_append : arpSent (tr ++ tr') = arpSent tr + arpSent tr' := List.countP_append

@[simp] theorem repeatsLeft_append : repeatsLeft (reqs ++ reqs') = repeatsLeft reqs + repeatsLeft reqs' := by
  rw [repeatsLeft, List.map_append, List.sum_append]
  rfl

end Append

end StaticRouter
