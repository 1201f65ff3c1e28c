import StaticRouter.Sweep

/-!
# The ARP requests that are spent on an address

How many ARP requests the history records for an address since its `arp_req` was created, and the budget
of five that the comment on `arpcache_sweep` states.
-/

namespace StaticRouter

/-- The frame is an ARP request for `ip4` to every station on the link. -/
def IsRequestFor (ip4 : UInt32) (frame : Frame) : Prop :=
  frame.slice etherDhost ethAlen = broadcastMac.val ∧ frame.readU16 arpOp = .ok arpopRequest ∧
    frame.readU32 arpTpa = .ok ip4

instance (ip4 : UInt32) (frame : Frame) : Decidable (IsRequestFor ip4 frame) :=
  inferInstanceAs (Decidable (_ ∧ _))

/-- The number of ARP requests for `ip4` since its latest `arp_req` was created, after one more event. -/
def countRequest (ip4 : UInt32) (n : Nat) : Event → Nat
  | .opened a => if a = ip4 then 0 else n
  | .sent _ frame .arp => if IsRequestFor ip4 frame then n + 1 else n
  | _ => n

/-- The number of ARP requests for `ip4` since its latest `arp_req` was created. -/
def requestsSince (ip4 : UInt32) (trace : List Event) : Nat := trace.foldl (countRequest ip4) 0

/-- If the event ends an `arp_req`, the number of ARP requests that the history `trace` before it records
satisfies `given` for one that is given up, and `resolved` for one that is answered. -/
def Event.Within (given resolved : Nat → Prop) (trace : List Event) : Event → Prop
  | .dropped ip4 => given (requestsSince ip4 trace)
  | .sent _ _ (.flush _ ip4) => resolved (requestsSince ip4 trace)
  | _ => True

/-- So it is for every `arp_req` that has ended. -/
def Spent (given resolved : Nat → Prop) (trace : List Event) : Prop :=
  ∀ pre e post, trace = pre ++ e :: post → e.Within given resolved pre

/-- Five ARP requests were sent for every `arp_req` that was given up, and no more for those that were
answered. -/
abbrev Budget : List Event → Prop := Spent (· = 5) (· ≤ 5)

/-- A step in which no `arp_req` ends that has been repeated five times: neither does an ARP packet tell its
address, nor does a pass find it. -/
def InBudget : Input → Router → Prop
  | .frame _ packet _, s => packet.readU16 etherType = .ok ethPArp →
      ∀ r ∈ s.reqList, packet.readU32 arpSpa = .ok r.ip4 → r.retries < 5
  | .sweep _, s => ∀ r ∈ s.reqList, r.retries < 5

instance (i : Input) (s : Router) : Decidable (InBudget i s) :=
  match i with
  | .frame _ _ _ => inferInstanceAs (Decidable (_ → ∀ _ ∈ _, _ → _))
  | .sweep _ => inferInstanceAs (Decidable (∀ _ ∈ _, _))

end StaticRouter
