import StaticRouter.Sweep

/-!
# The actions on a router's state

The atomic changes of which the code's steps are made up, as a labelled transition system. Its state also
says which request the sweep is tearing down: between the first packet it gives up and the unlinking of
the request, that request may have an empty queue.
-/

namespace StaticRouter

open CMem

/-- The header fields that `iface_send_packet_by_arp` writes whatever the cache holds: `q` is `p` with
the source address of `iface` and the type of IPv4. -/
def Filled (iface : Iface) (p q : Frame) : Prop :=
  ∃ p', p.write etherShost iface.mac.val = .ok p' ∧ p'.write etherType (Buffer.be16 ethPIp) = .ok q

/-- A router and the node of the request that is being torn down. -/
structure Store where
  router : Router
  tearing : Option Nat

/-- The joint invariant of the table and the request list. -/
structure Store.Wf (st : Store) : Prop where
  nodes : (st.router.reqList.map (·.node)).Nodup
  ip4s : (st.router.reqList.map (·.ip4)).Nodup
  /-- A request waits for an address that the cache does not know. -/
  cold : ∀ r ∈ st.router.reqList, arpcacheLookup st.router.table r.ip4 = none
  retries : ∀ r ∈ st.router.reqList, 0 ≤ r.retries ∧ r.retries ≤ 5
  /-- A queue holds its packets in the order of their submission. -/
  ordered : ∀ r ∈ st.router.reqList, (r.cachedPackets.map (·.tag)).Pairwise (· < ·)
  old : ∀ r ∈ st.router.reqList, r.node < st.router.next
  oldTags : ∀ r ∈ st.router.reqList, ∀ p ∈ r.cachedPackets, p.tag < st.router.next
  /-- Only the request that is being torn down has an empty queue. -/
  busy : ∀ r ∈ st.router.reqList, st.tearing ≠ some r.node → r.cachedPackets ≠ []

/-- A label of the transition system. -/
inductive Act where
  /-- The surroundings change, or a value is taken from them. -/
  | env
  /-- `icmp_send_packet` has built a message for `dst`. -/
  | originate (type code : UInt8) (dst : UInt32)
  /-- An ARP frame is sent. -/
  | arp (iface : Iface) (frame : Frame)
  /-- `iface_send_packet_by_arp(iface, dst, packet)`. -/
  | submit (iface : Iface) (dst : UInt32) (packet : Frame)
  /-- `arpcache_insert(ip4, mac)`. -/
  | learn (ip4 : UInt32) (mac : Mac)
  /-- The first loop of the sweep. -/
  | expire
  /-- The retry counter of a request goes up. -/
  | retry (node : Nat)
  /-- The sweep starts to tear down a request. -/
  | begin (node : Nat)
  /-- The sweep unlinks a packet of the request it tears down. -/
  | giveUp (tag : Nat)
  /-- The sweep unlinks the request it tears down. -/
  | unlink (node : Nat)

/-- What an action does. -/
inductive Does : Act → Store → Store → Prop where
  | env (s : Router) (ph : Option Nat) (e : Env) : Does .env ⟨s, ph⟩ ⟨{ s with env := e }, ph⟩
  | originate (s : Router) (ph : Option Nat) (type code : UInt8) (dst : UInt32) :
      Does (.originate type code dst) ⟨s, ph⟩ ⟨s.log (.originated type code dst), ph⟩
  | arp (s : Router) (ph : Option Nat) (iface : Iface) (frame : Frame) :
      Does (.arp iface frame) ⟨s, ph⟩ ⟨ifaceSendPacket iface frame .arp s, ph⟩
  | submit {s s' : Router} {iface : Iface} {dst : UInt32} {packet : Frame} (ph : Option Nat)
      (h : ifaceSendPacketByArp iface dst packet s = .ok s') :
      Does (.submit iface dst packet) ⟨s, ph⟩ ⟨s', ph⟩
  | learn {s s' : Router} {ip4 : UInt32} {mac : Mac} (h : arpcacheInsert ip4 mac s = .ok s') :
      Does (.learn ip4 mac) ⟨s, none⟩ ⟨s', none⟩
  | expire (s : Router) : Does .expire ⟨s, none⟩ ⟨sweepTable s, none⟩
  | retry {s : Router} {node : Nat} (h : ∀ r ∈ s.reqList, r.node = node → r.retries < 5) :
      Does (.retry node) ⟨s, none⟩
        ⟨s.updateReq node fun req => { req with retries := req.retries + 1 }, none⟩
  | begin (s : Router) (node : Nat) : Does (.begin node) ⟨s, none⟩ ⟨s, some node⟩
  | giveUp {s : Router} {node tag : Nat} (h : tag ∈ s.queueNodes node) :
      Does (.giveUp tag) ⟨s, some node⟩
        ⟨(s.updateReq node (·.deletePkt tag)).log (.unreachable tag), some node⟩
  | unlink {s : Router} {node : Nat} {req : ArpReq} (h : s.findReq node = some req) :
      Does (.unlink node) ⟨s, some node⟩
        ⟨{ s with reqList := s.reqList.filter (·.node ≠ node) }.log (.dropped req.ip4), none⟩

/-- Finitely many actions, each of which satisfies `G` on the state before it. -/
inductive Path (G : Act → Store → Prop) : Store → Store → Prop where
  | refl (a : Store) : Path G a a
  | step {a b c : Store} {act : Act} (h : Path G a b) (hg : G act b) (hd : Does act b c) : Path G a c

namespace Path

variable {G G' : Act → Store → Prop} {a b c : Store}

theorem single (act : Act) (hg : G act a) (hd : Does act a b) : Path G a b := .step (.refl a) hg hd

theorem trans (h₁ : Path G a b) (h₂ : Path G b c) : Path G a c := by
  induction h₂ with
  | refl => exact h₁
  | step _ hg hd ih => exact .step ih hg hd

theorem mono (hG : ∀ act s, G act s → G' act s) (h : Path G a b) : Path G' a b := by
  induction h with
  | refl => exact .refl _
  | step _ hg hd ih => exact .step ih (hG _ _ hg) hd

/-- What every action of the path preserves holds at its end. -/
theorem invariant {I : Store → Prop} (hI : ∀ act s s', G act s → I s → Does act s s' → I s')
    (h : Path G a b) (ha : I a) : I b := by
  induction h with
  | refl => exact ha
  | step _ hg hd ih => exact hI _ _ _ hg ih hd

/-- What is in the history at the end and was not at the start was added by an action. -/
theorem exists_new {e : Event} (h : Path G a b) (he : e ∈ b.router.trace) (hne : e ∉ a.router.trace) :
    ∃ act c c', Path G a c ∧ G act c ∧ Does act c c' ∧ e ∈ c'.router.trace ∧ e ∉ c.router.trace := by
  induction h with
  | refl => exact absurd he hne
  | @step b c act h hg hd ih =>
    by_cases hb : e ∈ b.router.trace
    · exact ih hb
    · exact ⟨act, b, c, h, hg, hd, he, hb⟩

end Path

end StaticRouter
