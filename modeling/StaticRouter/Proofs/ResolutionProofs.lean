import StaticRouter.Proofs.ParsingProofs
import StaticRouter.Resolution

/-!
# Proofs: ARP resolution

What `handle_packet` does with an ARP frame, and from it the exchange of a request and its reply between
two routers in any states.
-/

namespace StaticRouter

open CMem

/-! ## Learning an address -/

/-- What a router sends for one request when it learns an address. -/
theorem transmissions_flushEvents (ip4 : UInt32) (mac : Mac) (r : ArpReq) :
    (transmissions (flushEvents ip4 mac r)).map (fun x => (x.1, x.2.1)) =
      r.cachedPackets.map fun p => (r.iface, addressed mac p.packet) := by
  have hsplice : ∀ p : Frame, p.splice etherDhost mac.val = addressed mac p := by
    intro p
    rw [Buffer.splice, mac.property]
    rfl
  unfold flushEvents
  generalize r.cachedPackets = pkts
  induction pkts with
  | nil => rfl
  | cons p pkts ih => exact congrArg₂ List.cons (congrArg _ (hsplice p.packet)) ih

/-- What it sends for all of them. -/
theorem transmissions_flatMap (ip4 : UInt32) (mac : Mac) (reqs : List ArpReq) :
    (transmissions (reqs.flatMap (flushEvents ip4 mac))).map (fun x => (x.1, x.2.1)) =
      reqs.flatMap fun r => r.cachedPackets.map fun p => (r.iface, addressed mac p.packet) := by
  induction reqs with
  | nil => rfl
  | cons r reqs ih =>
    rw [List.flatMap_cons, List.flatMap_cons, transmissions_append, List.map_append,
      transmissions_flushEvents, ih]

/-- Learning an address resolves it. -/
theorem arpcacheInsert_resolved {s s' : Router} {ip4 : UInt32} {mac : Mac}
    (h : arpcacheInsert ip4 mac s = .ok s') :
    Resolved s s' ip4 mac ∧ ∃ es, s'.trace = s.trace ++ es ∧
      (transmissions es).map (fun x => (x.1, x.2.1)) = flushed s ip4 mac := by
  obtain ⟨-, rfl⟩ := arpcacheInsert_ok h
  exact ⟨⟨arpcacheLookup_tableInsert_self _ _ _ _ _, rfl⟩, _, rfl, transmissions_flatMap ip4 mac _⟩

section Frame

variable (rtable : List RtEntry) (iface : Iface) (dhost shost sha tha : Mac) (op : UInt16)
  (spa tpa : UInt32)

/-- A router that receives an ARP frame learns the mapping of the sender. -/
theorem handlePacket_arpFrame {s : Router} (hf : Framed s) :
    ∃ s₁, arpcacheInsert spa sha s = .ok s₁ ∧
      handlePacket rtable iface (arpFrame dhost shost op sha spa tha tpa) s =
        .ok (if op = arpopRequest then arpSendReply iface ⟨op, sha, spa, tpa⟩ s₁ else s₁) := by
  obtain ⟨s₁, h₁⟩ := exists_arpcacheInsert spa sha hf
  refine ⟨s₁, h₁, ?_⟩
  rw [handlePacket_arp (readU16_arpFrame dhost shost sha tha op spa tpa), handleArpPacket,
    readEtherArp_arpFrame, ok_bind, h₁, ok_bind]
  split_ifs
  · rfl
  · rfl

end Frame

/-! ## The exchange -/

variable (rtable rtable' : List RtEntry) {a b : Router}

/-- **A request and its reply resolve both addresses.** Whatever two routers hold before, the request of
one for the address of the other and the reply to it leave each of them with the hardware address of the
other, with no request for it, and with the packets that waited for it sent in their order. -/
theorem arp_resolves (ha : Framed a) (hb : Framed b) (ifaceA ifaceB : Iface) (envA envB : Env) :
    ∃ a₀ b' a', arpSendRequest ifaceA ifaceB.ip a = a₀ ∧
      sentSince a a₀ = [(ifaceA, requestFor ifaceA ifaceB.ip)] ∧
      handlePacket rtable' ifaceB (requestFor ifaceA ifaceB.ip) { b with env := envB } = .ok b' ∧
      sentSince b b' = flushed b ifaceA.ip ifaceA.mac ++ [(ifaceB, replyTo ifaceB ifaceA)] ∧
      handlePacket rtable ifaceA (replyTo ifaceB ifaceA) { a₀ with env := envA } = .ok a' ∧
      sentSince a₀ a' = flushed a ifaceB.ip ifaceB.mac ∧
      Resolved a a' ifaceB.ip ifaceB.mac ∧ Resolved b b' ifaceA.ip ifaceA.mac := by
  have hsent : sentSince a (arpSendRequest ifaceA ifaceB.ip a) = [(ifaceA, requestFor ifaceA ifaceB.ip)] := by
    rw [sentSince, arpSendRequest, ifaceSendPacket, Router.log, List.drop_left]
    rfl
  obtain ⟨b₁, hb₁, hreq⟩ := handlePacket_arpFrame rtable' ifaceB broadcastMac ifaceA.mac ifaceA.mac zeroMac
    arpopRequest ifaceA.ip ifaceB.ip (s := { b with env := envB }) hb
  obtain ⟨a', ha', hrep⟩ := handlePacket_arpFrame rtable ifaceA ifaceA.mac ifaceB.mac ifaceB.mac ifaceA.mac
    arpopReply ifaceB.ip ifaceA.ip (s := { arpSendRequest ifaceA ifaceB.ip a with env := envA }) ha
  -- the request is for the address of the interface that receives it, and the reply asks for nothing
  rw [if_pos rfl, arpSendReply, if_pos rfl] at hreq
  rw [if_neg (by decide)] at hrep
  obtain ⟨hrb, es, hes, hsb⟩ := arpcacheInsert_resolved hb₁
  obtain ⟨hra, es', hes', hsa⟩ := arpcacheInsert_resolved ha'
  refine ⟨_, _, a', rfl, hsent, hreq, ?_, hrep, ?_, ⟨hra.lookup, hra.pending⟩, ⟨hrb.lookup, hrb.pending⟩⟩
  · rw [sentSince, ifaceSendPacket, Router.log, hes, List.append_assoc, List.drop_left,
      transmissions_append, List.map_append, hsb]
    rfl
  · rw [sentSince, hes', List.drop_left, hsa]
    rfl

namespace Sample

/-- 10.0.2.2. -/
def neighbour : Iface := ⟨1, station 4, 0x0a000202⟩

/-- A router in which a packet waits for it, and another one for 10.0.1.9. -/
def asking : Router :=
  { arpcacheInit (clockAt 0) with
    reqList := [⟨0, eth1, 0x0a000202, 0, 0, [⟨0, udp 0x0a000102 0x0a000202 63⟩]⟩,
      ⟨1, eth0, 0x0a000109, 0, 0, [⟨1, udp 0x0a000202 0x0a000109 63⟩]⟩] }

end Sample

/-- The packet leaves, and the other one goes on waiting. -/
theorem arp_resolves_waiting :
    ∃ a', arpcacheLookup a'.table 0x0a000202 = some (Sample.station 4) ∧
      a'.reqList.map (·.ip4) = [0x0a000109] ∧
      sentSince (arpSendRequest Sample.eth1 0x0a000202 Sample.asking) a' =
        [(Sample.eth1, addressed (Sample.station 4) (Sample.udp 0x0a000102 0x0a000202 63))] := by
  have hframed : Framed Sample.asking := by
    intro r hr p hp
    simp only [Sample.asking, List.mem_cons, List.not_mem_nil, or_false] at hr
    rcases hr with rfl | rfl <;> rw [List.mem_singleton.mp hp] <;> decide
  obtain ⟨_, _, a', rfl, -, -, -, -, hsent, hres, -⟩ := arp_resolves Sample.connected
    Sample.connected hframed (framed_init (Sample.clockAt 0)) Sample.eth1 Sample.neighbour
    (Sample.clockAt 0) (Sample.clockAt 0)
  refine ⟨a', hres.lookup, ?_, hsent⟩
  rw [hres.pending]
  rfl

end StaticRouter
