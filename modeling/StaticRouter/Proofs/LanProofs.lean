import StaticRouter.Lan
import StaticRouter.Lib.Runs
import StaticRouter.Proofs.ArpProofs

/-!
# Proofs: what the routers of a LAN tell each other

A request always tells the truth, and so does a reply for the router's own address. A reply for an
address found in the cache carries zero bytes in place of the hardware address. In the runs in which
no router answers from its cache, every frame and with it every cache is true.
-/

namespace StaticRouter

open CMem

namespace Lan

variable {ι : Type} {L : Lan ι}

/-- The address of a router belongs to that router only. -/
theorem Owns.mac_eq {ip4 : UInt32} {mac : Mac} (h : L.Owns ip4 mac) {j : ι}
    (hj : ip4 = (L.iface j).ip) : mac = (L.iface j).mac := by
  obtain ⟨k, hk, rfl⟩ := h
  rw [L.ip_injective (hk.symm.trans hj)]

/-! ## Routers that know the truth -/

/-- Nothing waits at the router, and all that it knows and has sent is true. -/
structure Truthful (L : Lan ι) (s : Router) : Prop where
  idle : s.reqList = []
  cache : ∀ e ∈ s.table.entries, e.valid = true → L.Owns e.ip4 e.mac
  frames : ∀ iface frame o, .sent iface frame o ∈ s.trace →
    ∃ ea, readEtherArp frame = .ok ea ∧ L.Owns ea.spa ea.sha

namespace Truthful

variable {s s' : Router}

theorem init (env : Env) : L.Truthful (arpcacheInit env) where
  idle := rfl
  cache e he hv := by
    rw [List.eq_of_mem_replicate he] at hv
    cases hv
  frames iface frame o h := by cases h

/-- Another true frame. -/
theorem send (h : L.Truthful s) {sha : Mac} {spa : UInt32} (ho : L.Owns spa sha) (iface : Iface)
    (dhost shost tha : Mac) (op : UInt16) (tpa : UInt32) :
    L.Truthful (ifaceSendPacket iface (arpFrame dhost shost op sha spa tha tpa) .arp s) where
  idle := h.idle
  cache := h.cache
  frames out frame o hm := by
    rcases List.mem_append.mp hm with hm | hm
    · exact h.frames out frame o hm
    · obtain ⟨-, rfl, -⟩ : out = iface ∧ frame = arpFrame dhost shost op sha spa tha tpa ∧ o = .arp := by
        simpa using hm
      exact ⟨_, readEtherArp_arpFrame .., ho⟩

/-- A true mapping is learned. -/
theorem learn (h : L.Truthful s) {ip4 : UInt32} {mac : Mac} (ho : L.Owns ip4 mac)
    (hi : arpcacheInsert ip4 mac s = .ok s') : L.Truthful s' := by
  obtain ⟨-, rfl⟩ := arpcacheInsert_ok hi
  refine ⟨by simp [h.idle], fun e he hv => ?_, by simpa [h.idle] using h.frames⟩
  rcases mem_tableInsert he with ⟨he, -⟩ | ⟨rfl, rfl, -⟩
  · exact h.cache e he hv
  · exact ho

/-- What the cache answers is true. -/
theorem lookup (h : L.Truthful s) {ip4 : UInt32} {mac : Mac} (hl : arpcacheLookup s.table ip4 = some mac) :
    L.Owns ip4 mac := by
  obtain ⟨e, he, ⟨rfl, hv⟩, rfl⟩ := exists_of_arpcacheLookup hl
  exact h.cache e he hv

/-- A router that asks tells its own address. -/
theorem request {i : ι} (h : L.Truthful s) (dst : UInt32) :
    L.Truthful (arpSendRequest (L.iface i) dst s) :=
  h.send ⟨i, rfl, rfl⟩ _ _ _ _ _ _

/-- The reply for an address found in the cache is true only if the address found is zero. -/
theorem reply {i : ι} (h : L.Truthful s) {ea : EtherArp}
    (hc : ea.tpa ≠ (L.iface i).ip → ∀ mac, arpcacheLookup s.table ea.tpa = some mac → mac = zeroMac) :
    L.Truthful (arpSendReply (L.iface i) ea s) := by
  unfold arpSendReply
  split_ifs with hown
  · exact h.send ⟨i, hown, rfl⟩ _ _ _ _ _ _
  · cases hl : arpcacheLookup s.table ea.tpa with
    | none => exact h
    | some mac => exact h.send (hc hown mac hl ▸ h.lookup hl) _ _ _ _ _ _

/-- A true frame is received, and not answered from the cache. -/
theorem receive {i : ι} {frame : Frame} (h : L.Truthful s)
    (hf : ∃ ea, readEtherArp frame = .ok ea ∧ L.Owns ea.spa ea.sha)
    (hc : ∀ mac ∈ cachedAnswer (L.iface i) frame s, mac = zeroMac)
    (hs : handleArpPacket (L.iface i) frame s = .ok s') : L.Truthful s' := by
  obtain ⟨ea, s₁, hea, h₁, rfl⟩ := handleArpPacket_cases hs
  obtain ⟨ea', hea', ho⟩ := hf
  cases hea.symm.trans hea'
  have ht := h.learn ho h₁
  split_ifs with hop
  · obtain ⟨-, rfl⟩ := arpcacheInsert_ok h₁
    refine ht.reply fun hown mac hl => hc mac ?_
    simp only [cachedAnswer, hea, hop, hown, ne_eq, not_false_eq_true, and_self, if_true]
    exact hl
  · exact ht

/-- With nothing waiting, a sweep pass only lets entries expire. -/
theorem sweep {rtable : List RtEntry} {fuel : Nat} (h : L.Truthful s)
    (hs : arpcacheSweep rtable fuel s = .ok s') : L.Truthful s' := by
  have he : s' = sweepTable s := by
    simp only [arpcacheSweep, forEachSafe_eq, sweepTable, h.idle, List.map_nil, safeLoopFrom_nil] at hs
    rw [← Except.ok.inj hs]
    simp only [sweepTable, h.idle]
  rw [he]
  refine ⟨h.idle, fun e he hv => ?_, h.frames⟩
  obtain ⟨e', he', hip, hmac, hv'⟩ := mem_expireLoop he
  rw [hip, hmac]
  exact h.cache e' he' (hv' hv)

/-- The surroundings do not matter. -/
theorem env (h : L.Truthful s) (env : Env) : L.Truthful { s with env := env } := ⟨h.idle, h.cache, h.frames⟩

end Truthful

/-! ## The whole LAN -/

variable [DecidableEq ι] {s s' : ι → Router}

/-- A step after which the routers still know the truth. -/
theorem Step.truthful {x : LanInput ι} (h : ∀ i, L.Truthful (s i)) (hc : L.OwnAnswers x s)
    (hs : L.Step x s s') : ∀ i, L.Truthful (s' i) := by
  have hupdate : ∀ i r, L.Truthful r → ∀ j, L.Truthful (Function.update s i r j) := by
    intro i r hr j
    by_cases hj : j = i
    · rw [hj, Function.update_self]; exact hr
    · rw [Function.update_of_ne hj]; exact h j
  cases hs with
  | request i dst => exact hupdate _ _ ((h i).request dst)
  | @deliver i frame env s r hsent ha hr =>
    obtain ⟨j, ⟨out, g, o⟩, hj, -, rfl⟩ := hsent
    exact hupdate _ _ (((h i).env env).receive ((h j).frames _ _ _ (mem_transmissions.mp hj)) hc hr)
  | @sweep i fuel env s r hr => exact hupdate _ _ (((h i).env env).sweep hr)

/-- While no router answers from its cache, every cache and every frame is true. -/
theorem caches_true (h : L.RunOf L.OwnAnswers s) : L.CachesTrue s ∧ L.FramesTrue s := by
  have ht : ∀ i, L.Truthful (s i) := by
    refine h.invariant (I := fun s => ∀ i, L.Truthful (s i)) (fun s hs i => ?_)
      fun x s s' _ hc hi hx => hx.truthful hi hc
    obtain ⟨env, he⟩ := hs i
    rw [he]
    exact .init env
  refine ⟨fun i e he hv j hj => ((ht i).cache e he hv).mac_eq hj, ?_⟩
  rintro frame ⟨j, ⟨out, g, o⟩, hj, -, rfl⟩
  exact (ht j).frames _ _ _ (mem_transmissions.mp hj)

end Lan

/-- Router 1 asks for router 0, which answers with its own address. -/
theorem Lan.caches_true_own_answer : ∃ s, (∃ e ∈ (s 1).table.entries, e.valid = true ∧ e.ip4 = 0x0a000101) ∧
    Sample.lan.CachesTrue s ∧ Sample.lan.FramesTrue s := by
  obtain ⟨s, hs, hp⟩ := Lan.RunOf.of_replay Sample.lan Sample.lan.OwnAnswers 8
    [.request 1 0x0a000101,
      .deliver 0 (arpFrame broadcastMac (Sample.station 2) arpopRequest (Sample.station 2) 0x0a000102
        zeroMac 0x0a000101) (Sample.clockAt 0),
      .deliver 1 (arpFrame (Sample.station 2) (Sample.station 1) arpopReply (Sample.station 1) 0x0a000101
        (Sample.station 2) 0x0a000102) (Sample.clockAt 1)]
    (Sample.clockAt 0) (fun s => ∃ e ∈ (s 1).table.entries, e.valid = true ∧ e.ip4 = 0x0a000101)
    (by decide +kernel)
  exact ⟨s, hp, Lan.caches_true hs⟩

/-- Router 1 knows router 0 from a request. When router 2 asks for router 0, router 1 answers from its
cache, and router 2 learns a hardware address of zero bytes. -/
theorem Lan.caches_false : ∃ s, Sample.lan.RunOf (fun _ _ => True) s ∧ ¬ Sample.lan.CachesTrue s :=
  Lan.RunOf.of_replay Sample.lan (fun _ _ => True) 8
    [.request 0 0x0a000103,
      .deliver 1 (arpFrame broadcastMac (Sample.station 1) arpopRequest (Sample.station 1) 0x0a000101
        zeroMac 0x0a000103) (Sample.clockAt 0),
      .request 2 0x0a000101,
      .deliver 1 (arpFrame broadcastMac (Sample.station 3) arpopRequest (Sample.station 3) 0x0a000103
        zeroMac 0x0a000101) (Sample.clockAt 1),
      .deliver 2 (arpFrame (Sample.station 3) (Sample.station 2) arpopReply zeroMac 0x0a000101
        (Sample.station 3) 0x0a000103) (Sample.clockAt 1)]
    (Sample.clockAt 0) (fun s => ¬ Sample.lan.CachesTrue s) (by decide +kernel)

end StaticRouter
