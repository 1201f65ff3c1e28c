import Mathlib.Data.List.Perm.Basic
import StaticRouter.Proofs.ConservationProofs
import StaticRouter.Proofs.MachineProofs

/-!
# Proofs: who frees what

The machine makes the runs of the router, so no access to a freed block is among its faults. How many
blocks are live after a run, and what `arpcache_destroy` makes of them.
-/

namespace StaticRouter

open CMem

variable {rtable : List RtEntry}

/-! ## The slots of the ARP table -/

theorem learned_append (is is' : List Input) : learned (is ++ is') = learned is ++ learned is' := by
  rw [learned, List.filterMap_append, List.map_append]
  rfl

theorem newEntries_append (slots : List UInt32) (l l' : List UInt32) :
    newEntries slots (l ++ l') = newEntries slots l + newEntries (l.foldl learnSlots slots) l' := by
  induction l generalizing slots with
  | nil => rw [List.nil_append, newEntries, Nat.zero_add, List.foldl_nil]
  | cons ip4 l ih => rw [List.cons_append, newEntries, newEntries, ih, List.foldl_cons, Nat.add_assoc]

theorem map_ip4_refreshLoop (ip4 : UInt32) (mac : Mac) (es : List ArpCacheEntry) (c : Clock) :
    (refreshLoop ip4 mac es c).1.map (·.ip4) = es.map (·.ip4) := by
  induction es generalizing c with
  | nil => rfl
  | cons e es ih =>
    rw [refreshLoop]
    split_ifs
    · rw [List.map_cons, List.map_cons, ih]
    · rw [List.map_cons, List.map_cons, ih]

theorem map_ip4_expireLoop (es : List ArpCacheEntry) (c : Clock) :
    (expireLoop es c).1.map (·.ip4) = es.map (·.ip4) := by
  induction es generalizing c with
  | nil => rfl
  | cons e es ih =>
    rw [expireLoop, List.map_cons, List.map_cons, ih]
    split_ifs <;> rfl

namespace ArpTable

theorem ip4s_insert (before : ArpCacheEntry) (ip4 : UInt32) (mac : Mac) (t : ArpTable) (c : Clock) :
    (tableInsert before ip4 mac t c).1.ip4s = learnSlots t.ip4s ip4 := by
  by_cases hin : ip4 ∈ t.ip4s
  · rw [learnSlots, if_pos hin, ip4s, tableInsert_refresh (List.mem_map.mp hin), map_ip4_refreshLoop]
    rfl
  · have hfresh : ∀ e ∈ t.entries, e.ip4 ≠ ip4 := fun e he hip => hin (List.mem_map.mpr ⟨e, he, hip⟩)
    rw [learnSlots, if_neg hin, ip4s, tableInsert_fresh hfresh, List.map_cons, List.map_take]
    rfl

/-- Only an insertion changes the addresses in the slots. -/
theorem ip4s_does {act : Act} {st st' : Store} (hact : ∀ ip4 mac, act ≠ .learn ip4 mac) (hd : Does act st st') :
    st'.router.table.ip4s = st.router.table.ip4s := by
  cases hd with
  | submit ph hs =>
    obtain ⟨q, -, ⟨mac, frame, -, -, rfl⟩ | ⟨-, -, rfl⟩ | ⟨-, -, rfl⟩⟩ := ifaceSendPacketByArp_cases hs
    · rfl
    · rfl
    · rfl
  | learn => exact absurd rfl (hact _ _)
  | expire s => exact map_ip4_expireLoop s.table.entries s.env.clock
  | _ => rfl

theorem ip4s_path {st st' : Store} (hp : Path (fun act _ => ∀ ip4 mac, act ≠ .learn ip4 mac) st st') :
    st'.router.table.ip4s = st.router.table.ip4s :=
  hp.invariant (I := fun st' => st'.router.table.ip4s = st.router.table.ip4s)
    (fun _ _ _ hact h hd => (ip4s_does hact hd).trans h) rfl

end ArpTable

/-- The addresses in the slots after a step. -/
theorem Step.ip4s {i : Input} {s s' : Router} (hstep : Step rtable i s s') (hw : Store.Wf ⟨s, none⟩) :
    s'.table.ip4s = (learned [i]).foldl learnSlots s.table.ip4s := by
  rcases hstep.learns hw with ⟨ht, hpath⟩ | ⟨iface, packet, env, ip4, mac, s₁, rfl, ht, h₁, hlast⟩
  · rw [learned_of_none ht]
    exact ArpTable.ip4s_path hpath
  · obtain ⟨-, rfl⟩ := arpcacheInsert_ok h₁
    rw [learned_of_told ht]
    rcases hlast with rfl | ⟨frame, rfl⟩
    · exact ArpTable.ip4s_insert ..
    · exact ArpTable.ip4s_insert ..

/-- After a run, from the zeroed table on. -/
theorem Step.run_ip4s {is : List Input} {env : Env} {s : Router}
    (hs : Runs.Steps (Step rtable) (fun _ _ => True) is (arpcacheInit env) s) :
    s.table.ip4s = (learned is).foldl learnSlots ArpTable.zero.ip4s := by
  generalize hinit : arpcacheInit env = s₀ at hs
  induction hs with
  | refl =>
    subst hinit
    rfl
  | @step is i s₀ s₁ s₂ h _ hstep ih =>
    subst hinit
    rw [hstep.ip4s (RunOf.wf (h.runOf (.init ⟨env, rfl⟩))), ih rfl, learned_append, List.foldl_append]

/-! ## Steps -/

namespace Machine

variable {held : List (Nat × Frame)} {extra entries : Nat} {m m' : Machine} {s s' : Router} {is : List Input}

theorem Shows.withEnv (h : Shows held extra entries m s) (env : Env) :
    Shows held extra entries { m with env := env } { s with env := env } := { h with env := rfl }

/-- A step of the machine and the one of the router. -/
theorem Shows.doInput (h : Shows held extra entries m s) (fuel : Nat) (i : Input) :
    Agree (Shows held (extra + if i.isStray then 1 else 0) (entries + newEntries s.table.ip4s (learned [i])))
      (m.doInput rtable fuel i) (StaticRouter.doInput rtable fuel s i) := by
  cases i with
  | frame iface packet env =>
    have hr : Agree _ (Machine.receive rtable iface packet _) _ := (h.withEnv env).receive iface packet env
    by_cases hs : (Input.frame iface packet env).isStray = true
    · simp only [hs, if_true] at hr ⊢
      exact hr
    · simp only [hs] at hr ⊢
      exact hr
  | sweep env => exact (h.withEnv env).sweep fuel

theorem Shows.standsFor (h : Shows held extra entries m s) : m.StandsFor s := ⟨h.table, h.trace, h.owns.queues⟩

theorem init_shows (env : Env) : Shows [] 0 0 (init env) (arpcacheInit env) where
  table := rfl
  env := rfl
  next := rfl
  trace := rfl
  owns := ⟨.nil, by simp, List.nodup_nil⟩
  balance := ⟨rfl, rfl, rfl, rfl⟩
  ip4s := List.nodup_nil

theorem step_iff {i : Input} : Step rtable i m m' ↔ ∃ fuel, m.doInput rtable fuel i = .ok m' := by
  constructor
  · rintro (h | h)
    · exact ⟨0, h⟩
    · exact ⟨_, h⟩
  · rintro ⟨fuel, h⟩
    cases i with
    | frame => exact .frame h
    | sweep => exact .sweep h

/-! ## Runs -/

/-- The machine makes the runs of the router. -/
theorem Run.shows (h : Run rtable is m) : ∃ env s,
    Runs.Steps (StaticRouter.Step rtable) (fun _ _ => True) is (arpcacheInit env) s ∧
      Shows [] (is.countP Input.isStray) (newEntries ArpTable.zero.ip4s (learned is)) m s := by
  obtain ⟨env, h⟩ := h
  generalize hinit : init env = m₀ at h
  induction h with
  | refl =>
    subst hinit
    exact ⟨env, _, .refl _, init_shows env⟩
  | @step is i m₀ m₁ m₂ _ _ hstep ih =>
    obtain ⟨env', s₁, hs, h₁⟩ := ih hinit
    obtain ⟨fuel, hm⟩ := step_iff.mp hstep
    obtain ⟨s₂, hs₂, h₂⟩ := (h₁.doInput fuel i).exists_ok_right hm
    refine ⟨env', s₂, hs.step trivial (.of_doInput hs₂), ?_⟩
    rw [List.countP_append, List.countP_singleton, learned_append, newEntries_append, ← Step.run_ip4s hs]
    exact h₂

variable (rtable) in
/-- What a replay of the machine shows of its last state is true of some state of a run. -/
theorem Run.of_replay (fuel : Nat) (is : List Input) (P : Machine → Prop) [DecidablePred P]
    (h : (Runs.replay (fun _ _ => True) (fun i (m : Machine) => (m.doInput rtable fuel i).toOption) is
      (init (Sample.clockAt 0))).any (P ·) = true) : ∃ m, Run rtable is m ∧ P m := by
  have hexec : ∀ i (m m' : Machine), (m.doInput rtable fuel i).toOption = some m' → Step rtable i m m' :=
    fun i m m' h => step_iff.mpr ⟨fuel, toOption_eq_some.mp h⟩
  obtain ⟨m, hm, hp⟩ := Runs.Steps.of_replay hexec h
  exact ⟨m, ⟨_, hm⟩, hp⟩

end Machine

/-- No more packets are sent from the queues than were queued and do not wait. -/
def Store.Bounded (st : Store) : Prop :=
  (flushes st.router.trace).length + (waiting st.router.reqList).length ≤ (queuedTags st.router.trace).length

theorem Store.Bounded.append {st st' : Store} {new : List Event} (h : st.Bounded)
    (htr : st'.router.trace = st.router.trace ++ new)
    (hb : (flushes new).length + (waiting st'.router.reqList).length ≤
      (waiting st.router.reqList).length + (queuedTags new).length) : st'.Bounded := by
  unfold Store.Bounded at h ⊢
  rw [htr, flushes_append, queuedTags_append, List.length_append, List.length_append]
  omega

theorem Store.Bounded.does {st st' : Store} {act : Act} (h : st.Bounded) (hw : st.Wf) (hd : Does act st st') :
    st'.Bounded := by
  cases hd with
  | env => exact h
  | originate => exact h.append rfl (by simp [flushes, queuedTags, Router.log])
  | arp => exact h.append rfl (by simp [flushes, queuedTags, ifaceSendPacket, Router.log])
  | @submit s s' iface dst packet ph hs =>
    obtain ⟨q, hq, ⟨mac, frame, hl, -, rfl⟩ | ⟨-, hex, rfl⟩ | ⟨-, -, rfl⟩⟩ :=
      ifaceSendPacketByArp_cases hs
    · exact h.append (List.append_assoc _ _ _) (by simp [flushes, queuedTags])
    · have hjoin : (waiting (s.reqList.map fun r => if r.ip4 = dst then r.append ⟨s.next, q⟩ else r)).length =
          (waiting s.reqList).length + 1 := (waiting_join hw.ip4s hex).length_eq
      refine h.append (List.append_assoc _ _ _) ?_
      show 0 + (waiting (s.reqList.map _)).length ≤ (waiting s.reqList).length + 1
      rw [Nat.zero_add]
      exact hjoin.le
    · refine h.append (by rw [List.append_assoc, List.append_assoc, List.append_assoc]) ?_
      show 0 + (waiting (s.reqList ++ [_])).length ≤ _ + 1
      rw [waiting_append, List.length_append, Nat.zero_add]
      exact Nat.le_refl _
  | @learn s s' ip4 mac hi =>
    obtain ⟨-, rfl⟩ := arpcacheInsert_ok hi
    have hsplit := (waiting_filter s.reqList ip4).length_eq
    refine h.append rfl ?_
    rw [flushes_flush, queuedTags_flush, List.length_map]
    show _ + (waiting (s.reqList.filter _)).length ≤ (waiting s.reqList).length + 0
    rw [hsplit, List.length_append]
    omega
  | expire => exact h
  | @retry s node hlt =>
    refine h.append (List.append_nil _).symm ?_
    show 0 + (waiting (s.reqList.map _)).length ≤ _
    rw [waiting_map_congr fun r => by split_ifs <;> rfl]
    show 0 + (waiting s.reqList).length ≤ (waiting s.reqList).length + 0
    omega
  | begin => exact h
  | @giveUp s node tag ht =>
    have hone : (waiting s.reqList).length = (waiting (s.updateReq node (·.deletePkt tag)).reqList).length + 1 :=
      (waiting_giveUp hw ht).length_eq
    refine h.append rfl ?_
    show 0 + (waiting (s.updateReq node (·.deletePkt tag)).reqList).length ≤ (waiting s.reqList).length + 0
    omega
  | @unlink s node req hf =>
    refine h.append rfl ?_
    show 0 + (waiting (s.reqList.filter (·.node ≠ node))).length ≤ (waiting s.reqList).length + 0
    have hsub : (waiting (s.reqList.filter (·.node ≠ node))).Sublist (waiting s.reqList) :=
      List.filter_sublist.flatMap _
    have hle := hsub.length_le
    omega

/-- In every run. -/
theorem RunOf.bounded {C : Input → Router → Prop} {s : Router} (h : RunOf rtable C s) :
    (flushes s.trace).length + (waiting s.reqList).length ≤ (queuedTags s.trace).length :=
  RunOf.invariant (I := Store.Bounded) (G := fun _ _ => True)
    (fun env => by simp [Store.Bounded, arpcacheInit, flushes, queuedTags, waiting])
    (fun _ _ _ _ _ _ _ => trivial) (fun _ _ _ hw _ hi hd => hi.does hw hd) h

/-- As many packets wait on the lists of the machine as on those of the router. -/
theorem Machine.Shows.waiting_length {held : List (Nat × Frame)} {extra entries : Nat} {m : Machine} {s : Router}
    (h : m.Shows held extra entries s) :
    (m.reqList.flatMap (·.cachedPackets)).length = (waiting s.reqList).length := by
  have hqueues : m.reqList.map (fun r => r.cachedPackets.length) = s.reqList.map fun q => q.tags.length :=
    forall₂_map_eq h.owns.queues fun r q hrq => by
      rw [ArpReq.tags, List.length_map]
      exact hrq.queue.length_eq
  rw [waiting, List.length_flatMap, List.length_flatMap, hqueues]

/-- **What the heap keeps.** After every run, the live blocks are: for each packet that was queued, the packet
itself and its copy, but for the copies that `arpcache_insert` has sent; each frame of an unknown type; one
`struct cached_pkt` for each packet that was queued; one `struct arp_req` for each request that was opened; and
one `struct arp_cache_entry` for each insertion that found its address in none of the slots. So each packet that
was queued keeps a block for ever, and each one that still waits keeps two. -/
theorem machine_balance {is : List Input} {m : Machine} (h : Machine.Run rtable is m) :
    m.heap.count Block.isPacket + (flushes m.trace).length =
        2 * (queuedTags m.trace).length + is.countP Input.isStray ∧
      m.heap.count Block.isCachedPkt = (queuedTags m.trace).length ∧
      m.heap.count Block.isArpReq = (openings m.trace).length ∧
      m.heap.count Block.isCacheEntry = newEntries ArpTable.zero.ip4s (learned is) ∧
      (queuedTags m.trace).length + (m.reqList.flatMap (·.cachedPackets)).length ≤
        m.heap.count Block.isPacket := by
  obtain ⟨env, s, hs, h⟩ := h.shows
  have hpackets := h.balance.packets
  refine ⟨hpackets, h.balance.cachedPkts, h.balance.arpReqs, h.balance.cacheEntries, ?_⟩
  have hle := RunOf.bounded (hs.runOf (.init ⟨env, rfl⟩))
  rw [h.waiting_length]
  rw [h.trace] at hpackets ⊢
  omega

/-- Two packets wait, and one of them has been sent when its next hop answered, twice. -/
theorem machine_balance_answered : ∃ m : Machine,
    (m.heap.count Block.isPacket = 3 ∧ flushes m.trace = [(0, 0x0a000202)]) ∧
      m.heap.count Block.isCacheEntry = 1 := by
  obtain ⟨m, hm, hp⟩ := Machine.Run.of_replay Sample.connected 8
    [.frame Sample.eth0 (Sample.udp 0x0a000102 0x0a000202 64) (Sample.clockAt 0),
      .frame Sample.eth0 (Sample.udp 0x0a000102 0x0a000203 64) (Sample.clockAt 0),
      .frame Sample.eth1 (Sample.arpReply 0x0a000202 (Sample.station 9)) (Sample.clockAt 1),
      .frame Sample.eth1 (Sample.arpReply 0x0a000202 (Sample.station 9)) (Sample.clockAt 1)]
    (fun m => m.heap.count Block.isPacket = 3 ∧ flushes m.trace = [(0, 0x0a000202)]) (by decide +kernel)
  obtain ⟨-, -, -, hentries, -⟩ := machine_balance hm
  exact ⟨m, hp, hentries⟩

/-! ## `arpcache_destroy` -/

/-- The blocks of a request in the order in which `arpcache_destroy` frees them. -/
def ReqRef.freed (r : ReqRef) : List Nat := r.cachedPackets.flatMap (fun p => [p.packet, p.addr]) ++ [r.addr]

theorem ReqRef.freed_perm (r : ReqRef) : r.freed.Perm r.blocks := by
  refine (List.perm_append_comm).trans (List.Perm.cons _ ?_)
  exact List.Perm.flatMap_left _ fun p _ => List.Perm.swap p.addr p.packet []

namespace Machine

theorem destroyPackets_eq (pkts : List PktRef) (m : Machine) :
    destroyPackets pkts m = m.heap.freeAll (pkts.flatMap fun p => [p.packet, p.addr]) >>= fun heap =>
      .ok { m with heap := heap } := by
  induction pkts generalizing m with
  | nil => rfl
  | cons p pkts ih =>
    rw [destroyPackets, List.flatMap_cons, Heap.freeAll_append]
    unfold Machine.free
    cases h₁ : m.heap.free p.packet with
    | error e => simp [Heap.freeAll, h₁, error_bind]
    | ok heap₁ =>
      cases h₂ : heap₁.free p.addr with
      | error e => simp [Heap.freeAll, h₁, h₂, error_bind]
      | ok heap₂ => simp [Heap.freeAll, h₁, h₂, ih]

theorem destroyReqs_eq (reqs : List ReqRef) (m : Machine) :
    destroyReqs reqs m = m.heap.freeAll (reqs.flatMap ReqRef.freed) >>= fun heap =>
      .ok { m with heap := heap } := by
  induction reqs generalizing m with
  | nil => rfl
  | cons r reqs ih =>
    rw [destroyReqs, destroyPackets_eq, List.flatMap_cons, Heap.freeAll_append, ReqRef.freed,
      Heap.freeAll_append]
    unfold Machine.free
    cases h₁ : m.heap.freeAll (r.cachedPackets.flatMap fun p => [p.packet, p.addr]) with
    | error e => simp [error_bind]
    | ok heap₁ =>
      cases h₂ : heap₁.free r.addr with
      | error e => simp [Heap.freeAll, h₂, error_bind]
      | ok heap₂ => simp [Heap.freeAll, h₂, ih]

end Machine

/-- How many blocks of a request satisfy `p`. -/
theorem ReqRef.Holds.countP_blocks {h : Heap Block} {r : ReqRef} {q : ArpReq} (hrq : r.Holds h q)
    (p : Block → Bool) {k : Bool} (hp : ∀ b, p (.packet b) = k) :
    (r.blocks.countP fun x => (h.get x).any p) =
      (if p .arpReq then 1 else 0) +
        r.cachedPackets.length * ((if p .cachedPkt then 1 else 0) + if k then 1 else 0) := by
  have hqueue : ((r.cachedPackets.flatMap PktRef.blocks).countP fun x => (h.get x).any p) =
      r.cachedPackets.length * ((if p .cachedPkt then 1 else 0) + if k then 1 else 0) := by
    have hq := hrq.queue
    generalize r.cachedPackets = pkts at hq
    generalize q.cachedPackets = pkts' at hq
    induction hq with
    | nil => simp
    | @cons a b l l' hab _ ih =>
      rw [List.flatMap_cons, List.countP_append, ih, PktRef.blocks, List.countP_cons, List.countP_singleton,
        hab.struct, hab.packet, Option.any_some, Option.any_some, hp, List.length_cons, Nat.succ_mul]
      omega
  rw [ReqRef.blocks, List.countP_cons, hqueue, hrq.struct, Option.any_some, Nat.add_comm]

/-- How many blocks of the lists satisfy `p`. -/
theorem countP_linked {h : Heap Block} {refs : List ReqRef} {reqs : List ArpReq}
    (hq : List.Forall₂ (ReqRef.Holds h) refs reqs) (p : Block → Bool) {k : Bool}
    (hp : ∀ b, p (.packet b) = k) :
    ((refs.flatMap ReqRef.blocks).countP fun x => (h.get x).any p) =
      refs.length * (if p .arpReq then 1 else 0) + (refs.flatMap (·.cachedPackets)).length *
        ((if p .cachedPkt then 1 else 0) + if k then 1 else 0) := by
  induction hq with
  | nil => simp
  | @cons r q refs reqs hrq _ ih =>
    rw [List.flatMap_cons, List.countP_append, ih, hrq.countP_blocks p hp, List.flatMap_cons,
      List.length_append, List.length_cons, Nat.succ_mul, Nat.add_mul]
    omega

/-- **What `arpcache_destroy` frees.** After every run it frees each block that is on the lists, once, and no
other, so that it does not fault; but it does not return, as the signal that it sends to the sweeping thread ends
the process. Still live are then: of the packets one for each that was queued, one for each copy that was neither
sent nor waits, and each frame of an unknown type; of the structs those that were unlinked before, and those from
which slots of the ARP table were filled. -/
theorem machine_destroy {is : List Input} {m : Machine} (h : Machine.Run rtable is m) :
    ∃ m', m.arpcacheDestroy = .ok (.killed m') ∧ m'.reqList = [] ∧
      (∀ x, m'.heap.get x = if x ∈ m.linked then none else m.heap.get x) ∧
      m'.heap.count Block.isPacket + (flushes m.trace).length +
          (m.reqList.flatMap (·.cachedPackets)).length =
        2 * (queuedTags m.trace).length + is.countP Input.isStray ∧
      m'.heap.count Block.isCachedPkt + (m.reqList.flatMap (·.cachedPackets)).length =
        (queuedTags m.trace).length ∧
      m'.heap.count Block.isArpReq + m.reqList.length = (openings m.trace).length ∧
      m'.heap.count Block.isCacheEntry = newEntries ArpTable.zero.ip4s (learned is) := by
  obtain ⟨env, s, -, h⟩ := h.shows
  have hperm : (m.reqList.flatMap ReqRef.freed).Perm m.linked :=
    List.Perm.flatMap_left _ fun r _ => r.freed_perm
  have hnd : (m.reqList.flatMap ReqRef.freed).Nodup := hperm.nodup_iff.mpr h.owns.apart
  have hlive : ∀ a ∈ m.reqList.flatMap ReqRef.freed, ∃ b, m.heap.get a = some b := fun a ha =>
    h.owns.isLive (hperm.mem_iff.mp ha)
  obtain ⟨heap, hfree, hget⟩ := Heap.exists_freeAll hnd hlive
  have hcount : ∀ p, heap.count p + (m.linked.countP fun a => (m.heap.get a).any p) = m.heap.count p := by
    intro p
    rw [← hperm.countP_eq]
    exact Heap.count_freeAll p hfree hnd hlive
  refine ⟨{ m with heap := heap, reqList := [] }, ?_, rfl, fun x => ?_, ?_, ?_, ?_, ?_⟩
  · rw [Machine.arpcacheDestroy, Machine.destroyReqs_eq, hfree]
    rfl
  · show heap.get x = _
    rw [hget]
    exact if_congr hperm.mem_iff rfl rfl
  · have hc := hcount Block.isPacket
    rw [Machine.linked, countP_linked h.owns.queues _ (k := true) fun b => rfl] at hc
    simp only [Block.isPacket, Bool.false_eq_true, if_false, if_true] at hc
    have hp := h.balance.packets
    show heap.count Block.isPacket + _ + _ = _
    omega
  · have hc := hcount Block.isCachedPkt
    rw [Machine.linked, countP_linked h.owns.queues _ (k := false) fun b => rfl] at hc
    simp only [Block.isCachedPkt, Bool.false_eq_true, if_false, if_true] at hc
    have hp := h.balance.cachedPkts
    show heap.count Block.isCachedPkt + _ = _
    omega
  · have hc := hcount Block.isArpReq
    rw [Machine.linked, countP_linked h.owns.queues _ (k := false) fun b => rfl] at hc
    simp only [Block.isArpReq, Bool.false_eq_true, if_false, if_true] at hc
    have hp := h.balance.arpReqs
    show heap.count Block.isArpReq + _ = _
    omega
  · have hc := hcount Block.isCacheEntry
    rw [Machine.linked, countP_linked h.owns.queues _ (k := false) fun b => rfl] at hc
    simp only [Block.isCacheEntry, Bool.false_eq_true, if_false] at hc
    have hp := h.balance.cacheEntries
    show heap.count Block.isCacheEntry = _
    omega

/-- One packet was sent from its queue and one waits: the packets that were received stay live. -/
theorem machine_destroy_waiting : ∃ m m' : Machine, m.reqList.length = 1 ∧
    m.arpcacheDestroy = .ok (.killed m') ∧ m'.heap.count Block.isPacket + 2 = 4 := by
  obtain ⟨m, hm, hreq, hsent, hqueued, hwait⟩ := Machine.Run.of_replay Sample.connected 8
    [.frame Sample.eth0 (Sample.udp 0x0a000102 0x0a000202 64) (Sample.clockAt 0),
      .frame Sample.eth0 (Sample.udp 0x0a000102 0x0a000203 64) (Sample.clockAt 0),
      .frame Sample.eth1 (Sample.arpReply 0x0a000202 (Sample.station 9)) (Sample.clockAt 1)]
    (fun m => m.reqList.length = 1 ∧ (flushes m.trace).length = 1 ∧ (queuedTags m.trace).length = 2 ∧
      (m.reqList.flatMap (·.cachedPackets)).length = 1) (by decide +kernel)
  obtain ⟨m', hm', -, -, hpackets, -⟩ := machine_destroy hm
  rw [hsent, hqueued, hwait] at hpackets
  exact ⟨m, m', hreq, hm', hpackets⟩

end StaticRouter
