import Mathlib.Data.List.Flatten
import StaticRouter.Proofs.HeapProofs
import StaticRouter.Proofs.TeardownProofs

/-!
# Proofs: the machine stands for the router

Function by function: a function on the heap and the one on values agree, as long as the packets that the
function is given are live and have blocks of their own. `Rep` says what the blocks are at every point.
-/

namespace StaticRouter

open CMem

theorem learned_of_told {i : Input} {ip4 : UInt32} {mac : Mac} (h : told i = some (ip4, mac)) :
    learned [i] = [ip4] := by
  rw [learned, List.filterMap_cons_some h]
  rfl

theorem learned_of_none {i : Input} (h : told i = none) : learned [i] = [] := by
  rw [learned, List.filterMap_cons_none h]
  rfl

namespace Machine

variable {refs : List ReqRef} {reqs : List ArpReq} {held : List (Nat × Frame)} {extra entries a : Nat} {b : Frame}
  {m : Machine} {s : Router}

/-! ## Memory -/

theorem load_eq (hg : m.heap.get a = some (.packet b)) : m.load a = .ok b := by
  have hl : m.heap.load a = .ok (.packet b) := Heap.load_ok.mpr hg
  rw [load, hl]
  rfl

namespace Rep

theorem head (h : Rep refs reqs ((a, b) :: held) extra entries m s) : m.heap.get a = some (.packet b) :=
  h.owns.live (a, b) List.mem_cons_self

theorem load (h : Rep refs reqs ((a, b) :: held) extra entries m s) : m.load a = .ok b := load_eq h.head

theorem perm {held' : List (Nat × Frame)} (h : Rep refs reqs held extra entries m s) (hp : held.Perm held') :
    Rep refs reqs held' extra entries m s := { h with owns := h.owns.perm hp }

theorem log {e : Event} (h : Rep refs reqs held extra entries m s) (hf : flushes [e] = []) (hq : queuedTags [e] = [])
    (ho : openings [e] = []) : Rep refs reqs held extra entries (m.log e) (s.log e) where
  table := h.table
  env := h.env
  next := h.next
  trace := congrArg (· ++ [e]) h.trace
  owns := h.owns
  balance := h.balance.log hf hq ho
  ip4s := h.ip4s

/-- The packet in use is freed. -/
theorem free (h : Rep refs reqs ((a, b) :: held) (extra + 1) entries m s) :
    ∃ m', m.free a = .ok m' ∧ Rep refs reqs held extra entries m' s ∧ m'.reqList = m.reqList := by
  obtain ⟨h', hf⟩ := Heap.exists_free h.head
  refine ⟨{ m with heap := h' }, ?_, { h with owns := h.owns.free hf, balance := h.balance.free h.head hf }, rfl⟩
  rw [Machine.free, hf]
  rfl

/-- The packet in use is overwritten. -/
theorem store (h : Rep refs reqs ((a, b) :: held) extra entries m s) (c : Frame) :
    ∃ m', m.store a c = .ok m' ∧ Rep refs reqs ((a, c) :: held) extra entries m' s ∧ m'.reqList = m.reqList := by
  obtain ⟨h', hs⟩ := Heap.exists_store h.head (.packet c)
  refine ⟨{ m with heap := h' }, ?_,
    { h with owns := h.owns.store hs, balance := h.balance.store h.head hs }, rfl⟩
  rw [Machine.store, hs]
  rfl

/-- A write into the packet in use. -/
theorem write (h : Rep refs reqs ((a, b) :: held) extra entries m s) (off : Nat) (bs : List UInt8) :
    Agree (fun m' b' => Rep refs reqs ((a, b') :: held) extra entries m' s ∧ m'.reqList = m.reqList)
      (m.write a off bs) (b.write off bs) := by
  unfold Machine.write
  rw [h.load, ok_bind]
  cases b.write off bs with
  | error e => exact rfl
  | ok c =>
    obtain ⟨m', hs, h', hl⟩ := h.store c
    rw [ok_bind, hs]
    exact ⟨h', hl⟩

/-- A packet is allocated. -/
theorem malloc (h : Rep refs reqs held extra entries m s) (c : Frame) :
    Rep refs reqs ((m.heap.next, c) :: held) (extra + 1) entries (m.malloc (.packet c)).2 s :=
  { h with owns := h.owns.malloc_packet c, balance := h.balance.malloc_packet c }

/-- A packet is allocated whose contents are left to the surroundings. -/
theorem mallocBytes (h : Rep refs reqs held extra entries m s) (n : Nat) :
    Rep refs reqs ((m.heap.next, (s.malloc n).1) :: held) (extra + 1) entries (m.mallocBytes n).2 (s.malloc n).2 := by
  have hbytes : (List.range n).map (m.env.heap 0) = (s.malloc n).1 := by rw [h.env]; rfl
  refine { h.malloc ((s.malloc n).1) with env := ?_, owns := ?_, balance := ?_ }
  · show ({ m.env with heap := fun k => m.env.heap (k + 1) } : Env) = _
    rw [h.env]
    rfl
  · rw [← hbytes]
    exact h.owns.malloc_packet _
  · rw [← hbytes] at *
    exact h.balance.malloc_packet _

theorem rand (h : Rep refs reqs held extra entries m s) :
    m.rand.1 = s.rand.1 ∧ Rep refs reqs held extra entries m.rand.2 s.rand.2 := by
  refine ⟨?_, { h with env := ?_ }⟩
  · rw [Machine.rand, Router.rand, h.env]
  · show ({ m.env with rand := fun n => m.env.rand (n + 1) } : Env) = _
    rw [h.env]
    rfl

theorem time (h : Rep refs reqs held extra entries m s) :
    m.time.1 = s.time.1 ∧ Rep refs reqs held extra entries m.time.2 s.time.2 := by
  refine ⟨?_, { h with env := ?_ }⟩
  · rw [Machine.time, Router.time, h.env]
  · show ({ m.env with clock := m.env.clock.tail } : Env) = _
    rw [h.env]
    rfl

/-! ## `iface_send_packet` -/

/-- A packet is sent and freed that no queue holds. -/
theorem send (h : Rep refs reqs ((a, b) :: held) (extra + 1) entries m s) (iface : Iface) (origin : Origin)
    (ho : flushes [.sent iface b origin] = []) :
    ∃ m', ifaceSendPacket iface a origin m = .ok m' ∧
      Rep refs reqs held extra entries m' (StaticRouter.ifaceSendPacket iface b origin s) ∧
      m'.reqList = m.reqList := by
  have hlog := h.log (e := .sent iface b origin) ho rfl rfl
  obtain ⟨m', hf, h', hl⟩ := hlog.free
  refine ⟨m', ?_, h', hl⟩
  rw [ifaceSendPacket, h.load, ok_bind, hf]

/-- A packet of a queue is sent and freed. -/
theorem sendQueued (h : Rep refs reqs ((a, b) :: held) extra entries m s) (iface : Iface) (tag : Nat) (ip4 : UInt32) :
    ∃ m', ifaceSendPacket iface a (.flush tag ip4) m = .ok m' ∧
      Rep refs reqs held extra entries m' (StaticRouter.ifaceSendPacket iface b (.flush tag ip4) s) ∧
      m'.reqList = m.reqList := by
  obtain ⟨h', hf⟩ := Heap.exists_free h.head
  refine ⟨{ m.log (.sent iface b (.flush tag ip4)) with heap := h' }, ?_, ?_, rfl⟩
  · rw [ifaceSendPacket, h.load, ok_bind, Machine.free, Machine.log, hf]
    rfl
  · exact ⟨h.table, h.env, h.next, congrArg (· ++ [_]) h.trace, h.owns.free hf,
      h.balance.flushed h.head hf iface tag ip4, h.ip4s⟩

/-- `arp_send_request` -/
theorem arpSendRequest (h : Rep refs reqs held extra entries m s) (iface : Iface) (dst : UInt32) :
    ∃ m', Machine.arpSendRequest iface dst m = .ok m' ∧
      Rep refs reqs held extra entries m' (StaticRouter.arpSendRequest iface dst s) ∧ m'.reqList = m.reqList :=
  (h.malloc _).send iface .arp rfl

/-! ## `iface_send_packet_by_arp` -/

/-- The copy of a live packet. -/
theorem newPkt_eq (hg : m.heap.get a = some (.packet b)) (tag : Nat) :
    newPkt a tag m =
      .ok (⟨tag, m.heap.next, m.heap.next + 1⟩, { m with heap := withPkt b m.heap }) := by
  have hl : (m.malloc .cachedPkt).2.load a = .ok b := load_eq (Heap.get_malloc_of_get hg)
  rw [newPkt, hl]
  rfl

/-- No request is for the address. -/
theorem appendToReqs_none {ip4 : UInt32} {tag : Nat} (hnone : ∀ r ∈ refs, r.ip4 ≠ ip4) :
    appendToReqs ip4 a tag refs m = .ok (refs, m) := by
  induction refs with
  | nil => rfl
  | cons r refs ih =>
    rw [appendToReqs, if_neg (hnone r List.mem_cons_self), ih fun x hx => hnone x (List.mem_cons_of_mem r hx)]
    rfl

/-- One request is for the address. -/
theorem appendToReqs_one {A B : List ReqRef} (r : ReqRef) (tag : Nat)
    (hA : ∀ x ∈ A, x.ip4 ≠ r.ip4) (hB : ∀ x ∈ B, x.ip4 ≠ r.ip4) (hg : m.heap.get a = some (.packet b)) :
    appendToReqs r.ip4 a tag (A ++ r :: B) m =
      .ok (A ++ { r with cachedPackets := r.cachedPackets ++ [⟨tag, m.heap.next, m.heap.next + 1⟩] } :: B,
        { m with heap := withPkt b m.heap }) := by
  induction A with
  | nil =>
    rw [List.nil_append, appendToReqs, if_pos rfl, newPkt_eq hg, ok_bind, appendToReqs_none hB]
    rfl
  | cons x A ih =>
    rw [List.cons_append, appendToReqs, if_neg (hA x List.mem_cons_self),
      ih fun y hy => hA y (List.mem_cons_of_mem x hy)]
    rfl

end Rep

namespace Shows

/-- The addresses that are waited for. -/
theorem map_ip4 (h : Shows held extra entries m s) : m.reqList.map (·.ip4) = s.reqList.map (·.ip4) :=
  forall₂_map_eq h.owns.queues fun _ _ hrq => hrq.ip4

/-- A packet joins a request. -/
theorem join (h : Shows ((a, b) :: held) (extra + 1) entries m s) (iface : Iface) (tag : Nat) {A B : List ReqRef}
    {r : ReqRef} (hl : m.reqList = A ++ r :: B) :
    ∃ m', arpcacheAppendPacket iface r.ip4 a tag m = .ok m' ∧
      Shows held extra entries m' (StaticRouter.arpcacheAppendPacket iface r.ip4 b tag s) := by
  have hg : (m.log (.queued tag)).heap.get a = some (.packet b) := h.head
  have ho := h.owns
  rw [hl] at ho
  obtain ⟨A', q, B', hl', hA, hrq, hB⟩ := forall₂_split ho.queues
  rw [hl'] at ho
  have hnd := h.map_ip4 ▸ h.ip4s
  have hnd' := h.ip4s
  rw [hl, List.map_append, List.map_cons, List.nodup_append, List.nodup_cons] at hnd
  rw [hl'] at hnd'
  obtain ⟨-, ⟨hBn, -⟩, hAn⟩ := hnd
  have hloop := Rep.appendToReqs_one r tag
    (fun x hx he => hAn _ (List.mem_map_of_mem hx) _ List.mem_cons_self he)
    (fun x hx he => hBn (List.mem_map.mpr ⟨x, hx, he⟩)) hg
  have hany : (A ++ { r with cachedPackets := r.cachedPackets ++
      [⟨tag, m.heap.next, m.heap.next + 1⟩] } :: B).any (·.ip4 = r.ip4) = true := by simp
  have hany' : s.reqList.any (·.ip4 = r.ip4) = true := by
    rw [hl']
    simp [hrq.ip4]
  refine ⟨{ m.log (.queued tag) with
    heap := withPkt b m.heap
    reqList := A ++ { r with cachedPackets := r.cachedPackets ++ [⟨tag, m.heap.next, m.heap.next + 1⟩] } :: B },
    ?_, ?_⟩
  · show (appendToReqs r.ip4 a tag m.reqList (m.log (.queued tag)) >>= _) = _
    rw [hl, hloop, ok_bind]
    exact if_pos hany
  · have hs : StaticRouter.arpcacheAppendPacket iface r.ip4 b tag s =
        { s.log (.queued tag) with reqList := A' ++ q.append ⟨tag, b⟩ :: B' } := by
      rw [StaticRouter.arpcacheAppendPacket, ← map_update hnd' fun q => q.append ⟨tag, b⟩, hrq.ip4, ← hl']
      exact if_pos (hrq.ip4 ▸ hany')
    rw [hs]
    refine ⟨h.table, h.env, h.next, congrArg (· ++ [_]) h.trace, (ho.join hA.length_eq b tag).forget,
      h.balance.queued b tag, ?_⟩
    have hip : (A' ++ q.append ⟨tag, b⟩ :: B').map (·.ip4) = (A' ++ q :: B').map (·.ip4) := by
      simp [ArpReq.append]
    show ((A' ++ q.append ⟨tag, b⟩ :: B').map (·.ip4)).Nodup
    rw [hip]
    exact hnd'

/-- A packet opens a request. -/
theorem opens (h : Shows ((a, b) :: held) (extra + 1) entries m s) (iface : Iface) {ip4 : UInt32} (tag : Nat)
    (hnew : ∀ r ∈ m.reqList, r.ip4 ≠ ip4) :
    ∃ m', arpcacheAppendPacket iface ip4 a tag m = .ok m' ∧
      Shows held extra entries m' (StaticRouter.arpcacheAppendPacket iface ip4 b tag s) := by
  have hnew' : ∀ q ∈ s.reqList, q.ip4 ≠ ip4 := by
    intro q hq he
    have hm : ip4 ∈ m.reqList.map (·.ip4) := by
      rw [h.map_ip4]
      exact List.mem_map.mpr ⟨q, hq, he⟩
    obtain ⟨r, hr, he⟩ := List.mem_map.mp hm
    exact hnew r hr he
  have hany : ¬ m.reqList.any (·.ip4 = ip4) = true := by simpa using hnew
  have hany' : ¬ s.reqList.any (·.ip4 = ip4) = true := by simpa using hnew'
  have hg : ((m.log (.queued tag)).malloc .arpReq).2.time.2.heap.get a = some (.packet b) :=
    Heap.get_malloc_of_get h.head
  -- the clock is the same one
  obtain ⟨table, reqs, env, next, trace⟩ := s
  obtain rfl : m.env = env := h.env
  let req : ReqRef :=
    ⟨tag, m.heap.next, iface, ip4, m.env.clock 0, 0, [⟨tag, m.heap.next + 1, m.heap.next + 2⟩]⟩
  let m₁ : Machine := { m with
    env := { m.env with clock := m.env.clock.tail }
    trace := m.trace ++ [.queued tag] ++ [.opened ip4]
    heap := withPkt b (m.heap.malloc .arpReq).2
    reqList := m.reqList ++ [req] }
  let s₁ : Router :=
    ⟨table, reqs ++ [⟨tag, iface, ip4, m.env.clock 0, 0, [⟨tag, b⟩]⟩],
      { m.env with clock := m.env.clock.tail }, next, trace ++ [.queued tag] ++ [.opened ip4]⟩
  have h₁ : Shows held extra entries m₁ s₁ := by
    refine ⟨h.table, rfl, h.next, congrArg (· ++ [_] ++ [_]) h.trace,
      (h.owns.opens iface ip4 (m.env.clock 0) b tag).forget, h.balance.opened b tag ip4, ?_⟩
    · show ((reqs ++ [(⟨tag, iface, ip4, m.env.clock 0, 0, [⟨tag, b⟩]⟩ : ArpReq)]).map (·.ip4)).Nodup
      rw [List.map_append, List.nodup_append]
      refine ⟨h.ip4s, by simp, fun x hx y hy he => ?_⟩
      obtain ⟨q, hq, rfl⟩ := List.mem_map.mp hx
      rw [List.map_singleton, List.mem_singleton] at hy
      exact hnew' q hq (he.trans hy)
  obtain ⟨m', hm', h', hlist⟩ := h₁.arpSendRequest iface ip4
  refine ⟨m', ?_, ?_⟩
  · show (appendToReqs ip4 a tag m.reqList (m.log (.queued tag)) >>= _) = _
    rw [Rep.appendToReqs_none hnew, ok_bind]
    refine (if_neg hany).trans ?_
    show (newPkt a tag ((m.log (.queued tag)).malloc .arpReq).2.time.2 >>= _) = _
    rw [Rep.newPkt_eq hg, ok_bind]
    exact hm'
  · have hs : StaticRouter.arpcacheAppendPacket iface ip4 b tag ⟨table, reqs, m.env, next, trace⟩ =
        StaticRouter.arpSendRequest iface ip4 s₁ := if_neg hany'
    rw [hs]
    unfold Shows
    rw [hlist]
    exact h'

end Shows

/-- `arpcache_append_packet`: the packet is copied and stays live. -/
theorem Shows.append (h : Shows ((a, b) :: held) (extra + 1) entries m s) (iface : Iface) (ip4 : UInt32) (tag : Nat) :
    ∃ m', arpcacheAppendPacket iface ip4 a tag m = .ok m' ∧
      Shows held extra entries m' (StaticRouter.arpcacheAppendPacket iface ip4 b tag s) := by
  by_cases hex : ∃ r ∈ m.reqList, r.ip4 = ip4
  · obtain ⟨r, hr, rfl⟩ := hex
    obtain ⟨A, B, hl⟩ := List.append_of_mem hr
    exact h.join iface tag hl
  · push Not at hex
    exact h.opens iface tag hex

/-- A relation between the states that leaves the lists of requests as they are. -/
theorem Rep.shows {m' : Machine} {s' : Router} (h : Rep m.reqList s.reqList held extra entries m' s')
    (hm : m'.reqList = m.reqList) (hs : s'.reqList = s.reqList) : Shows held extra entries m' s' := by
  unfold Shows
  rw [hm, hs]
  exact h

/-- The packet in use is freed, and nothing else happens. -/
theorem Shows.freed (h : Shows ((a, b) :: held) (extra + 1) entries m s) :
    Agree (Shows held extra entries) (m.free a) (.ok s) := by
  obtain ⟨m', hf, h', hl⟩ := Rep.free h
  rw [hf]
  exact h'.shows hl rfl

/-- `iface_send_packet_by_arp`: the packet is freed when it is sent, and stays live when it is queued. -/
theorem Shows.submit (h : Shows ((a, b) :: held) (extra + 1) entries m s) (iface : Iface) (dst : UInt32) :
    Agree (Shows held extra entries) (ifaceSendPacketByArp iface dst a m)
      (StaticRouter.ifaceSendPacketByArp iface dst b s) := by
  let m₁ : Machine := { m.log (.submitted m.next iface dst b) with next := m.next + 1 }
  let s₁ : Router := { s.log (.submitted s.next iface dst b) with next := s.next + 1 }
  have h₁ : Rep m.reqList s.reqList ((a, b) :: held) (extra + 1) entries m₁ s₁ := by
    have hlog := Rep.log (e := .submitted m.next iface dst b) h rfl rfl rfl
    refine { hlog with next := congrArg (· + 1) h.next, trace := ?_ }
    show m.trace ++ [_] = s.trace ++ [_]
    rw [h.trace, h.next]
  unfold ifaceSendPacketByArp StaticRouter.ifaceSendPacketByArp
  rw [Rep.load h, ok_bind]
  refine Agree.bind (h₁.write etherShost iface.mac.val) ?_
  rintro m₂ b₂ ⟨h₂, hl₂⟩
  refine Agree.bind (h₂.write etherType (Buffer.be16 ethPIp)) ?_
  rintro m₃ b₃ ⟨h₃, hl₃⟩
  have htag : m.next = s.next := h.next
  have htable : m₃.table = s.table := h₃.table
  have hlist : m₃.reqList = m.reqList := hl₃.trans hl₂
  rw [htag, htable]
  have hsame : arpcacheLookup (s.log (.submitted s.next iface dst b)).table dst = arpcacheLookup s.table dst := rfl
  simp only [hsame]
  cases arpcacheLookup s.table dst with
  | some mac =>
    refine Agree.bind (h₃.write etherDhost mac.val) ?_
    rintro m₄ b₄ ⟨h₄, hl₄⟩
    obtain ⟨m', hsend, h', hl'⟩ := h₄.send iface (.direct s.next) rfl
    rw [hsend]
    exact h'.shows (hl'.trans (hl₄.trans hlist)) rfl
  | none =>
    obtain ⟨m', happ, h'⟩ := (h₃.shows hlist rfl).append iface dst s.next
    rw [happ]
    exact h'

/-! ## `arpcache_insert` -/

theorem flushPackets_agree (iface : Iface) (ip4 : UInt32) (mac : Mac) {pkts : List PktRef}
    {cached : List CachedPkt} (ht : List.Forall₂ (fun r p => r.tag = p.tag) pkts cached)
    (h : Rep refs reqs (inUse pkts cached ++ held) extra entries m s) :
    Agree (fun m' s' => Rep refs reqs held extra entries m' s' ∧ m'.reqList = m.reqList ∧ s'.reqList = s.reqList)
      (flushPackets iface ip4 mac pkts m) (StaticRouter.flushPackets iface ip4 mac cached s) := by
  induction ht generalizing m s with
  | nil => exact ⟨h, rfl, rfl⟩
  | @cons r p pkts cached htag _ ih =>
    rw [flushPackets, StaticRouter.flushPackets]
    have hhead : Rep refs reqs ((r.packet, p.packet) :: (inUse pkts cached ++ held)) extra entries m s := h
    refine Agree.bind (hhead.write etherDhost mac.val) ?_
    rintro m₁ b₁ ⟨h₁, hl₁⟩
    obtain ⟨m₂, hsend, h₂, hl₂⟩ := h₁.sendQueued iface p.tag ip4
    rw [htag, hsend, ok_bind]
    refine (ih h₂).mono ?_
    rintro m' s' ⟨h', hm', hs'⟩
    exact ⟨h', hm'.trans (hl₂.trans hl₁), hs'⟩

theorem flushReqs_agree (ip4 : UInt32) (mac : Mac) {todo : List ReqRef} {todo' : List ArpReq}
    (kept : List ReqRef) (kept' : List ArpReq) (hkept : kept.length = kept'.length)
    (h : Rep (kept ++ todo) (kept' ++ todo') held extra entries m s) :
    Agree (fun m' s' => Rep (kept ++ todo.filter (·.ip4 ≠ ip4)) (kept' ++ todo'.filter (·.ip4 ≠ ip4)) held
        extra entries m' s' ∧ m'.reqList = m.reqList ∧ s'.reqList = s.reqList)
      (flushReqs ip4 mac todo m) (StaticRouter.flushReqs ip4 mac todo' s) := by
  induction todo generalizing kept kept' todo' m s with
  | nil =>
    have hlen := h.owns.queues.length_eq
    rw [List.append_nil, List.length_append] at hlen
    obtain rfl : todo' = [] := List.length_eq_zero_iff.mp (by omega)
    exact ⟨h, rfl, rfl⟩
  | cons r todo ih =>
    obtain ⟨A, q, B, heq, hA, hrq, -⟩ := forall₂_split h.owns.queues
    obtain ⟨rfl, rfl⟩ := List.append_inj heq (hkept.symm.trans hA.length_eq)
    rw [flushReqs, StaticRouter.flushReqs, hrq.ip4]
    by_cases hip : q.ip4 = ip4
    · rw [if_pos hip, if_pos hip, List.filter_cons_of_neg (by simpa [hrq.ip4] using hip),
        List.filter_cons_of_neg (by simpa using hip), hrq.iface]
      have htags : List.Forall₂ (fun r p => r.tag = p.tag) r.cachedPackets q.cachedPackets :=
        hrq.queue.imp fun _ _ hp => hp.tag
      have hout : Rep (kept ++ todo) (kept' ++ B) (inUse r.cachedPackets q.cachedPackets ++ held) extra entries m s :=
        { h with
          owns := h.owns.takeOut hkept
          ip4s := h.ip4s.sublist (((List.sublist_cons_self q B).append_left kept').map _) }
      refine Agree.bind (flushPackets_agree q.iface ip4 mac htags hout) ?_
      rintro m₁ s₁ ⟨h₁, hm₁, hs₁⟩
      refine (ih kept kept' hkept h₁).mono ?_
      rintro m' s' ⟨h', hm', hs'⟩
      exact ⟨h', hm'.trans hm₁, hs'.trans hs₁⟩
    · rw [if_neg hip, if_neg hip, List.filter_cons_of_pos (by simpa [hrq.ip4] using hip),
        List.filter_cons_of_pos (by simpa using hip)]
      have h' : Rep ((kept ++ [r]) ++ todo) ((kept' ++ [q]) ++ B) held extra entries m s := by
        rw [List.append_assoc, List.append_assoc]
        exact h
      have hrest := ih (kept ++ [r]) (kept' ++ [q]) (by simp [hkept]) h'
      rw [List.append_assoc, List.append_assoc] at hrest
      exact hrest

/-- `arpcache_insert` -/
theorem Shows.insert (h : Shows held extra entries m s) (ip4 : UInt32) (mac : Mac) :
    Agree (Shows held extra (entries + newEntries s.table.ip4s [ip4])) (arpcacheInsert ip4 mac m)
      (StaticRouter.arpcacheInsert ip4 mac s) := by
  obtain ⟨m₀, hm₀⟩ : ∃ m₀, m₀ = if m.table.entries.any (·.ip4 = ip4) then m else (m.malloc .cacheEntry).2 :=
    ⟨_, rfl⟩
  have h₀ : Rep m.reqList s.reqList held extra (entries + newEntries s.table.ip4s [ip4]) m₀ s ∧
      m₀.reqList = m.reqList := by
    have hslots : m.table.entries.any (·.ip4 = ip4) = true ↔ ip4 ∈ s.table.ip4s := by
      rw [h.table, ArpTable.ip4s, List.mem_map]
      simp
    rw [hm₀]
    by_cases hany : ip4 ∈ s.table.ip4s
    · rw [if_pos (hslots.mpr hany), newEntries, if_pos hany]
      exact ⟨h, rfl⟩
    · rw [if_neg fun h => hany (hslots.mp h), newEntries, if_neg hany]
      exact ⟨{ h with owns := h.owns.malloc _, balance := h.balance.malloc_cacheEntry }, rfl⟩
  obtain ⟨h₀, hl₀⟩ := h₀
  generalize entries + newEntries s.table.ip4s [ip4] = entries at h₀ ⊢
  unfold arpcacheInsert StaticRouter.arpcacheInsert
  rw [← hm₀]
  obtain ⟨table, reqs, env, next, trace⟩ := s
  obtain rfl : m₀.table = table := h₀.table
  obtain rfl : m₀.env = env := h₀.env
  let r := tableInsert m₀.env.before ip4 mac m₀.table m₀.env.clock
  let m₁ : Machine := { m₀ with table := r.1, env := { m₀.env with clock := r.2 } }
  let s₁ : Router := ⟨r.1, reqs, { m₀.env with clock := r.2 }, next, trace⟩
  have h₁ : Rep ([] ++ m₁.reqList) ([] ++ s₁.reqList) held extra entries m₁ s₁ := by
    show Rep m₀.reqList reqs held extra entries m₁ s₁
    rw [hl₀]
    exact { h₀ with table := rfl, env := rfl }
  refine Agree.bind (flushReqs_agree ip4 mac [] [] rfl h₁) ?_
  rintro m' s' ⟨h', hm', hs'⟩
  refine Rep.shows (m := { m₁ with reqList := m'.reqList.filter (·.ip4 ≠ ip4) })
    (s := { s₁ with reqList := s'.reqList.filter (·.ip4 ≠ ip4) }) ?_ rfl rfl
  rw [hm', hs']
  exact { h' with }

/-! ## `handle_arp_packet` -/

/-- The sender hardware address of a reply is filled in later. -/
theorem write_arpFrame_sha (dhost shost tha mac : Mac) (op : UInt16) (spa tpa : UInt32) :
    (arpFrame dhost shost op zeroMac spa tha tpa).write arpSha mac.val =
      .ok (arpFrame dhost shost op mac spa tha tpa) := by
  obtain ⟨_, _, _, _, _, _, hd⟩ := dhost.eq_bytes
  obtain ⟨_, _, _, _, _, _, hs⟩ := shost.eq_bytes
  obtain ⟨_, _, _, _, _, _, ht⟩ := tha.eq_bytes
  obtain ⟨_, _, _, _, _, _, hm⟩ := mac.eq_bytes
  simp only [arpFrame, hd, hs, ht, hm]
  rfl

/-- `arp_send_reply`. The packet that holds the request stays live. -/
theorem Shows.reply (h : Shows ((a, b) :: held) extra entries m s) (iface : Iface) (req : EtherArp)
    (hb : etherHdrSize + etherArpSize ≤ b.length) :
    ∃ m' b', arpSendReply iface a req m = .ok m' ∧
      Shows ((a, b') :: held) extra entries m' (StaticRouter.arpSendReply iface req s) := by
  let p := m.malloc (.packet (arpFrame req.sha iface.mac arpopReply zeroMac req.tpa req.sha req.spa))
  have h₁ : Rep m.reqList s.reqList ((p.1, arpFrame req.sha iface.mac arpopReply zeroMac req.tpa req.sha req.spa) ::
      (a, b) :: held) (extra + 1) entries p.2 s := Rep.malloc h _
  unfold Machine.arpSendReply StaticRouter.arpSendReply
  by_cases hown : req.tpa = iface.ip
  · rw [if_pos hown, if_pos hown]
    obtain ⟨m₂, hw, h₂, hl₂⟩ := (h₁.write arpSha iface.mac.val).exists_ok (write_arpFrame_sha ..)
    obtain ⟨m', hs, h', hl'⟩ := h₂.send iface .arp rfl
    refine ⟨m', b, ?_, h'.shows (hl'.trans hl₂) rfl⟩
    show (p.2.write p.1 arpSha iface.mac.val >>= _) = _
    rw [hw, ok_bind]
    exact hs
  · rw [if_neg hown, if_neg hown, h.table]
    cases arpcacheLookup s.table req.tpa with
    | some mac =>
      have h₂ := h₁.perm (List.Perm.swap _ _ _)
      have hfit : arpTha + mac.val.length ≤ b.length := by
        rw [mac.property]
        exact Nat.le_trans (by decide) hb
      obtain ⟨c, hc, -⟩ := Buffer.exists_write arpTha mac.val hfit
      obtain ⟨m₃, hw, h₃, hl₃⟩ := (h₂.write arpTha mac.val).exists_ok hc
      obtain ⟨m', hs, h', hl'⟩ := (h₃.perm (List.Perm.swap _ _ _)).send iface .arp rfl
      refine ⟨m', c, ?_, h'.shows (hl'.trans hl₃) rfl⟩
      show (p.2.write a arpTha mac.val >>= _) = _
      rw [hw, ok_bind]
      exact hs
    | none =>
      obtain ⟨m', hf, h', hl'⟩ := h₁.free
      exact ⟨m', b, hf, h'.shows hl' rfl⟩

/-- `handle_arp_packet` -/
theorem Shows.handleArp (h : Shows ((a, b) :: held) (extra + 1) entries m s) (iface : Iface) (env : Env)
    (harp : b.readU16 etherType = .ok ethPArp) :
    Agree (Shows held extra (entries + newEntries s.table.ip4s (learned [.frame iface b env])))
      (handleArpPacket iface a m) (StaticRouter.handleArpPacket iface b s) := by
  unfold Machine.handleArpPacket StaticRouter.handleArpPacket
  rw [Rep.load h, ok_bind]
  refine Agree.bind_same fun ea hea => ?_
  rw [learned_of_told (told_arp harp hea)]
  refine Agree.bind (h.insert ea.spa ea.sha) fun m₁ s₁ h₁ => ?_
  rw [Rep.load h₁, ok_bind, hea, ok_bind]
  by_cases hop : ea.op = arpopRequest
  · have hlen : etherHdrSize + etherArpSize ≤ b.length := (Buffer.readU32_ok.mp (readEtherArp_ok.mp hea).2.1).1
    obtain ⟨m₂, b₂, hr, h₂⟩ := h₁.reply iface ea hlen
    rw [if_pos hop, if_pos hop, hr, ok_bind]
    exact h₂.freed
  · rw [if_neg hop, if_neg hop, ok_bind]
    exact h₁.freed

/-! ## `icmp.c` and `ip_forwarding.c` -/

variable {rtable : List RtEntry}

/-- A message is built in fresh memory from the live packet at `a`, and submitted. -/
theorem Shows.message (h : Shows held extra entries m s) (n : Nat) (build : Frame → UInt16 → Except Fault Frame)
    (type code : UInt8) (iface : Iface) (dst : UInt32) :
    Agree (Shows held extra entries)
      ((m.mallocBytes n).2.rand.2.load (m.mallocBytes n).1 >>= fun fresh =>
        build fresh (m.mallocBytes n).2.rand.1 >>= fun packet =>
          (m.mallocBytes n).2.rand.2.store (m.mallocBytes n).1 packet >>= fun m₁ =>
            ifaceSendPacketByArp iface dst (m.mallocBytes n).1 (m₁.log (.originated type code dst)))
      (build (s.malloc n).1 (s.malloc n).2.rand.1 >>= fun packet =>
        StaticRouter.ifaceSendPacketByArp iface dst packet
          ((s.malloc n).2.rand.2.log (.originated type code dst))) := by
  have h₁ := Rep.mallocBytes h n
  obtain ⟨hid, h₂⟩ := h₁.rand
  have hload : (m.mallocBytes n).2.rand.2.load (m.mallocBytes n).1 = .ok (s.malloc n).1 := h₂.load
  rw [hload, ok_bind, hid]
  refine Agree.bind_same fun packet _ => ?_
  obtain ⟨m₃, hs, h₃, hl₃⟩ := h₂.store packet
  rw [show (m.mallocBytes n).1 = m.heap.next from rfl, hs, ok_bind]
  have h₄ := h₃.log (e := .originated type code dst) rfl rfl rfl
  exact (h₄.shows (m := m) (s := s) hl₃ rfl).submit iface dst

/-- `icmp_send_packet`. The packet that the message is about is read only. -/
theorem Shows.icmp (h : Shows held extra entries m s) (hg : m.heap.get a = some (.packet b)) (type code : UInt8) :
    Agree (Shows held extra entries) (icmpSendPacket rtable a type code m)
      (StaticRouter.icmpSendPacket rtable b type code s) := by
  unfold Machine.icmpSendPacket StaticRouter.icmpSendPacket
  rw [load_eq hg, ok_bind]
  refine Agree.bind_same fun ihl _ => Agree.bind_same fun saddr _ => ?_
  cases longestPrefixMatch rtable saddr with
  | none => exact h
  | some rt =>
    by_cases h0 : type = 0
    · simp only [if_pos h0]
      exact h.message b.length (fun fresh id => icmpEchoReply fresh b ihl rt.iface.ip saddr code id) type code
        rt.iface saddr
    · simp only [if_neg h0]
      by_cases herr : type = 3 ∨ type = 11
      · simp only [if_pos herr]
        exact h.message icmpErrorLen (fun fresh id => icmpError fresh b rt.iface.ip saddr type code id) type code
          rt.iface saddr
      · simp only [if_neg herr]
        by_cases h8 : type = 8
        · rw [if_pos h8, if_pos h8]
          exact rfl
        · rw [if_neg h8, if_neg h8]
          exact h

/-- `icmp_send_packet` about the packet in use, which is freed then. -/
theorem Shows.icmp_free (h : Shows ((a, b) :: held) (extra + 1) entries m s) (type code : UInt8) :
    Agree (Shows held extra entries) (icmpSendPacket rtable a type code m >>= fun m => m.free a)
      (StaticRouter.icmpSendPacket rtable b type code s) := by
  have hb : StaticRouter.icmpSendPacket rtable b type code s =
      StaticRouter.icmpSendPacket rtable b type code s >>= fun s => .ok s := by
    cases StaticRouter.icmpSendPacket rtable b type code s <;> rfl
  rw [hb]
  exact Agree.bind (h.icmp (Rep.head h) type code) fun _ _ h' => h'.freed

/-- `ip_forward_packet` -/
theorem Shows.forward (h : Shows ((a, b) :: held) (extra + 1) entries m s) (ipDst : UInt32) :
    Agree (Shows held extra entries) (ipForwardPacket rtable ipDst a m)
      (StaticRouter.ipForwardPacket rtable ipDst b s) := by
  unfold Machine.ipForwardPacket StaticRouter.ipForwardPacket
  rw [Rep.load h, ok_bind]
  refine Agree.bind_same fun ttl _ => ?_
  by_cases ht : (ttl.toNat : Int) - 1 ≤ 0
  · rw [if_pos ht, if_pos ht]
    exact h.icmp_free 11 0
  · rw [if_neg ht, if_neg ht]
    cases longestPrefixMatch rtable ipDst with
    | none => exact h.icmp_free 3 0
    | some rt =>
      refine Agree.bind_same fun out _ => ?_
      obtain ⟨m₁, hs, h₁, hl₁⟩ := Rep.store h out
      rw [hs, ok_bind]
      exact Agree.bind_same fun daddr _ => (h₁.shows hl₁ rfl).submit _ _

/-- `handle_ip_packet` -/
theorem Shows.handleIp (h : Shows ((a, b) :: held) (extra + 1) entries m s) (iface : Iface) :
    Agree (Shows held extra entries) (handleIpPacket rtable iface a m)
      (StaticRouter.handleIpPacket rtable iface b s) := by
  unfold Machine.handleIpPacket StaticRouter.handleIpPacket
  rw [Rep.load h, ok_bind]
  refine Agree.bind_same fun daddr _ => ?_
  by_cases hd : daddr = iface.ip
  · rw [if_pos hd, if_pos hd]
    exact h.icmp_free 0 0
  · rw [if_neg hd, if_neg hd]
    exact h.forward daddr

/-- One frame, from its reception on. Only a frame of an unknown type stays live. -/
theorem Shows.receive (h : Shows held extra entries m s) (iface : Iface) (frame : Frame) (env : Env) :
    Agree (Shows held (if (Input.frame iface frame env).isStray then extra + 1 else extra)
        (entries + newEntries s.table.ip4s (learned [.frame iface frame env])))
      (receive rtable iface frame m) (StaticRouter.handlePacket rtable iface frame s) := by
  have h₁ : Shows ((m.heap.next, frame) :: held) (extra + 1) entries (m.malloc (.packet frame)).2 s :=
    Rep.malloc h frame
  have hload : (m.malloc (.packet frame)).2.load (m.malloc (.packet frame)).1 = .ok frame := Rep.load h₁
  show Agree _ (Machine.handlePacket rtable iface (m.malloc (.packet frame)).1 (m.malloc (.packet frame)).2) _
  rw [Machine.handlePacket, StaticRouter.handlePacket, hload, ok_bind]
  refine Agree.bind_same fun type ht => ?_
  have hnone : type ≠ ethPArp → learned [.frame iface frame env] = [] := fun hne =>
    learned_of_none (if_neg (by simpa [ht] using hne))
  unfold Input.isStray
  simp only [ht, Except.ok.injEq, ne_eq]
  by_cases hip : type = ethPIp
  · rw [if_pos hip, if_pos hip]
    rw [hnone (hip ▸ by decide)]
    simp only [hip, not_true_eq_false, false_and, decide_false, Bool.false_eq_true, if_false]
    exact h₁.handleIp iface
  · rw [if_neg hip, if_neg hip]
    by_cases harp : type = ethPArp
    · rw [if_pos harp, if_pos harp]
      simp only [harp, not_true_eq_false, and_false, decide_false, Bool.false_eq_true, if_false]
      exact h₁.handleArp iface env (harp ▸ ht)
    · rw [if_neg harp, if_neg harp, hnone harp]
      simp only [hip, harp, not_false_eq_true, and_self, decide_true, if_true]
      exact { h₁ with owns := h₁.owns.forget }

/-! ## The sweep -/

namespace Shows

/-- The request that a pointer leads to. -/
theorem findReq (h : Shows held extra entries m s) (node : Nat) :
    (m.findReq node = none ∧ s.findReq node = none) ∨
      ∃ r q, m.findReq node = some r ∧ s.findReq node = some q ∧ r.Holds m.heap q :=
  forall₂_find? h.owns.queues fun _ _ hrq => by rw [hrq.node]

theorem queueNodes (h : Shows held extra entries m s) (node : Nat) : m.queueNodes node = s.queueNodes node := by
  unfold Machine.queueNodes Router.queueNodes
  rcases h.findReq node with ⟨hm, hs⟩ | ⟨r, q, hm, hs, hrq⟩
  · rw [hm, hs]
    rfl
  · rw [hm, hs]
    exact forall₂_map_eq hrq.queue fun _ _ hp => hp.tag

/-- A request is changed in place. -/
theorem update (h : Shows held extra entries m s) (node : Nat) {f : ReqRef → ReqRef} {g : ArpReq → ArpReq}
    (hfg : ∀ r q, r.Holds m.heap q → (f r).Holds m.heap (g q)) (hf : ∀ r, (f r).blocks.Sublist r.blocks)
    (hg : ∀ q, (g q).ip4 = q.ip4) : Shows held extra entries (m.updateReq node f) (s.updateReq node g) := by
  refine ⟨h.table, h.env, h.next, h.trace, h.owns.sublist ?_ ?_, h.balance, ?_⟩
  · refine List.rel_map ?_ h.owns.queues
    intro r q hrq
    show ReqRef.Holds m.heap (if r.node = node then f r else r) (if q.node = node then g q else q)
    rw [hrq.node]
    split_ifs
    · exact hfg r q hrq
    · exact hrq
  · show ((m.reqList.map fun r => if r.node = node then f r else r).flatMap ReqRef.blocks).Sublist _
    rw [List.flatMap_map]
    refine List.Sublist.flatMap_right _ fun r _ => ?_
    split_ifs
    · exact hf r
    · exact List.Sublist.refl _
  · have hip : (s.updateReq node g).reqList.map (·.ip4) = s.reqList.map (·.ip4) := by
      show (s.reqList.map _).map _ = _
      rw [List.map_map]
      refine List.map_congr_left fun q _ => ?_
      show (if q.node = node then g q else q).ip4 = q.ip4
      split_ifs
      · exact hg q
      · rfl
    rw [hip]
    exact h.ip4s

/-- A request is unlinked. -/
theorem unlink (h : Shows held extra entries m s) (node : Nat) :
    Shows held extra entries { m with reqList := m.reqList.filter (·.node ≠ node) }
      { s with reqList := s.reqList.filter (·.node ≠ node) } := by
  refine ⟨h.table, h.env, h.next, h.trace, h.owns.sublist ?_ ?_, h.balance, ?_⟩
  · exact forall₂_filter h.owns.queues fun _ _ hrq => by rw [hrq.node]
  · exact List.filter_sublist.flatMap _
  · exact h.ip4s.sublist (List.filter_sublist.map _)

theorem logged {e : Event} (h : Shows held extra entries m s) (hf : flushes [e] = []) (hq : queuedTags [e] = [])
    (ho : openings [e] = []) : Shows held extra entries (m.log e) (s.log e) := Rep.log h hf hq ho

/-- The body of the inner loop. -/
theorem sweepPacket (h : Shows held extra entries m s) (node tag : Nat) :
    Agree (Shows held extra entries) (Machine.sweepPacket rtable node tag m)
      (StaticRouter.sweepPacket rtable node tag s) := by
  unfold Machine.sweepPacket StaticRouter.sweepPacket
  rcases h.findReq node with ⟨hm, hs⟩ | ⟨r, q, hm, hs, hrq⟩
  · rw [hm, hs]
    exact rfl
  · rw [hm, hs]
    simp only [Option.bind_some]
    rcases forall₂_find? hrq.queue (p := fun p => decide (p.tag = tag)) (q := fun p => decide (p.tag = tag))
      (fun _ _ hp => by rw [hp.tag]) with ⟨hm, hs⟩ | ⟨p, c, hm, hs, hpc⟩
    · rw [hm, hs]
      exact rfl
    · rw [hm, hs]
      refine Agree.bind (h.icmp hpc.packet 3 1) fun m₁ s₁ h₁ => ?_
      refine Shows.logged (h₁.update node ?_ ?_ ?_) rfl rfl rfl
      · exact fun r q hrq => { hrq with queue := forall₂_filter hrq.queue fun _ _ hp => by rw [hp.tag] }
      · exact fun r => .cons_cons r.addr (List.filter_sublist.flatMap _)
      · exact fun _ => rfl

/-- The body of the outer loop. -/
theorem sweepReq (h : Shows held extra entries m s) (fuel node : Nat) :
    Agree (Shows held extra entries) (Machine.sweepReq rtable fuel node m)
      (StaticRouter.sweepReq rtable fuel node s) := by
  unfold Machine.sweepReq StaticRouter.sweepReq
  rcases h.findReq node with ⟨hm, hs⟩ | ⟨r, q, hm, hs, hrq⟩
  · rw [hm, hs]
    exact rfl
  · rw [hm, hs]
    simp only [hrq.retries, hrq.ip4]
    by_cases h5 : q.retries ≥ 5
    · rw [if_pos h5, if_pos h5]
      refine Agree.bind (Agree.forEachSafe (fun a b hab => hab.queueNodes node)
        (fun p a b hab => hab.sweepPacket node p) fuel h) fun m₁ s₁ h₁ => ?_
      exact (h₁.unlink node).logged rfl rfl rfl
    · rw [if_neg h5, if_neg h5]
      obtain ⟨ht, h₁⟩ := Rep.time h
      rw [ht, hrq.sent]
      by_cases hsent : s.time.1 - q.sent ≥ 1
      · rw [if_pos hsent, if_pos hsent, hrq.iface]
        have h₂ : Shows held extra entries
            (m.time.2.updateReq node fun r => { r with retries := r.retries + 1 })
            (s.time.2.updateReq node fun q => { q with retries := q.retries + 1 }) := by
          refine Shows.update (h₁.shows rfl rfl) node ?_ ?_ ?_
          · exact fun r q hrq => { hrq with retries := congrArg (· + 1) hrq.retries }
          · exact fun r => List.Sublist.refl _
          · exact fun _ => rfl
        obtain ⟨m', hm', h', hl'⟩ := Rep.arpSendRequest h₂ q.iface q.ip4
        rw [hm']
        exact h'.shows hl' rfl
      · rw [if_neg hsent, if_neg hsent]
        exact h₁.shows rfl rfl

/-- A sweep pass. -/
theorem sweep (h : Shows held extra entries m s) (fuel : Nat) :
    Agree (Shows held extra entries) (Machine.arpcacheSweep rtable fuel m)
      (StaticRouter.arpcacheSweep rtable fuel s) := by
  have h₁ : Shows held extra entries (Machine.sweepTable m) (StaticRouter.sweepTable s) := by
    obtain ⟨table, reqs, env, next, trace⟩ := s
    obtain rfl : m.table = table := h.table
    obtain rfl : m.env = env := h.env
    exact { h with table := rfl, env := rfl }
  refine Agree.forEachSafe (fun a b hab => ?_) (fun p a b hab => hab.sweepReq fuel p) fuel h₁
  exact forall₂_map_eq hab.owns.queues fun _ _ hrq => hrq.node

end Shows

end Machine

end StaticRouter
