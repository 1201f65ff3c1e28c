import StaticRouter.Lib.Simulation
import StaticRouter.Machine

/-!
# Proofs: the blocks of a machine

What allocating, writing and freeing do to the blocks that the lists and the packets in use own, and to
their number.
-/

namespace StaticRouter

open CMem

variable {h h' : Heap Block}

/-! ## The structs and their blocks -/

theorem PktRef.Holds.congr {r : PktRef} {p : CachedPkt} (hr : r.Holds h p)
    (hs : ∀ x ∈ r.blocks, h'.get x = h.get x) : r.Holds h' p where
  tag := hr.tag
  struct := by rw [hs r.addr (by simp [blocks]), hr.struct]
  packet := by rw [hs r.packet (by simp [blocks]), hr.packet]

/-- The blocks of a queue are blocks of its request. -/
theorem ReqRef.mem_blocks {r : ReqRef} {p : PktRef} (hp : p ∈ r.cachedPackets) {x : Nat}
    (hx : x ∈ p.blocks) : x ∈ r.blocks :=
  List.mem_cons_of_mem _ (List.mem_flatMap.mpr ⟨p, hp, hx⟩)

theorem ReqRef.Holds.congr {r : ReqRef} {q : ArpReq} (hr : r.Holds h q)
    (hs : ∀ x ∈ r.blocks, h'.get x = h.get x) : r.Holds h' q where
  node := hr.node
  iface := hr.iface
  ip4 := hr.ip4
  sent := hr.sent
  retries := hr.retries
  struct := by rw [hs r.addr List.mem_cons_self, hr.struct]
  queue := by
    have hboth := (List.forall₂_and_left r.cachedPackets q.cachedPackets).mpr ⟨fun p hp => hp, hr.queue⟩
    refine hboth.imp fun p c hpc => hpc.2.congr fun x hx => hs x (mem_blocks hpc.1 hx)

namespace Owns

variable {refs : List ReqRef} {reqs : List ArpReq} {held : List (Nat × Frame)} {a : Nat} {b : Frame}

/-- What is owned depends on the blocks of the lists and of the packets in use. -/
theorem congr (ho : Owns h refs reqs held)
    (hs : ∀ x ∈ held.map (·.1) ++ refs.flatMap ReqRef.blocks, h'.get x = h.get x) :
    Owns h' refs reqs held where
  queues := by
    have hboth := (List.forall₂_and_left refs reqs).mpr ⟨fun r hr => hr, ho.queues⟩
    refine hboth.imp fun r q hrq => hrq.2.congr fun x hx => hs x ?_
    exact List.mem_append_right _ (List.mem_flatMap.mpr ⟨r, hrq.1, hx⟩)
  live x hx := by
    rw [hs x.1 (List.mem_append_left _ (List.mem_map_of_mem hx)), ho.live x hx]
  apart := ho.apart

/-- Every owned block is live. -/
theorem isLive (ho : Owns h refs reqs held) {x : Nat}
    (hx : x ∈ held.map (·.1) ++ refs.flatMap ReqRef.blocks) : ∃ c, h.get x = some c := by
  rcases List.mem_append.mp hx with hx | hx
  · obtain ⟨y, hy, rfl⟩ := List.mem_map.mp hx
    exact ⟨_, ho.live y hy⟩
  · obtain ⟨r, hr, hx⟩ := List.mem_flatMap.mp hx
    obtain ⟨q, -, hrq⟩ := forall₂_mem ho.queues hr
    rcases List.mem_cons.mp hx with rfl | hx
    · exact ⟨_, hrq.struct⟩
    · obtain ⟨p, hp, hx⟩ := List.mem_flatMap.mp hx
      obtain ⟨c, -, hpc⟩ := forall₂_mem hrq.queue hp
      rcases List.mem_cons.mp hx with rfl | hx
      · exact ⟨_, hpc.struct⟩
      · rw [List.mem_singleton.mp hx]
        exact ⟨_, hpc.packet⟩

/-- A new block is none of the owned ones. -/
theorem next_notMem (ho : Owns h refs reqs held) :
    h.next ∉ held.map (·.1) ++ refs.flatMap ReqRef.blocks := by
  intro hm
  obtain ⟨c, hc⟩ := ho.isLive hm
  rw [Heap.get_next] at hc
  cases hc

/-- Allocation leaves the owned blocks alone. -/
theorem malloc (ho : Owns h refs reqs held) (c : Block) : Owns (h.malloc c).2 refs reqs held :=
  ho.congr fun x hx => by
    have hne : x ≠ h.next := fun he => ho.next_notMem (he ▸ hx)
    rw [Heap.get_malloc, if_neg hne]

/-- A new packet is in use. -/
theorem malloc_packet (ho : Owns h refs reqs held) (bytes : Frame) :
    Owns (h.malloc (.packet bytes)).2 refs reqs ((h.next, bytes) :: held) where
  queues := (ho.malloc _).queues
  live x hx := by
    rcases List.mem_cons.mp hx with rfl | hx
    · rw [Heap.get_malloc, if_pos rfl]
    · exact (ho.malloc _).live x hx
  apart := List.nodup_cons.mpr ⟨ho.next_notMem, ho.apart⟩

/-- The packets in use may be taken in any order. -/
theorem perm {held' : List (Nat × Frame)} (ho : Owns h refs reqs held) (hp : held.Perm held') :
    Owns h refs reqs held' where
  queues := ho.queues
  live x hx := ho.live x (hp.mem_iff.mpr hx)
  apart := ((hp.map _).append_right _).nodup_iff.mp ho.apart

/-- A packet is no longer in use; its block may stay live. -/
theorem forget (ho : Owns h refs reqs ((a, b) :: held)) : Owns h refs reqs held where
  queues := ho.queues
  live x hx := ho.live x (List.mem_cons_of_mem _ hx)
  apart := (List.nodup_cons.mp ho.apart).2

/-- The block of a packet in use is none of the others. -/
theorem head_ne (ho : Owns h refs reqs ((a, b) :: held)) {x : Nat}
    (hx : x ∈ held.map (·.1) ++ refs.flatMap ReqRef.blocks) : x ≠ a := by
  intro he
  exact (List.nodup_cons.mp ho.apart).1 (he ▸ hx)

/-- Lists may be cut, with queues that lose packets. -/
theorem sublist {refs' : List ReqRef} {reqs' : List ArpReq} (ho : Owns h refs reqs held)
    (hq : List.Forall₂ (ReqRef.Holds h) refs' reqs')
    (hs : (refs'.flatMap ReqRef.blocks).Sublist (refs.flatMap ReqRef.blocks)) : Owns h refs' reqs' held where
  queues := hq
  live := ho.live
  apart := ho.apart.sublist (hs.append_left _)

/-- The packet in use is overwritten. -/
theorem store {c : Frame} (ho : Owns h refs reqs ((a, b) :: held)) (hs : h.store a (.packet c) = .ok h') :
    Owns h' refs reqs ((a, c) :: held) := by
  have hrest : Owns h' refs reqs held := ho.forget.congr fun x hx => by
    rw [Heap.store_ok hs, if_neg (ho.head_ne hx)]
  refine ⟨hrest.queues, fun x hx => ?_, ho.apart⟩
  rcases List.mem_cons.mp hx with rfl | hx
  · rw [Heap.store_ok hs, if_pos rfl]
  · exact hrest.live x hx

/-- The packet in use is freed. -/
theorem free (ho : Owns h refs reqs ((a, b) :: held)) (hf : h.free a = .ok h') :
    Owns h' refs reqs held :=
  ho.forget.congr fun x hx => by rw [Heap.free_ok hf, if_neg (ho.head_ne hx)]

end Owns

/-! ## The number of live blocks -/

namespace Balance

variable {tr : List Event} {extra entries : Nat} {a : Nat} {b c : Frame} {e : Event}

theorem malloc_packet (hb : Balance h tr extra entries) (bytes : Frame) :
    Balance (h.malloc (.packet bytes)).2 tr (extra + 1) entries where
  packets := by
    have hp := hb.packets
    rw [Heap.count_malloc]
    simp only [Block.isPacket, if_true]
    omega
  cachedPkts := by
    rw [Heap.count_malloc]
    simpa [Block.isCachedPkt] using hb.cachedPkts
  arpReqs := by
    rw [Heap.count_malloc]
    simpa [Block.isArpReq] using hb.arpReqs
  cacheEntries := by
    rw [Heap.count_malloc]
    simpa [Block.isCacheEntry] using hb.cacheEntries

theorem malloc_cacheEntry (hb : Balance h tr extra entries) :
    Balance (h.malloc .cacheEntry).2 tr extra (entries + 1) where
  packets := by
    rw [Heap.count_malloc]
    simpa [Block.isPacket] using hb.packets
  cachedPkts := by
    rw [Heap.count_malloc]
    simpa [Block.isCachedPkt] using hb.cachedPkts
  arpReqs := by
    rw [Heap.count_malloc]
    simpa [Block.isArpReq] using hb.arpReqs
  cacheEntries := by
    rw [Heap.count_malloc]
    simpa [Block.isCacheEntry] using hb.cacheEntries

theorem store (hb : Balance h tr extra entries) (hg : h.get a = some (.packet b))
    (hs : h.store a (.packet c) = .ok h') : Balance h' tr extra entries where
  packets := by rw [Heap.count_store _ hs hg rfl]; exact hb.packets
  cachedPkts := by rw [Heap.count_store _ hs hg rfl]; exact hb.cachedPkts
  arpReqs := by rw [Heap.count_store _ hs hg rfl]; exact hb.arpReqs
  cacheEntries := by rw [Heap.count_store _ hs hg rfl]; exact hb.cacheEntries

theorem free (hb : Balance h tr (extra + 1) entries) (hg : h.get a = some (.packet b)) (hf : h.free a = .ok h') :
    Balance h' tr extra entries where
  packets := by
    have hc := Heap.count_free Block.isPacket hf hg
    have hp := hb.packets
    simp only [Block.isPacket, if_true] at hc
    omega
  cachedPkts := by
    have hc := Heap.count_free Block.isCachedPkt hf hg
    rw [← hb.cachedPkts, ← hc]
    rfl
  arpReqs := by
    have hc := Heap.count_free Block.isArpReq hf hg
    rw [← hb.arpReqs, ← hc]
    rfl
  cacheEntries := by
    have hc := Heap.count_free Block.isCacheEntry hf hg
    rw [← hb.cacheEntries, ← hc]
    rfl

/-- The history goes on with the entry `e`. -/
theorem append {k n f o : Nat} (hb : Balance h tr k entries) (hf : (flushes [e]).length = f)
    (hq : (queuedTags [e]).length = n) (ho : (openings [e]).length = o)
    (hp : h'.count Block.isPacket + f + k = h.count Block.isPacket + 2 * n + extra)
    (hc : h'.count Block.isCachedPkt = h.count Block.isCachedPkt + n)
    (hr : h'.count Block.isArpReq = h.count Block.isArpReq + o)
    (he : h'.count Block.isCacheEntry = h.count Block.isCacheEntry) : Balance h' (tr ++ [e]) extra entries where
  packets := by
    have hb := hb.packets
    rw [flushes_append, queuedTags_append, List.length_append, List.length_append, hf, hq]
    omega
  cachedPkts := by rw [queuedTags_append, List.length_append, hq, hc, hb.cachedPkts]
  arpReqs := by
    have happ : openings (tr ++ [e]) = openings tr ++ openings [e] := List.filterMap_append
    rw [happ, List.length_append, ho, hr, hb.arpReqs]
  cacheEntries := he.trans hb.cacheEntries

/-- An entry of the history that tells nothing about blocks. -/
theorem log (hb : Balance h tr extra entries) (hf : flushes [e] = []) (hq : queuedTags [e] = [])
    (ho : openings [e] = []) : Balance h (tr ++ [e]) extra entries :=
  hb.append (congrArg List.length hf) (congrArg List.length hq) (congrArg List.length ho) (by simp) (by simp)
    (by simp) rfl

/-- A packet of a queue is freed when it is sent. -/
theorem flushed (hb : Balance h tr extra entries) (hg : h.get a = some (.packet b)) (hf : h.free a = .ok h')
    (iface : Iface) (tag : Nat) (ip4 : UInt32) :
    Balance h' (tr ++ [.sent iface b (.flush tag ip4)]) extra entries := by
  have hp := Heap.count_free Block.isPacket hf hg
  have hc := Heap.count_free Block.isCachedPkt hf hg
  have hr := Heap.count_free Block.isArpReq hf hg
  have he := Heap.count_free Block.isCacheEntry hf hg
  simp only [Block.isPacket, if_true] at hp
  exact hb.append (f := 1) (n := 0) (o := 0) rfl rfl rfl (by omega) hc hr he

end Balance

/-! ## A packet is queued -/

/-- The heap with a struct and a copy of the packet `bytes`. -/
def withPkt (bytes : Frame) (h : Heap Block) : Heap Block :=
  ((h.malloc .cachedPkt).2.malloc (.packet bytes)).2

theorem count_withPkt (p : Block → Bool) (bytes : Frame) :
    (withPkt bytes h).count p =
      h.count p + (if p .cachedPkt then 1 else 0) + if p (.packet bytes) then 1 else 0 := by
  rw [withPkt, Heap.count_malloc, Heap.count_malloc]

/-- The packet stays where it is, and a copy of it joins a queue. -/
theorem Balance.queued {tr : List Event} {extra entries : Nat} (hb : Balance h tr (extra + 1) entries)
    (bytes : Frame) (tag : Nat) : Balance (withPkt bytes h) (tr ++ [.queued tag]) extra entries := by
  have hp := count_withPkt (h := h) Block.isPacket bytes
  simp only [Block.isPacket, if_true] at hp
  refine hb.append (f := 0) (n := 1) (o := 0) rfl rfl rfl ?_ (count_withPkt _ bytes) (count_withPkt _ bytes)
    (count_withPkt _ bytes)
  rw [hp]
  simp only [Bool.false_eq_true, if_false]
  omega

/-- The packet stays where it is, and a copy of it opens a request. -/
theorem Balance.opened {tr : List Event} {extra entries : Nat} (hb : Balance h tr (extra + 1) entries)
    (bytes : Frame) (tag : Nat) (ip4 : UInt32) :
    Balance (withPkt bytes (h.malloc .arpReq).2) (tr ++ [.queued tag] ++ [.opened ip4]) extra entries := by
  have hq := hb.queued bytes tag
  refine hq.append rfl rfl rfl ?_ ?_ ?_ ?_ <;>
  · rw [count_withPkt, count_withPkt, Heap.count_malloc]
    rfl

/-- The packets of a queue, with their blocks. -/
def inUse (refs : List PktRef) (pkts : List CachedPkt) : List (Nat × Frame) :=
  List.zipWith (fun r p => (r.packet, p.packet)) refs pkts

theorem mem_inUse {refs : List PktRef} {pkts : List CachedPkt}
    (hq : List.Forall₂ (PktRef.Holds h) refs pkts) {x : Nat × Frame} (hx : x ∈ inUse refs pkts) :
    h.get x.1 = some (.packet x.2) := by
  induction hq with
  | nil => cases hx
  | cons hp _ ih =>
    rcases List.mem_cons.mp hx with rfl | hx
    · exact hp.packet
    · exact ih hx

/-- The packets of a queue are some of its blocks. -/
theorem inUse_sublist {refs : List PktRef} {pkts : List CachedPkt}
    (hq : List.Forall₂ (PktRef.Holds h) refs pkts) :
    ((inUse refs pkts).map (·.1)).Sublist (refs.flatMap PktRef.blocks) := by
  induction hq with
  | nil => exact .slnil
  | @cons r p refs pkts _ _ ih => exact .cons r.addr (.cons_cons r.packet ih)

namespace Owns

variable {refs : List ReqRef} {reqs : List ArpReq} {held : List (Nat × Frame)}

/-- The blocks of the new struct and of the copy are new. -/
theorem newPkt (ho : Owns h refs reqs held) (bytes : Frame) (tag : Nat) :
    Owns (withPkt bytes h) refs reqs held ∧
      PktRef.Holds (withPkt bytes h) ⟨tag, h.next, h.next + 1⟩ ⟨tag, bytes⟩ ∧
      ([h.next, h.next + 1] ++ (held.map (·.1) ++ refs.flatMap ReqRef.blocks)).Nodup := by
  have h₁ := ho.malloc .cachedPkt
  refine ⟨h₁.malloc (.packet bytes), ⟨rfl, ?_, ?_⟩, ?_⟩
  · have hnew : (h.malloc .cachedPkt).2.get h.next = some .cachedPkt := by rw [Heap.get_malloc, if_pos rfl]
    exact Heap.get_malloc_of_get hnew
  · show ((h.malloc .cachedPkt).2.malloc (.packet bytes)).2.get (h.malloc .cachedPkt).2.next = _
    rw [Heap.get_malloc, if_pos rfl]
  · have h2 : h.next + 1 ∉ held.map (·.1) ++ refs.flatMap ReqRef.blocks := h₁.next_notMem
    refine List.nodup_cons.mpr ⟨fun hm => ?_, List.nodup_cons.mpr ⟨h2, ho.apart⟩⟩
    rcases List.mem_cons.mp hm with he | hm
    · omega
    · exact ho.next_notMem hm

/-- A copy joins the queue of a request. -/
theorem join {A B : List ReqRef} {A' B' : List ArpReq} {r : ReqRef} {q : ArpReq}
    (ho : Owns h (A ++ r :: B) (A' ++ q :: B') held) (hlen : A.length = A'.length) (bytes : Frame) (tag : Nat) :
    Owns (withPkt bytes h)
      (A ++ { r with cachedPackets := r.cachedPackets ++ [⟨tag, h.next, h.next + 1⟩] } :: B)
      (A' ++ q.append ⟨tag, bytes⟩ :: B') held := by
  obtain ⟨hold, hpkt, hnd⟩ := ho.newPkt bytes tag
  obtain ⟨A'', q', B'', heq, hA, hr, hB⟩ := forall₂_split hold.queues
  obtain ⟨rfl, hcons⟩ := List.append_inj heq (hlen.symm.trans hA.length_eq)
  obtain ⟨rfl, rfl⟩ := List.cons.inj hcons
  refine ⟨List.rel_append hA (.cons { hr with queue := ?_ } hB), hold.live, ?_⟩
  · exact List.rel_append hr.queue (.cons hpkt .nil)
  · refine (List.Perm.nodup_iff (List.perm_iff_count.mpr fun x => ?_)).mpr hnd
    simp only [List.flatMap_append, List.flatMap_cons, ReqRef.blocks, PktRef.blocks, List.flatMap_nil,
      List.append_nil, List.count_append, List.count_cons, List.count_nil]
    omega

/-- A copy opens a request. -/
theorem opens (ho : Owns h refs reqs held) (iface : Iface) (ip4 : UInt32) (t : Int) (bytes : Frame)
    (tag : Nat) :
    Owns (withPkt bytes (h.malloc .arpReq).2)
      (refs ++ [⟨tag, h.next, iface, ip4, t, 0, [⟨tag, h.next + 1, h.next + 2⟩]⟩])
      (reqs ++ [⟨tag, iface, ip4, t, 0, [⟨tag, bytes⟩]⟩]) held := by
  have h₁ := ho.malloc .arpReq
  obtain ⟨hold, hpkt, hnd⟩ := h₁.newPkt bytes tag
  have hreq : (withPkt bytes (h.malloc .arpReq).2).get h.next = some .arpReq := by
    refine Heap.get_malloc_of_get (Heap.get_malloc_of_get ?_)
    rw [Heap.get_malloc, if_pos rfl]
  refine ⟨List.rel_append hold.queues (.cons ⟨rfl, rfl, rfl, rfl, rfl, hreq, .cons hpkt .nil⟩ .nil),
    hold.live, ?_⟩
  have hnew : h.next ∉ [h.next + 1, h.next + 2] ++ (held.map (·.1) ++ refs.flatMap ReqRef.blocks) := by
    intro hm
    rcases List.mem_append.mp hm with hm | hm
    · simp at hm
    · exact ho.next_notMem hm
  refine (List.Perm.nodup_iff (List.perm_iff_count.mpr fun x => ?_)).mpr (List.nodup_cons.mpr ⟨hnew, hnd⟩)
  simp only [List.flatMap_append, List.flatMap_cons, ReqRef.blocks, PktRef.blocks, List.flatMap_nil,
    List.append_nil, List.count_append, List.count_cons, List.count_nil]
  omega

/-- A request leaves the list, and its packets are in use. -/
theorem takeOut {A B : List ReqRef} {A' B' : List ArpReq} {r : ReqRef} {q : ArpReq}
    (ho : Owns h (A ++ r :: B) (A' ++ q :: B') held) (hlen : A.length = A'.length) :
    Owns h (A ++ B) (A' ++ B') (inUse r.cachedPackets q.cachedPackets ++ held) := by
  obtain ⟨A'', q', B'', heq, hA, hr, hB⟩ := forall₂_split ho.queues
  obtain ⟨rfl, hcons⟩ := List.append_inj heq (hlen.symm.trans hA.length_eq)
  obtain ⟨rfl, rfl⟩ := List.cons.inj hcons
  refine ⟨List.rel_append hA hB, fun x hx => ?_, ?_⟩
  · rcases List.mem_append.mp hx with hx | hx
    · exact mem_inUse hr.queue hx
    · exact ho.live x hx
  · have hsub : ((inUse r.cachedPackets q.cachedPackets).map (·.1)).Sublist r.blocks :=
      (inUse_sublist hr.queue).cons r.addr
    have hall : (r.blocks ++ (held.map (·.1) ++ (A ++ B).flatMap ReqRef.blocks)).Nodup := by
      refine (List.Perm.nodup_iff (List.perm_iff_count.mpr fun x => ?_)).mpr ho.apart
      simp only [List.flatMap_append, List.flatMap_cons, List.count_append]
      omega
    refine hall.sublist ?_
    rw [List.map_append, List.append_assoc]
    exact hsub.append_right _

end Owns

end StaticRouter
