import StaticRouter.Proofs.OwnershipProofs

/-!
# Proofs: what is left of a pointer

`handle_packet` and `arpcache_sweep` run in threads of their own. Neither takes the lock of the cache, so
that one can be in the middle of a queue when the other changes it. What the pointers are worth then that it
has read before.
-/

namespace StaticRouter

open CMem

variable {rtable : List RtEntry}

namespace Machine

/-! ## How blocks end -/

/-- The block was handed out and is not live any more. -/
def Freed (a : Nat) (m : Machine) : Prop := a < m.heap.next ∧ m.heap.get a = none

/-- The packet is in the queue of a request for `ip4`. -/
def Waits (p : PktRef) (ip4 : UInt32) (m : Machine) : Prop :=
  ∃ r ∈ m.reqList, r.ip4 = ip4 ∧ p ∈ r.cachedPackets

/-- What becomes of the blocks of `m` until `m'`, while `new` is recorded: only packets are freed, and these
are among `F`, or `arpcache_insert` has sent them from a queue. -/
structure Ages (F : List Nat) (new : List Event) (m m' : Machine) : Prop where
  heap_le : m.heap.next ≤ m'.heap.next
  next_le : m.next ≤ m'.next
  trace : m'.trace = m.trace ++ new
  freed : ∀ a, m.Freed a → m'.Freed a
  structs : ∀ a b, m.heap.get a = some b → b.isPacket = false → m'.heap.get a = some b
  packets : ∀ a bytes, m.heap.get a = some (.packet bytes) →
    (∃ bytes', m'.heap.get a = some (.packet bytes')) ∨
      m'.Freed a ∧ (a ∈ F ∨ ∃ p ip4, m.Waits p ip4 ∧ p.packet = a ∧ (p.tag, ip4) ∈ flushes new)
  sent : ∀ x ∈ flushes new, m.next ≤ x.1 ∨ ∃ p, m.Waits p x.2 ∧ p.tag = x.1 ∧ m'.Freed p.packet
  links : ∀ p ip4, m'.Waits p ip4 → m.Waits p ip4 ∨ m.heap.next ≤ p.packet ∧ m.next ≤ p.tag

variable {F : List Nat} {new new' : List Event} {a : Nat} {b : Frame} {m m' m₁ m₂ : Machine}

theorem get_of_load (h : m.load a = .ok b) : m.heap.get a = some (.packet b) := by
  unfold Machine.load at h
  obtain ⟨c, hc, h⟩ := bind_ok.mp h
  have hg := Heap.load_ok.mp hc
  cases c with
  | packet bytes =>
    cases h
    exact hg
  | cachedPkt => cases h
  | arpReq => cases h
  | cacheEntry => cases h

/-- What waits depends on the lists only. -/
theorem Waits.congr {p : PktRef} {ip4 : UInt32} (h : m.Waits p ip4) (hl : m'.reqList = m.reqList) :
    m'.Waits p ip4 := by
  unfold Waits at h ⊢
  rw [hl]
  exact h

namespace Ages

/-- The blocks stay as they are. -/
theorem still (hheap : m'.heap = m.heap) (hnext : m.next ≤ m'.next) (htr : m'.trace = m.trace ++ new)
    (hf : flushes new = []) (hw : ∀ p ip4, m'.Waits p ip4 → m.Waits p ip4) : Ages F new m m' where
  heap_le := hheap ▸ Nat.le_refl _
  next_le := hnext
  trace := htr
  freed a ha := by
    unfold Freed
    rw [hheap]
    exact ha
  structs a b hg _ := by rw [hheap]; exact hg
  packets a bytes hg := by
    left
    rw [hheap]
    exact ⟨bytes, hg⟩
  sent x hx := by
    rw [hf] at hx
    cases hx
  links p ip4 hp := Or.inl (hw p ip4 hp)

/-- The blocks and the lists stay as they are. -/
theorem quiet (hheap : m'.heap = m.heap) (hnext : m'.next = m.next) (htr : m'.trace = m.trace)
    (hl : m'.reqList = m.reqList) : Ages F [] m m' := by
  refine still hheap hnext.ge ?_ rfl fun p ip4 hp => hp.congr hl.symm
  rw [htr, List.append_nil]

theorem refl (m : Machine) : Ages F [] m m := quiet rfl rfl rfl rfl

theorem log {e : Event} (he : flushes [e] = []) : Ages F [e] m (m.log e) :=
  still rfl (Nat.le_refl _) rfl he fun _ _ hp => hp

theorem time (m : Machine) : Ages F [] m m.time.2 := quiet rfl rfl rfl rfl

theorem mono {G : List Nat} (h : Ages F new m m') (hsub : ∀ a ∈ F, a ∈ G) : Ages G new m m' :=
  { h with
    packets := fun a bytes hg => by
      rcases h.packets a bytes hg with hlive | ⟨hfreed, hmay | hsent⟩
      · exact Or.inl hlive
      · exact Or.inr ⟨hfreed, Or.inl (hsub a hmay)⟩
      · exact Or.inr ⟨hfreed, Or.inr hsent⟩ }

theorem trans (h : Ages F new m m₁) (h' : Ages F new' m₁ m₂) : Ages F (new ++ new') m m₂ where
  heap_le := Nat.le_trans h.heap_le h'.heap_le
  next_le := Nat.le_trans h.next_le h'.next_le
  trace := by rw [h'.trace, h.trace, List.append_assoc]
  freed a ha := h'.freed a (h.freed a ha)
  structs a b hg hb := h'.structs a b (h.structs a b hg hb) hb
  packets a bytes hg := by
    rw [flushes_append]
    rcases h.packets a bytes hg with ⟨bytes₁, hg₁⟩ | ⟨hfreed, hmay | ⟨p, ip4, hp, hpa, hsent⟩⟩
    · rcases h'.packets a bytes₁ hg₁ with hlive | ⟨hfreed, hmay | ⟨p, ip4, hp, hpa, hsent⟩⟩
      · exact Or.inl hlive
      · exact Or.inr ⟨hfreed, Or.inl hmay⟩
      · rcases h.links p ip4 hp with hp | ⟨hle, -⟩
        · exact Or.inr ⟨hfreed, Or.inr ⟨p, ip4, hp, hpa, List.mem_append_right _ hsent⟩⟩
        · have hlt := Heap.lt_next hg
          omega
    · exact Or.inr ⟨h'.freed a hfreed, Or.inl hmay⟩
    · exact Or.inr ⟨h'.freed a hfreed, Or.inr ⟨p, ip4, hp, hpa, List.mem_append_left _ hsent⟩⟩
  sent x hx := by
    rw [flushes_append, List.mem_append] at hx
    rcases hx with hx | hx
    · rcases h.sent x hx with hle | ⟨p, hp, htag, hfreed⟩
      · exact Or.inl hle
      · exact Or.inr ⟨p, hp, htag, h'.freed _ hfreed⟩
    · rcases h'.sent x hx with hle | ⟨p, hp, htag, hfreed⟩
      · exact Or.inl (Nat.le_trans h.next_le hle)
      · rcases h.links p x.2 hp with hp | ⟨-, hle⟩
        · exact Or.inr ⟨p, hp, htag, hfreed⟩
        · exact Or.inl (htag ▸ hle)
  links p ip4 hp := by
    rcases h'.links p ip4 hp with hp | ⟨hle, hle'⟩
    · exact h.links p ip4 hp
    · exact Or.inr ⟨Nat.le_trans h.heap_le hle, Nat.le_trans h.next_le hle'⟩

/-- The lists change at last: what waits then waited before, or it is new. -/
theorem relink (h : Ages F new m m₁) (hheap : m₂.heap = m₁.heap) (hnext : m₂.next = m₁.next)
    (htr : m₂.trace = m₁.trace)
    (hw : ∀ p ip4, m₂.Waits p ip4 → m₁.Waits p ip4 ∨ m.heap.next ≤ p.packet ∧ m.next ≤ p.tag) :
    Ages F new m m₂ := by
  obtain ⟨table, reqs, env, next, trace, heap⟩ := m₂
  subst hheap hnext htr
  refine { h with links := fun p ip4 hp => ?_ }
  rcases hw p ip4 hp with hp | hnew
  · exact h.links p ip4 hp
  · exact Or.inr hnew

/-! ## Memory -/

theorem malloc (m : Machine) (c : Block) : Ages F [] m (m.malloc c).2 where
  heap_le := Nat.le_succ _
  next_le := Nat.le_refl _
  trace := (List.append_nil _).symm
  freed a ha := by
    refine ⟨Nat.lt_succ_of_lt ha.1, ?_⟩
    show (m.heap.malloc c).2.get a = none
    rw [Heap.get_malloc, if_neg (Nat.ne_of_lt ha.1), ha.2]
  structs a b hg _ := Heap.get_malloc_of_get hg
  packets a bytes hg := Or.inl ⟨bytes, Heap.get_malloc_of_get hg⟩
  sent x hx := by cases hx
  links p ip4 hp := Or.inl hp

/-- Of all blocks only the packet at `a` changes. -/
theorem touch (hg : m.heap.get a = some (.packet b)) (hheap : m'.heap.next = m.heap.next)
    (hget : ∀ x, x ≠ a → m'.heap.get x = m.heap.get x) (hnext : m'.next = m.next)
    (htr : m'.trace = m.trace ++ new) (hl : m'.reqList = m.reqList)
    (ha : (∃ bytes, m'.heap.get a = some (.packet bytes)) ∨
      m'.Freed a ∧ (a ∈ F ∨ ∃ p ip4, m.Waits p ip4 ∧ p.packet = a ∧ (p.tag, ip4) ∈ flushes new))
    (hsent : ∀ x ∈ flushes new, ∃ p, m.Waits p x.2 ∧ p.tag = x.1 ∧ m'.Freed p.packet) : Ages F new m m' := by
  refine ⟨hheap.ge, hnext.ge, htr, ?_, ?_, ?_, fun x hx => Or.inr (hsent x hx),
    fun p ip4 hp => Or.inl (hp.congr hl.symm)⟩
  · rintro x ⟨hlt, hx⟩
    have hne : x ≠ a := by
      rintro rfl
      rw [hg] at hx
      cases hx
    exact ⟨hlt.trans_le hheap.ge, by rw [hget x hne, hx]⟩
  · intro x d hx hd
    have hne : x ≠ a := by
      rintro rfl
      rw [hg] at hx
      cases hx
      cases hd
    rw [hget x hne, hx]
  · intro x bytes hx
    by_cases he : x = a
    · exact he ▸ ha
    · exact Or.inl ⟨bytes, by rw [hget x he, hx]⟩

/-- A packet is overwritten. -/
theorem store {c : Frame} (hg : m.heap.get a = some (.packet b)) (h : m.store a c = .ok m') :
    Ages F [] m m' ∧ m'.reqList = m.reqList := by
  unfold Machine.store at h
  obtain ⟨heap, hs, h⟩ := bind_ok.mp h
  cases h
  have hget := Heap.store_ok hs
  refine ⟨touch hg (Heap.next_of_store hs) (fun x hx => ?_) rfl (List.append_nil _).symm rfl
    (Or.inl ⟨c, ?_⟩) (by simp [flushes]), rfl⟩
  · exact (hget x).trans (if_neg hx)
  · exact (hget a).trans (if_pos rfl)

theorem write {off : Nat} {bs : List UInt8} (h : m.write a off bs = .ok m') :
    Ages F [] m m' ∧ m'.reqList = m.reqList := by
  unfold Machine.write at h
  obtain ⟨b, hb, h⟩ := bind_ok.mp h
  obtain ⟨c, -, h⟩ := bind_ok.mp h
  exact store (get_of_load hb) h

/-- A packet is freed while `new` is recorded. -/
theorem release (hg : m.heap.get a = some (.packet b)) (hf : m.heap.free a = .ok m'.heap)
    (hnext : m'.next = m.next) (htr : m'.trace = m.trace ++ new) (hl : m'.reqList = m.reqList)
    (hmay : a ∈ F ∨ ∃ p ip4, m.Waits p ip4 ∧ p.packet = a ∧ (p.tag, ip4) ∈ flushes new)
    (hsent : ∀ x ∈ flushes new, ∃ p, m.Waits p x.2 ∧ p.tag = x.1 ∧ p.packet = a) : Ages F new m m' := by
  have hget := Heap.free_ok hf
  have hheap := Heap.next_of_free hf
  have hfreed : m'.Freed a := ⟨(Heap.lt_next hg).trans_le hheap.ge, (hget a).trans (if_pos rfl)⟩
  refine touch hg hheap (fun x hx => (hget x).trans (if_neg hx)) hnext htr hl (Or.inr ⟨hfreed, hmay⟩) ?_
  intro x hx
  obtain ⟨p, hp, htag, rfl⟩ := hsent x hx
  exact ⟨p, hp, htag, hfreed⟩

theorem free (hg : m.heap.get a = some (.packet b)) (h : m.free a = .ok m') : Ages [a] [] m m' := by
  unfold Machine.free at h
  obtain ⟨heap, hf, h⟩ := bind_ok.mp h
  cases h
  refine release hg hf rfl (List.append_nil _).symm rfl (Or.inl List.mem_cons_self) ?_
  intro x hx
  cases hx

/-- A packet that was allocated after `m` is none of those that `m` has. -/
theorem forget (h : Ages (a :: F) new m m') (ha : m.heap.next ≤ a) : Ages F new m m' :=
  { h with
    packets := fun x bytes hg => by
      rcases h.packets x bytes hg with hlive | ⟨hfreed, hmay | hsent⟩
      · exact Or.inl hlive
      · have hlt := Heap.lt_next hg
        rcases List.mem_cons.mp hmay with rfl | hmay
        · omega
        · exact Or.inr ⟨hfreed, Or.inl hmay⟩
      · exact Or.inr ⟨hfreed, Or.inr hsent⟩ }

/-- A packet that is freed at last was one all the time. -/
theorem thenFree (h : Ages [a] new m m₁) (hg : m.heap.get a = some (.packet b)) (hf : m₁.free a = .ok m') :
    Ages [a] new m m' := by
  rcases h.packets a b hg with ⟨bytes, hg₁⟩ | ⟨⟨-, hnone⟩, -⟩
  · have hall := h.trans (free hg₁ hf)
    rw [List.append_nil] at hall
    exact hall
  · unfold Machine.free at hf
    rw [Heap.free_notLive hnone] at hf
    cases hf

/-! ## `packet.c` and `arp.c` -/

/-- `iface_send_packet` of a packet that no queue holds. -/
theorem send {iface : Iface} {origin : Origin} (ho : ∀ frame, flushes [.sent iface frame origin] = [])
    (h : ifaceSendPacket iface a origin m = .ok m') : ∃ new, Ages [a] new m m' := by
  obtain ⟨frame, hl, h⟩ := bind_ok.mp h
  exact ⟨_, (log (ho frame)).trans (free (get_of_load hl) h)⟩

/-- `iface_send_packet` of a packet from a queue. -/
theorem sendQueued {iface : Iface} {p : PktRef} {ip4 : UInt32} (hp : m.Waits p ip4)
    (h : ifaceSendPacket iface p.packet (.flush p.tag ip4) m = .ok m') :
    (∃ new, Ages [] new m m') ∧ m'.reqList = m.reqList := by
  obtain ⟨frame, hl, h⟩ := bind_ok.mp h
  unfold Machine.free at h
  obtain ⟨heap, hf, h⟩ := bind_ok.mp h
  cases h
  have hflush : flushes [.sent iface frame (.flush p.tag ip4)] = [(p.tag, ip4)] := rfl
  refine ⟨⟨[.sent iface frame (.flush p.tag ip4)], release (get_of_load hl) hf rfl rfl rfl ?_ ?_⟩, rfl⟩
  · right
    exact ⟨p, ip4, hp, rfl, by rw [hflush]; exact List.mem_cons_self⟩
  · intro x hx
    rw [hflush, List.mem_singleton] at hx
    subst hx
    exact ⟨p, hp, rfl, rfl⟩

theorem arpSendRequest {iface : Iface} {dst : UInt32} (h : Machine.arpSendRequest iface dst m = .ok m') :
    ∃ new, Ages F new m m' := by
  obtain ⟨new, hsend⟩ := send (fun _ => rfl) h
  have hall := (malloc (F := [m.heap.next]) m _).trans hsend
  exact ⟨_, (forget hall (Nat.le_refl _)).mono fun x hx => by cases hx⟩

/-! ## `arpcache.c` -/

theorem newPkt {packet tag : Nat} {ref : PktRef} (h : newPkt packet tag m = .ok (ref, m')) :
    Ages F [] m m' ∧ m'.reqList = m.reqList ∧ m.heap.next ≤ ref.packet ∧ ref.tag = tag := by
  obtain ⟨bytes, -, h⟩ := bind_ok.mp h
  cases h
  exact ⟨(malloc m .cachedPkt).trans (malloc _ (.packet bytes)), rfl, Nat.le_succ _, rfl⟩

/-- The loop of `arpcache_append_packet` adds copies to the queues. -/
theorem appendToReqs {ip4 : UInt32} {packet tag : Nat} {reqs reqs' : List ReqRef}
    (h : appendToReqs ip4 packet tag reqs m = .ok (reqs', m')) :
    Ages F [] m m' ∧ m'.reqList = m.reqList ∧ ∀ r' ∈ reqs', ∀ p ∈ r'.cachedPackets,
      (∃ r ∈ reqs, r.ip4 = r'.ip4 ∧ p ∈ r.cachedPackets) ∨ m.heap.next ≤ p.packet ∧ p.tag = tag := by
  induction reqs generalizing m reqs' m' with
  | nil =>
    cases h
    exact ⟨refl m, rfl, fun r' hr' => by cases hr'⟩
  | cons ele rest ih =>
    rw [Machine.appendToReqs] at h
    split_ifs at h with hip
    · obtain ⟨⟨ref, m₁⟩, hnew, h⟩ := bind_ok.mp h
      obtain ⟨⟨rest', m₂⟩, hrest, h⟩ := bind_ok.mp h
      cases h
      obtain ⟨hages, hl, haddr, htag⟩ := newPkt (F := F) hnew
      obtain ⟨hages', hl', hmem⟩ := ih hrest
      refine ⟨hages.trans hages', hl'.trans hl, fun r' hr' p hp => ?_⟩
      rcases List.mem_cons.mp hr' with rfl | hr'
      · rcases List.mem_append.mp hp with hp | hp
        · exact Or.inl ⟨ele, List.mem_cons_self, rfl, hp⟩
        · obtain rfl := List.mem_singleton.mp hp
          exact Or.inr ⟨haddr, htag⟩
      · rcases hmem r' hr' p hp with ⟨r, hr, hip', hp⟩ | ⟨hle, htag⟩
        · exact Or.inl ⟨r, List.mem_cons_of_mem ele hr, hip', hp⟩
        · exact Or.inr ⟨Nat.le_trans hages.heap_le hle, htag⟩
    · obtain ⟨⟨rest', m₂⟩, hrest, h⟩ := bind_ok.mp h
      cases h
      obtain ⟨hages, hl, hmem⟩ := ih hrest
      refine ⟨hages, hl, fun r' hr' p hp => ?_⟩
      rcases List.mem_cons.mp hr' with rfl | hr'
      · exact Or.inl ⟨r', List.mem_cons_self, rfl, hp⟩
      · rcases hmem r' hr' p hp with ⟨r, hr, hip', hp⟩ | hnew
        · exact Or.inl ⟨r, List.mem_cons_of_mem ele hr, hip', hp⟩
        · exact Or.inr hnew

/-- `arpcache_append_packet`, after the packet has got its tag. -/
theorem append {iface : Iface} {ip4 : UInt32} {packet tag : Nat} (h : Ages F new m m₁) (htag : m.next ≤ tag)
    (happ : arpcacheAppendPacket iface ip4 packet tag m₁ = .ok m') : ∃ new, Ages F new m m' := by
  obtain ⟨⟨reqs, m₂⟩, hloop, happ⟩ := bind_ok.mp happ
  obtain ⟨hages, hl, hmem⟩ := appendToReqs (F := F) hloop
  have h₂ := (h.trans (log (e := .queued tag) rfl)).trans hages
  have hlinks : ∀ r' ∈ reqs, ∀ p ∈ r'.cachedPackets,
      m₂.Waits p r'.ip4 ∨ m.heap.next ≤ p.packet ∧ m.next ≤ p.tag := by
    intro r' hr' p hp
    rcases hmem r' hr' p hp with ⟨r, hr, hip, hp⟩ | ⟨hle, rfl⟩
    · left
      exact ⟨r, by rw [hl]; exact hr, hip, hp⟩
    · exact Or.inr ⟨Nat.le_trans h.heap_le hle, htag⟩
  have h₃ : Ages F (new ++ [.queued tag] ++ []) m { m₂ with reqList := reqs } := by
    refine h₂.relink rfl rfl rfl fun p ip4' hp => ?_
    obtain ⟨r', hr', rfl, hp⟩ := hp
    exact hlinks r' hr' p hp
  simp only at happ
  split_ifs at happ with hany
  · cases happ
    exact ⟨_, h₃⟩
  · obtain ⟨⟨ref, m₅⟩, hnew, happ⟩ := bind_ok.mp happ
    have h₄ := (h₃.trans (malloc _ .arpReq)).trans (time _)
    obtain ⟨hages₅, hl₅, haddr, htag'⟩ := newPkt (F := F) hnew
    have h₅ : Ages F _ m
        { m₅ with reqList := m₅.reqList ++ [⟨tag, m₂.heap.next, iface, ip4, m₂.env.clock 0, 0, [ref]⟩] } :=
      (h₄.trans hages₅).relink rfl rfl rfl fun p ip4' hp => by
        obtain ⟨r, hr, hip, hp⟩ := hp
        rcases List.mem_append.mp hr with hr | hr
        · exact Or.inl ⟨r, hr, hip, hp⟩
        · obtain rfl := List.mem_singleton.mp hr
          obtain rfl := List.mem_singleton.mp hp
          exact Or.inr ⟨Nat.le_trans h₄.heap_le haddr, htag'.symm ▸ htag⟩
    obtain ⟨new', hsend⟩ := arpSendRequest (F := F) happ
    exact ⟨_, (h₅.trans (log (e := .opened ip4) rfl)).trans hsend⟩

/-- `iface_send_packet_by_arp` -/
theorem submit {iface : Iface} {dst : UInt32} (h : ifaceSendPacketByArp iface dst a m = .ok m') :
    ∃ new, Ages [a] new m m' := by
  obtain ⟨bytes, -, h⟩ := bind_ok.mp h
  obtain ⟨m₁, hw₁, h⟩ := bind_ok.mp h
  obtain ⟨m₂, hw₂, h⟩ := bind_ok.mp h
  have h₀ : Ages [a] [.submitted m.next iface dst bytes] m
      { m.log (.submitted m.next iface dst bytes) with next := m.next + 1 } :=
    still rfl (Nat.le_succ _) rfl rfl fun _ _ hp => hp
  have h₂ := (h₀.trans (write hw₁).1).trans (write hw₂).1
  split at h
  · obtain ⟨m₃, hw₃, h⟩ := bind_ok.mp h
    obtain ⟨new, hsend⟩ := send (fun _ => rfl) h
    exact ⟨_, (h₂.trans (write hw₃).1).trans hsend⟩
  · exact append h₂ (Nat.le_refl _) h

/-- The inner loop of `arpcache_insert` sends packets of a queue. -/
theorem flushPackets {iface : Iface} {ip4 : UInt32} {mac : Mac} {pkts : List PktRef}
    (hp : ∀ p ∈ pkts, m.Waits p ip4) (h : Machine.flushPackets iface ip4 mac pkts m = .ok m') :
    (∃ new, Ages [] new m m') ∧ m'.reqList = m.reqList := by
  induction pkts generalizing m with
  | nil =>
    cases h
    exact ⟨⟨[], refl _⟩, rfl⟩
  | cons p pkts ih =>
    obtain ⟨m₁, hw, h⟩ := bind_ok.mp h
    obtain ⟨m₂, hsend, h⟩ := bind_ok.mp h
    obtain ⟨hages₁, hl₁⟩ := write (F := []) hw
    have hp₁ : ∀ q ∈ p :: pkts, m₁.Waits q ip4 := fun q hq => (hp q hq).congr hl₁
    obtain ⟨⟨new₂, hages₂⟩, hl₂⟩ := sendQueued (hp₁ p List.mem_cons_self) hsend
    have hp₂ : ∀ q ∈ pkts, m₂.Waits q ip4 := fun q hq => (hp₁ q (List.mem_cons_of_mem p hq)).congr hl₂
    obtain ⟨⟨new₃, hages₃⟩, hl₃⟩ := ih hp₂ h
    exact ⟨⟨_, (hages₁.trans hages₂).trans hages₃⟩, hl₃.trans (hl₂.trans hl₁)⟩

theorem flushReqs {ip4 : UInt32} {mac : Mac} {reqs : List ReqRef} (hreqs : ∀ r ∈ reqs, r ∈ m.reqList)
    (h : Machine.flushReqs ip4 mac reqs m = .ok m') : (∃ new, Ages [] new m m') ∧ m'.reqList = m.reqList := by
  induction reqs generalizing m with
  | nil =>
    cases h
    exact ⟨⟨[], refl _⟩, rfl⟩
  | cons req rest ih =>
    have hrest : ∀ r ∈ rest, r ∈ m.reqList := fun r hr => hreqs r (List.mem_cons_of_mem req hr)
    rw [Machine.flushReqs] at h
    split_ifs at h with hip
    · obtain ⟨m₁, hflush, h⟩ := bind_ok.mp h
      obtain ⟨⟨new, hages⟩, hl⟩ :=
        flushPackets (fun p hp => ⟨req, hreqs req List.mem_cons_self, hip, hp⟩) hflush
      obtain ⟨⟨new', hages'⟩, hl'⟩ := ih (by rw [hl]; exact hrest) h
      exact ⟨⟨_, hages.trans hages'⟩, hl'.trans hl⟩
    · exact ih hrest h

/-- `arpcache_insert` -/
theorem insert {ip4 : UInt32} {mac : Mac} (h : arpcacheInsert ip4 mac m = .ok m') : ∃ new, Ages [] new m m' := by
  obtain ⟨m₂, hflush, h⟩ := bind_ok.mp h
  cases h
  obtain ⟨m₀, hm₀⟩ : ∃ m₀, m₀ = if m.table.entries.any (·.ip4 = ip4) then m else (m.malloc .cacheEntry).2 :=
    ⟨_, rfl⟩
  have h₀ : Ages [] [] m m₀ := by
    rw [hm₀]
    split_ifs
    · exact refl m
    · exact malloc m .cacheEntry
  rw [← hm₀] at hflush
  let r := tableInsert m₀.env.before ip4 mac m₀.table m₀.env.clock
  let m₁ : Machine := { m₀ with table := r.1, env := { m₀.env with clock := r.2 } }
  have h₁ : Ages [] [] m₀ m₁ := quiet rfl rfl rfl rfl
  obtain ⟨⟨new, h₂⟩, hl⟩ : (∃ new, Ages [] new m₁ m₂) ∧ m₂.reqList = m₁.reqList :=
    flushReqs (fun r hr => hr) hflush
  refine ⟨_, ((h₀.trans h₁).trans h₂).relink rfl rfl rfl fun p ip4' hp => ?_⟩
  obtain ⟨r, hr, hip, hp⟩ := hp
  exact Or.inl ⟨r, List.mem_of_mem_filter hr, hip, hp⟩

/-! ## What is received -/

/-- `arp_send_reply` frees the reply and not the request. -/
theorem reply {iface : Iface} {req : EtherArp} (h : arpSendReply iface a req m = .ok m') :
    ∃ new, Ages [] new m m' := by
  have hpacket : ∀ c, ∃ bytes, (m.malloc (.packet c)).2.heap.get (m.malloc (.packet c)).1 =
      some (.packet bytes) := fun c => ⟨c, by
    show (m.heap.malloc (.packet c)).2.get m.heap.next = _
    rw [Heap.get_malloc, if_pos rfl]⟩
  have hle : m.heap.next ≤ m.heap.next := Nat.le_refl _
  unfold arpSendReply at h
  split_ifs at h with hown
  · obtain ⟨m₁, hw, h⟩ := bind_ok.mp h
    obtain ⟨new, hsend⟩ := send (fun _ => rfl) h
    exact ⟨_, forget (((malloc m _).trans (write hw).1).trans hsend) hle⟩
  · simp only at h
    split at h
    · obtain ⟨m₁, hw, h⟩ := bind_ok.mp h
      obtain ⟨new, hsend⟩ := send (fun _ => rfl) h
      exact ⟨_, forget (((malloc m _).trans (write hw).1).trans hsend) hle⟩
    · obtain ⟨bytes, hg⟩ := hpacket (arpFrame req.sha iface.mac arpopReply zeroMac req.tpa req.sha req.spa)
      exact ⟨_, forget ((malloc m _).trans (free hg h)) hle⟩

/-- `handle_arp_packet` -/
theorem handleArp {iface : Iface} (h : handleArpPacket iface a m = .ok m') : ∃ new, Ages [a] new m m' := by
  obtain ⟨bytes, hl, h⟩ := bind_ok.mp h
  obtain ⟨ea, -, h⟩ := bind_ok.mp h
  obtain ⟨m₁, hinsert, h⟩ := bind_ok.mp h
  obtain ⟨bytes₁, -, h⟩ := bind_ok.mp h
  obtain ⟨ea₁, -, h⟩ := bind_ok.mp h
  obtain ⟨new, h₁⟩ := insert hinsert
  have hmay : ∀ x ∈ ([] : List Nat), x ∈ [a] := fun x hx => by cases hx
  simp only at h
  split_ifs at h
  · obtain ⟨m₂, hreply, h⟩ := bind_ok.mp h
    obtain ⟨new', h₂⟩ := reply hreply
    exact ⟨_, ((h₁.trans h₂).mono hmay).thenFree (get_of_load hl) h⟩
  · exact ⟨_, (h₁.mono hmay).thenFree (get_of_load hl) h⟩

/-- A message is built in fresh memory and submitted. -/
theorem message {n : Nat} {f : Frame → UInt16 → Except Fault Frame} {type code : UInt8} {iface : Iface}
    {dst : UInt32} (h : ((m.mallocBytes n).2.rand.2.load (m.mallocBytes n).1 >>= fun fresh =>
        f fresh (m.mallocBytes n).2.rand.1 >>= fun packet =>
          (m.mallocBytes n).2.rand.2.store (m.mallocBytes n).1 packet >>= fun m₁ =>
            ifaceSendPacketByArp iface dst (m.mallocBytes n).1 (m₁.log (.originated type code dst))) = .ok m') :
    ∃ new, Ages [] new m m' := by
  obtain ⟨fresh, hl, h⟩ := bind_ok.mp h
  obtain ⟨packet, -, h⟩ := bind_ok.mp h
  obtain ⟨m₁, hs, h⟩ := bind_ok.mp h
  have h₀ : Ages [m.heap.next] [] m (m.mallocBytes n).2.rand.2 := { malloc m (.packet _) with }
  obtain ⟨new, hsubmit⟩ := submit h
  have h₁ := (h₀.trans (store (get_of_load hl) hs).1).trans (log (e := .originated type code dst) rfl)
  exact ⟨_, forget (h₁.trans hsubmit) (Nat.le_refl _)⟩

variable (rtable) in
/-- `icmp_send_packet` does not free the packet that the message is about. -/
theorem icmp {type code : UInt8} (h : icmpSendPacket rtable a type code m = .ok m') :
    ∃ new, Ages [] new m m' := by
  obtain ⟨bytes, -, h⟩ := bind_ok.mp h
  obtain ⟨ihl, -, h⟩ := bind_ok.mp h
  obtain ⟨saddr, -, h⟩ := bind_ok.mp h
  cases hrt : longestPrefixMatch rtable saddr with
  | none =>
    rw [hrt] at h
    cases h
    exact ⟨[], refl _⟩
  | some rt =>
    rw [hrt] at h
    simp only at h
    split_ifs at h
    · exact message (f := fun fresh id => icmpEchoReply fresh bytes ihl rt.iface.ip saddr code id) h
    · exact message (f := fun fresh id => icmpError fresh bytes rt.iface.ip saddr type code id) h
    · cases h
      exact ⟨[], refl _⟩

/-- `icmp_send_packet` about a packet that is freed then. -/
theorem icmpFree {type code : UInt8} (hg : m.heap.get a = some (.packet b))
    (h : (icmpSendPacket rtable a type code m >>= fun m => m.free a) = .ok m') : ∃ new, Ages [a] new m m' := by
  obtain ⟨m₁, hicmp, h⟩ := bind_ok.mp h
  obtain ⟨new, h₁⟩ := icmp rtable hicmp
  exact ⟨_, (h₁.mono fun x hx => by cases hx).thenFree hg h⟩

/-- `ip_forward_packet` -/
theorem forward {ipDst : UInt32} (h : ipForwardPacket rtable ipDst a m = .ok m') : ∃ new, Ages [a] new m m' := by
  obtain ⟨bytes, hl, h⟩ := bind_ok.mp h
  obtain ⟨ttl, -, h⟩ := bind_ok.mp h
  have hg := get_of_load hl
  split_ifs at h
  · exact icmpFree hg h
  · cases hrt : longestPrefixMatch rtable ipDst with
    | none =>
      rw [hrt] at h
      exact icmpFree hg h
    | some rt =>
      rw [hrt] at h
      obtain ⟨out, -, h⟩ := bind_ok.mp h
      obtain ⟨m₁, hs, h⟩ := bind_ok.mp h
      obtain ⟨daddr, -, h⟩ := bind_ok.mp h
      obtain ⟨new, h₂⟩ := submit h
      exact ⟨_, (store hg hs).1.trans h₂⟩

/-- `handle_ip_packet` -/
theorem handleIp {iface : Iface} (h : handleIpPacket rtable iface a m = .ok m') : ∃ new, Ages [a] new m m' := by
  obtain ⟨bytes, hl, h⟩ := bind_ok.mp h
  obtain ⟨daddr, -, h⟩ := bind_ok.mp h
  split_ifs at h
  · exact icmpFree (get_of_load hl) h
  · exact forward h

/-- A frame that is received and handled: its own block is none of those of before. -/
theorem receive {iface : Iface} {frame : Frame} (h : receive rtable iface frame m = .ok m') :
    ∃ new, Ages [] new m m' := by
  obtain ⟨new, hhandle⟩ : ∃ new, Ages [m.heap.next] new (m.malloc (.packet frame)).2 m' := by
    obtain ⟨bytes, -, h⟩ := bind_ok.mp h
    obtain ⟨type, -, h⟩ := bind_ok.mp h
    split_ifs at h
    · exact handleIp h
    · exact handleArp h
    · cases h
      exact ⟨[], refl _⟩
  exact ⟨_, forget ((malloc m _).trans hhandle) (Nat.le_refl _)⟩

/-! ## The sweep -/

/-- A request is changed in place and keeps no packet that it did not have. -/
theorem update (m : Machine) (node : Nat) {f : ReqRef → ReqRef} (hip : ∀ r, (f r).ip4 = r.ip4)
    (hsub : ∀ r, ∀ p ∈ (f r).cachedPackets, p ∈ r.cachedPackets) : Ages F [] m (m.updateReq node f) := by
  refine still rfl (Nat.le_refl _) (List.append_nil _).symm rfl fun p ip4 hp => ?_
  obtain ⟨r', hr', rfl, hp⟩ := hp
  obtain ⟨r, hr, rfl⟩ := List.mem_map.mp hr'
  split_ifs at hp ⊢
  · exact ⟨r, hr, (hip r).symm, hsub r p hp⟩
  · exact ⟨r, hr, rfl, hp⟩

/-- The body of the inner loop: the packet that is given up stays live. -/
theorem sweepPacket {node tag : Nat} (h : sweepPacket rtable node tag m = .ok m') : ∃ new, Ages [] new m m' := by
  unfold Machine.sweepPacket at h
  split at h
  · cases h
  · obtain ⟨m₁, hicmp, h⟩ := bind_ok.mp h
    cases h
    obtain ⟨new, h₁⟩ := icmp rtable hicmp
    have h₂ : Ages [] [] m₁ (m₁.updateReq node (deletePkt tag)) :=
      update m₁ node (fun _ => rfl) fun r p hp => List.mem_of_mem_filter hp
    exact ⟨_, (h₁.trans h₂).trans (log rfl)⟩

/-- A loop each round of which ages the machine. -/
theorem forEachSafe {nodes : Machine → List Nat} {body : Nat → Machine → Except Fault Machine}
    (hbody : ∀ p m m', body p m = .ok m' → ∃ new, Ages [] new m m') {fuel : Nat}
    (h : forEachSafe nodes body fuel m = .ok m') : ∃ new, Ages [] new m m' := by
  refine safeLoop_invariant (I := fun m' => ∃ new, Ages [] new m m') ?_ ⟨[], refl m⟩ h
  rintro p m₁ m₂ ⟨new, h₁⟩ h₂
  obtain ⟨new', h₂⟩ := hbody p m₁ m₂ h₂
  exact ⟨_, h₁.trans h₂⟩

/-- The body of the outer loop. -/
theorem sweepReq {fuel node : Nat} (h : sweepReq rtable fuel node m = .ok m') : ∃ new, Ages [] new m m' := by
  unfold Machine.sweepReq at h
  split at h
  · cases h
  · split_ifs at h
    · obtain ⟨m₁, hloop, h⟩ := bind_ok.mp h
      cases h
      obtain ⟨new, h₁⟩ := forEachSafe (fun _ _ _ => sweepPacket) hloop
      have h₂ : Ages [] [] m₁ { m₁ with reqList := m₁.reqList.filter (·.node ≠ node) } :=
        still rfl (Nat.le_refl _) (List.append_nil _).symm rfl fun p ip4 ⟨r, hr, hip, hp⟩ =>
          ⟨r, List.mem_of_mem_filter hr, hip, hp⟩
      exact ⟨_, (h₁.trans h₂).trans (log rfl)⟩
    · obtain ⟨new, hsend⟩ := arpSendRequest (F := []) h
      have hcount := update (F := []) m.time.2 node (f := fun r => { r with retries := r.retries + 1 })
        (fun _ => rfl) fun _ _ hp => hp
      exact ⟨_, ((time m).trans hcount).trans hsend⟩
    · cases h
      exact ⟨[], time m⟩

/-- A sweep pass. -/
theorem sweep {fuel : Nat} (h : arpcacheSweep rtable fuel m = .ok m') : ∃ new, Ages [] new m m' := by
  have h₀ : Ages [] [] m (sweepTable m) := quiet rfl rfl rfl rfl
  obtain ⟨new, h₁⟩ := forEachSafe (fun _ _ _ => sweepReq) h
  exact ⟨_, h₀.trans h₁⟩

/-! ## Runs -/

theorem step {i : Input} (h : Step rtable i m m') : ∃ new, Ages [] new m m' := by
  have h₀ : ∀ env, Ages [] [] m { m with env := env } := fun env => quiet rfl rfl rfl rfl
  cases h with
  | @frame _ _ env _ _ h =>
    obtain ⟨new, h₁⟩ := receive h
    exact ⟨_, (h₀ env).trans h₁⟩
  | @sweep _ env _ _ h =>
    obtain ⟨new, h₁⟩ := sweep h
    exact ⟨_, (h₀ env).trans h₁⟩

theorem steps {is : List Input} (h : Runs.Steps (Step rtable) (fun _ _ => True) is m m') :
    ∃ new, Ages [] new m m' := by
  refine Runs.Steps.invariant (I := fun m' => ∃ new, Ages [] new m m') ?_ h ⟨[], refl m⟩
  rintro i m₁ m₂ - ⟨new, h₁⟩ hstep
  obtain ⟨new', h₂⟩ := step hstep
  exact ⟨_, h₁.trans h₂⟩

end Ages

/-! ## The pointers that were read before -/

variable {held : List (Nat × Frame)} {extra entries : Nat} {s : Router}

/-- No two of the packets that wait are the same block. -/
theorem Shows.eq_of_packet (h : m.Shows held extra entries s) {p q : PktRef} {ip4 ip4' : UInt32} (hp : m.Waits p ip4)
    (hq : m.Waits q ip4') (he : p.packet = q.packet) : p = q ∧ ip4 = ip4' := by
  obtain ⟨r, hr, rfl, hp⟩ := hp
  obtain ⟨r', hr', rfl, hq⟩ := hq
  have hmem : ∀ {x : PktRef}, x.packet ∈ x.blocks := by simp [PktRef.blocks]
  have hnd := (List.nodup_append.mp h.owns.apart).2.1
  obtain rfl : r = r' :=
    eq_of_mem_flatMap hnd hr hr' (ReqRef.mem_blocks hp hmem) (he ▸ ReqRef.mem_blocks hq hmem)
  have hqueue := (List.nodup_cons.mp ((List.nodup_flatMap.mp hnd).1 r hr)).2
  exact ⟨eq_of_mem_flatMap hqueue hp hq hmem (he ▸ hmem), rfl⟩

/-- Nor have two of them the same tag. -/
theorem Shows.eq_of_tag (h : m.Shows held extra entries s) (hw : Store.Wf ⟨s, none⟩) {p q : PktRef} {ip4 : UInt32}
    (hp : m.Waits p ip4) (hq : m.Waits q ip4) (he : p.tag = q.tag) : p = q := by
  obtain ⟨r, hr, rfl, hp⟩ := hp
  obtain ⟨r', hr', hip, hq⟩ := hq
  have hip4s : (m.reqList.map (·.ip4)).Nodup := by
    rw [h.map_ip4]
    exact hw.ip4s
  obtain rfl : r' = r := List.inj_on_of_nodup_map hip4s hr' hr hip
  obtain ⟨c, hc, hrc⟩ := forall₂_mem h.owns.queues hr
  have htags : (r'.cachedPackets.map (·.tag)).Nodup := by
    rw [forall₂_map_eq hrc.queue fun _ _ hpc => hpc.tag]
    exact (hw.ordered c hc).imp Nat.ne_of_lt
  exact List.inj_on_of_nodup_map htags hp hq he

/-- Nor is a tag given out again. -/
theorem Shows.tag_lt (h : m.Shows held extra entries s) (hw : Store.Wf ⟨s, none⟩) {p : PktRef} {ip4 : UInt32}
    (hp : m.Waits p ip4) : p.tag < m.next := by
  obtain ⟨r, hr, -, hp⟩ := hp
  obtain ⟨q, hq, hrq⟩ := forall₂_mem h.owns.queues hr
  obtain ⟨c, hc, hpc⟩ := forall₂_mem hrq.queue hp
  rw [hpc.tag, h.next]
  exact hw.oldTags q hq c hc

end Machine

/-- **What a pointer into a queue is worth later.** Suppose that one thread has taken a request and a packet of
its queue from the lists, and that the other has run since. However many frames and passes that were, the two
structs are still live. The packet itself can be read exactly if `arpcache_insert` has not sent it since, and
if it has, an ICMP report about the packet, such as `arpcache_sweep` makes, reads freed memory. -/
theorem stale_pointers {is js : List Input} {m m' : Machine} (h : Machine.Run rtable is m) {r : ReqRef}
    (hr : r ∈ m.reqList) {p : PktRef} (hp : p ∈ r.cachedPackets)
    (hs : Runs.Steps (Machine.Step rtable) (fun _ _ => True) js m m') :
    ∃ new, m'.trace = m.trace ++ new ∧
      m'.heap.get r.addr = some .arpReq ∧ m'.heap.get p.addr = some .cachedPkt ∧
      ((∃ bytes, m'.load p.packet = .ok bytes) ↔ (p.tag, r.ip4) ∉ flushes new) ∧
      ((p.tag, r.ip4) ∈ flushes new → ∀ type code,
        m'.icmpSendPacket rtable p.packet type code = .error .outOfBounds) := by
  obtain ⟨env, s, hrun, h⟩ := h.shows
  have hw : Store.Wf ⟨s, none⟩ := RunOf.wf (hrun.runOf (.init ⟨env, rfl⟩))
  have hwait : m.Waits p r.ip4 := ⟨r, hr, rfl, hp⟩
  obtain ⟨q, -, hrq⟩ := forall₂_mem h.owns.queues hr
  obtain ⟨c, -, hpc⟩ := forall₂_mem hrq.queue hp
  obtain ⟨new, hages⟩ := Machine.Ages.steps hs
  -- a packet that is sent is freed
  have hfreed : (p.tag, r.ip4) ∈ flushes new → m'.heap.get p.packet = none := by
    intro hsent
    rcases hages.sent _ hsent with hle | ⟨p', hp', htag, hfreed⟩
    · have hlt := h.tag_lt hw hwait
      exact absurd hle (Nat.not_le.mpr hlt)
    · obtain rfl := h.eq_of_tag hw hp' hwait htag
      exact hfreed.2
  have hload : m'.heap.get p.packet = none → ∀ {f : Frame → Except Fault Machine},
      (m'.load p.packet >>= f) = .error .outOfBounds := by
    intro hnone f
    rw [Machine.load, Heap.load, hnone]
    rfl
  refine ⟨new, hages.trace, hages.structs _ _ hrq.struct rfl, hages.structs _ _ hpc.struct rfl, ?_, ?_⟩
  · constructor
    · rintro ⟨bytes, hl⟩ hsent
      have hg := Machine.get_of_load hl
      rw [hfreed hsent] at hg
      cases hg
    · intro hnot
      rcases hages.packets _ _ hpc.packet with ⟨bytes, hg⟩ | ⟨-, hnil | ⟨p', ip4, hp', he, hsent⟩⟩
      · exact ⟨bytes, Machine.load_eq hg⟩
      · cases hnil
      · obtain ⟨rfl, rfl⟩ := h.eq_of_packet hp' hwait he
        exact absurd hsent hnot
  · intro hsent type code
    exact hload (hfreed hsent)

/-- The next hop answers after the packet was taken from its queue. -/
theorem stale_pointers_answer : ∃ m m' : Machine, ∃ r ∈ m.reqList, ∃ p ∈ r.cachedPackets,
    (∃ bytes, m.load p.packet = .ok bytes) ∧
      m'.icmpSendPacket Sample.connected p.packet 3 1 = .error .outOfBounds := by
  obtain ⟨m, hm, ⟨r, hr, hip, p, hp, htag⟩, hnone, hnext⟩ := Machine.Run.of_replay Sample.connected 8
    [.frame Sample.eth0 (Sample.udp 0x0a000102 0x0a000202 64) (Sample.clockAt 0)]
    (fun m => (∃ r ∈ m.reqList, r.ip4 = 0x0a000202 ∧ ∃ p ∈ r.cachedPackets, p.tag = 0) ∧
      flushes m.trace = [] ∧
      (Runs.replay (fun _ _ => True) (fun i (m : Machine) => (m.doInput Sample.connected 8 i).toOption)
        [.frame Sample.eth1 (Sample.arpReply 0x0a000202 (Sample.station 9)) (Sample.clockAt 1)] m).any
          fun m' => flushes m'.trace = [(0, 0x0a000202)]) (by decide +kernel)
  have hexec : ∀ i (m m' : Machine), (m.doInput Sample.connected 8 i).toOption = some m' →
      Machine.Step Sample.connected i m m' :=
    fun i m m' h => Machine.step_iff.mpr ⟨8, toOption_eq_some.mp h⟩
  obtain ⟨m', hs, hsent⟩ :=
    Runs.Steps.of_replay (P := fun m' => flushes m'.trace = [(0, 0x0a000202)]) hexec hnext
  obtain ⟨new₀, htr₀, -, -, hlive, -⟩ := stale_pointers hm hr hp (.refl m)
  obtain ⟨new, htr, -, -, -, hreport⟩ := stale_pointers hm hr hp hs
  refine ⟨m, m', r, hr, p, hp, hlive.mpr ?_, hreport ?_ 3 1⟩
  · rw [List.self_eq_append_right.mp htr₀]
    exact List.not_mem_nil
  · rw [htr, flushes_append, hnone, List.nil_append] at hsent
    rw [hsent, htag, hip]
    exact List.mem_cons_self

end StaticRouter
