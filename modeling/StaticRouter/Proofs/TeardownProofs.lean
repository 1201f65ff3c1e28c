import StaticRouter.Proofs.FrameProofs

/-!
# Proofs: the actions of a teardown

The relation `MidPass` says, between two rounds of the inner loop, how the request list relates to the one
of before the pass. A round keeps it and gives one packet up, so the inner loop serves the queue as
`serve` says.
-/

namespace StaticRouter

open CMem FeedingQueue

variable {rtable : List RtEntry}

/-! ## One packet -/

/-- The node, the interface and the address of a request; they never change. -/
def ArpReq.ident (r : ArpReq) : Nat × Iface × UInt32 := (r.node, r.iface, r.ip4)

/-- The request was opened for a message to its address, and has not been given up on. -/
def OpenedNow (rtable : List RtEntry) (r : ArpReq) : Prop :=
  r.retries < 5 ∧ ∃ rt, longestPrefixMatch rtable r.ip4 = some rt ∧ rt.iface = r.iface

/-- What `iface_send_packet_by_arp` does to the request list: the packet joins the request for its next
hop, or opens one, unless the cache knows the hardware address. -/
theorem ifaceSendPacketByArp_reqList {iface : Iface} {dst : UInt32} {packet : Frame} {s s' : Router}
    (h : ifaceSendPacketByArp iface dst packet s = .ok s') :
    ∃ pkts new : List CachedPkt, ∃ sent,
      s'.reqList = s.reqList.map (fun r => if r.ip4 = dst then
        { r with cachedPackets := r.cachedPackets ++ pkts } else r) ++
        new.map (fun p => ⟨s.next, iface, dst, sent, 0, [p]⟩) ∧
      s'.table = s.table ∧ new.length ≤ 1 ∧
      (∀ p ∈ pkts ++ new, Filled iface packet p.packet ∧ p.tag = s.next) ∧
      ((∃ r ∈ s.reqList, r.ip4 = dst) →
        pkts.length = if arpcacheLookup s.table dst = none then 1 else 0) := by
  obtain ⟨q, hq, ⟨mac, frame, hl, -, rfl⟩ | ⟨hl, hex, rfl⟩ | ⟨hl, hnew, rfl⟩⟩ :=
    ifaceSendPacketByArp_cases h
  · refine ⟨[], [], 0, ?_, rfl, Nat.zero_le _, by simp, fun _ => by simp [hl]⟩
    have hid : (fun r : ArpReq => if r.ip4 = dst then { r with cachedPackets := r.cachedPackets ++ [] }
        else r) = id := by
      funext r; simp
    rw [hid, List.map_id]
    simp
  · refine ⟨[⟨s.next, q⟩], [], 0, ?_, rfl, Nat.zero_le _, by simp [hq], fun _ => by simp [hl]⟩
    simp [ArpReq.append]
  · refine ⟨[], [⟨s.next, q⟩], s.env.clock 0, ?_, rfl, Nat.le_refl _, by simp [hq], ?_⟩
    · have hid : (fun r : ArpReq => if r.ip4 = dst then { r with cachedPackets := r.cachedPackets ++ [] }
          else r) = id := by
        funext r; simp
      rw [hid, List.map_id]
      simp
    · rintro ⟨r, hr, hi⟩
      exact absurd hi (hnew r hr)

/-- What the report about a packet does to the request list: the message joins the request for the
packet's source, or opens one, if it has to wait at all. -/
theorem icmpSendPacket_reqList {pkt : Frame} {s s' : Router}
    (h : icmpSendPacket rtable pkt 3 1 s = .ok s') :
    ∃ (f : ArpReq → ArpReq) (new : List ArpReq), s'.reqList = s.reqList.map f ++ new ∧
      s'.table = s.table ∧ new.length ≤ 1 ∧
      (∀ r ∈ new, OpenedNow rtable r ∧ ∀ p ∈ r.cachedPackets, Quotable p) ∧
      ∀ r ∈ s.reqList, ∃ extra, f r = { r with cachedPackets := r.cachedPackets ++ extra } ∧
        extra.map (fun p => sourceOf p.packet) =
          feed r.ip4 (queuedReply rtable s.table r.ip4) (sourceOf pkt) ∧
        ∀ p ∈ extra, Quotable p := by
  rcases icmpSendPacket_cases (Or.inr (Or.inl rfl)) h with ⟨hr, rfl⟩ | ⟨rt, q, hr, hb, h⟩
  · refine ⟨id, [], by simp, rfl, by simp, by simp, fun r _ => ⟨[], by simp, ?_, by simp⟩⟩
    unfold feed queuedReply
    split_ifs with hip
    · rw [← hip, hr]; rfl
    · rfl
    · rfl
  · obtain ⟨hlen, hq⟩ := builtMessage_ok hb
    obtain ⟨pkts, new, sent, hl, htab, hnew, hall, hcount⟩ := ifaceSendPacketByArp_reqList h
    have hlong : ∀ p ∈ pkts ++ new, Quotable p := by
      intro p hp
      rw [Quotable, (hall p hp).1.sameDatagram.1, hlen, if_neg (by decide)]
      decide
    have hsrc : ∀ p ∈ pkts ++ new, sourceOf p.packet = rt.iface.ip := fun p hp =>
      (hall p hp).1.sameDatagram.sourceOf.trans hq.source
    refine ⟨_, _, hl, htab, by simpa using hnew, ?_, ?_⟩
    · intro r hr'
      obtain ⟨p, hp, rfl⟩ := List.mem_map.mp hr'
      refine ⟨⟨by simp, rt, hr, rfl⟩, ?_⟩
      intro p' hp'
      rw [List.mem_singleton.mp hp']
      exact hlong p (List.mem_append_right _ hp)
    · intro r hr'
      by_cases hip : r.ip4 = sourceOf pkt
      · refine ⟨pkts, by rw [if_pos hip], ?_, fun p hp => ?_⟩
        · have hc := hcount ⟨r, hr', hip⟩
          have hmap : pkts.map (fun p => sourceOf p.packet) = pkts.map fun _ => rt.iface.ip :=
            List.map_congr_left fun p hp => hsrc p (List.mem_append_left _ hp)
          rw [hmap, List.map_const', hip, feed_self, queuedReply, hc]
          change List.replicate (if arpcacheLookup s.table (sourceOf pkt) = none then 1 else 0) _ = _
          split_ifs
          · rw [hr]; rfl
          · rfl
        · exact hlong p (List.mem_append_left _ hp)
      · refine ⟨[], ?_, ?_, by simp⟩
        · rw [if_neg hip, List.append_nil]
        · rw [feed_of_ne (Ne.symm hip)]; rfl

/-! ## Between two rounds of the inner loop -/

/-- A request as a pass finds it after giving up packets with the sources `acc`. -/
def viewAt (reply : UInt32 → Option UInt32) (acc : List UInt32) (r : ArpReq) :
    (Nat × Iface × UInt32) × Int × List UInt32 := (r.ident, r.retries, queueAt reply acc r)

/-- The list of a pass in which the request `cur` is being torn down: the requests `kept` of before the
pass are behind it, the nodes `ahead` are to come, those of `rest` among them, and packets with the
sources `acc` have been given up. -/
def MidPass (rtable : List RtEntry) (table : ArpTable) (kept rest : List ArpReq) (acc : List UInt32)
    (cur : ArpReq) (ahead : List Nat) (s : Router) : Prop :=
  s.table = table ∧ ∃ K R N, s.reqList = K ++ cur :: (R ++ N) ∧ (R ++ N).map (·.node) = ahead ∧
    K.map ArpReq.ident = kept.map ArpReq.ident ∧
    R.map (viewAt (queuedReply rtable table) []) = rest.map (viewAt (queuedReply rtable table) acc) ∧
    ∀ n ∈ N, OpenedNow rtable n

/-- The actions of a round of the inner loop for the teardown `td`, which gives up packets with the
sources `v`. -/
def TearAct (rtable : List RtEntry) (td : Teardown) (v : List UInt32) : Act → Store → Prop
  | .env, _ => True
  | .originate _ _ dst, _ => dst ∈ v
  | .submit iface dst packet, st => dst ∈ v ∧ TearingDown rtable td st ∧
      IcmpMessage iface.ip dst 3 packet ∧ ∃ rt, longestPrefixMatch rtable dst = some rt ∧ rt.iface = iface
  | .giveUp _, _ => True
  | _, _ => False

theorem TearAct.mono {td : Teardown} {v v' : List UInt32} (hv : ∀ x ∈ v, x ∈ v') (act : Act)
    (st : Store) (h : TearAct rtable td v act st) : TearAct rtable td v' act st := by
  cases act with
  | originate => exact hv _ h
  | submit => exact ⟨hv _ h.1, h.2⟩
  | _ => exact h

theorem MidPass.tearingDown {table : ArpTable} {kept rest : List ArpReq} {acc : List UInt32}
    {cur : ArpReq} {ahead : List Nat} {s : Router}
    (h : MidPass rtable table kept rest acc cur ahead s) {td : Teardown}
    (hcur : cur.node = td.req.node) (htd : td.others = kept ++ rest) :
    TearingDown rtable td ⟨s, some cur.node⟩ := by
  obtain ⟨-, K, R, N, hl, -, hK, hR, hN⟩ := h
  have hident : ∀ {r o : ArpReq}, o.ident = r.ident →
      o.node = r.node ∧ o.iface = r.iface ∧ o.ip4 = r.ip4 := by
    intro r o he
    simpa only [ArpReq.ident, Prod.mk.injEq] using he
  refine ⟨by rw [hcur], fun r hr => ?_⟩
  simp only [hl, List.mem_append, List.mem_cons] at hr
  rcases hr with hr | rfl | hr | hr
  · have hm := List.mem_map_of_mem (f := ArpReq.ident) hr
    rw [hK, List.mem_map] at hm
    obtain ⟨o, ho, he⟩ := hm
    exact Or.inr (Or.inl ⟨o, by rw [htd]; exact List.mem_append_left _ ho, hident he⟩)
  · exact Or.inl hcur
  · have hm := List.mem_map_of_mem (f := viewAt (queuedReply rtable table) []) hr
    rw [hR, List.mem_map] at hm
    obtain ⟨o, ho, he⟩ := hm
    exact Or.inr (Or.inl ⟨o, by rw [htd]; exact List.mem_append_right _ ho,
      hident (congrArg Prod.fst he)⟩)
  · exact Or.inr (Or.inr (hN r hr).2)

/-- `icmp_send_packet` makes the actions of a round. -/
theorem icmpSendPacket_path {td : Teardown} {pkt : Frame} {s s' : Router} {node : Nat}
    (htd : TearingDown rtable td ⟨s, some node⟩) (h : icmpSendPacket rtable pkt 3 1 s = .ok s') :
    Path (TearAct rtable td [sourceOf pkt]) ⟨s, some node⟩ ⟨s', some node⟩ := by
  rcases icmpSendPacket_cases (Or.inr (Or.inl rfl)) h with ⟨-, rfl⟩ | ⟨rt, q, hr, hb, h⟩
  · exact .refl _
  · refine (Path.single .env trivial (.env s _ s.drawn.env)).trans ?_
    refine (Path.single (.originate 3 1 (sourceOf pkt)) ?_ (.originate _ _ 3 1 _)).trans ?_
    · exact List.mem_singleton.mpr rfl
    · refine .single (.submit rt.iface (sourceOf pkt) q) ?_ (.submit _ h)
      exact ⟨List.mem_singleton.mpr rfl, ⟨htd.tearing, htd.known⟩, (builtMessage_ok hb).2, rt, hr, rfl⟩

/-- Changing the one element with a key. -/
theorem map_update {α κ : Type} [DecidableEq κ] {key : α → κ} {A B : List α} {x : α}
    (h : ((A ++ x :: B).map key).Nodup) (F : α → α) :
    (A ++ x :: B).map (fun r => if key r = key x then F r else r) = A ++ F x :: B := by
  rw [List.map_append, List.map_cons, List.nodup_append, List.nodup_cons] at h
  obtain ⟨-, ⟨hB, -⟩, hA⟩ := h
  have hid : ∀ l : List α, (∀ r ∈ l, key r ≠ key x) →
      l.map (fun r => if key r = key x then F r else r) = l := by
    intro l hl
    conv_rhs => rw [← List.map_id l]
    exact List.map_congr_left fun r hr => if_neg (hl r hr)
  rw [List.map_append, List.map_cons, if_pos rfl, hid A, hid B]
  · exact fun r hr he => hB (List.mem_map.mpr ⟨r, hr, he⟩)
  · exact fun r hr he => hA _ (List.mem_map_of_mem hr) _ List.mem_cons_self he

/-- Removing the one element with a key. -/
theorem filter_unlink {α κ : Type} [DecidableEq κ] {key : α → κ} {A B : List α} {x : α}
    (h : ((A ++ x :: B).map key).Nodup) : (A ++ x :: B).filter (key · ≠ key x) = A ++ B := by
  rw [List.map_append, List.map_cons, List.nodup_append, List.nodup_cons] at h
  obtain ⟨-, ⟨hB, -⟩, hA⟩ := h
  have hall : ∀ l : List α, (∀ r ∈ l, key r ≠ key x) → l.filter (key · ≠ key x) = l :=
    fun l hl => List.filter_eq_self.mpr fun r hr => by simpa using hl r hr
  rw [List.filter_append, List.filter_cons, if_neg (by simp), hall A, hall B]
  · exact fun r hr he => hB (List.mem_map.mpr ⟨r, hr, he⟩)
  · exact fun r hr he => hA _ (List.mem_map_of_mem hr) _ List.mem_cons_self he

/-- One more packet is given up, as the pass sees the requests to come. -/
theorem map_viewAt_append {reply : UInt32 → Option UInt32} {acc : List UInt32} {x : UInt32}
    {f : ArpReq → ArpReq} {R rest : List ArpReq}
    (hR : R.map (viewAt reply []) = rest.map (viewAt reply acc))
    (hf : ∀ r ∈ R, ∃ extra, f r = { r with cachedPackets := r.cachedPackets ++ extra } ∧
      extra.map (fun p => sourceOf p.packet) = feed r.ip4 (reply r.ip4) x) :
    (R.map f).map (viewAt reply []) = rest.map (viewAt reply (acc ++ [x])) := by
  let grow : (Nat × Iface × UInt32) × Int × List UInt32 → (Nat × Iface × UInt32) × Int × List UInt32 :=
    fun v => (v.1, v.2.1, v.2.2 ++ feed v.1.2.2 (reply v.1.2.2) x)
  have h₁ : (R.map f).map (viewAt reply []) = (R.map (viewAt reply [])).map grow := by
    rw [List.map_map, List.map_map]
    refine List.map_congr_left fun r hr => ?_
    obtain ⟨extra, he, hsrc⟩ := hf r hr
    simp [viewAt, queueAt, ArpReq.sources, ArpReq.ident, he, hsrc, grow]
  have h₂ : rest.map (viewAt reply (acc ++ [x])) = (rest.map (viewAt reply acc)).map grow := by
    rw [List.map_map]
    refine List.map_congr_left fun r _ => ?_
    simp [viewAt, queueAt, ArpReq.ident, grow]
  rw [h₁, h₂, hR]

/-- A round of the inner loop gives one packet up. -/
theorem sweepPacket_step {table : ArpTable} {kept rest : List ArpReq} {acc : List UInt32} {cur : ArpReq}
    {ahead : List Nat} {s s' : Router} {td : Teardown} {p : CachedPkt} {t : List CachedPkt}
    (hw : Store.Wf ⟨s, some cur.node⟩) (hm : MidPass rtable table kept rest acc cur ahead s)
    (hcur : cur.node = td.req.node) (htd : td.others = kept ++ rest) (hc : cur.cachedPackets = p :: t)
    (h : sweepPacket rtable cur.node p.tag s = .ok s') :
    ∃ extra new, extra.map (fun p => sourceOf p.packet) =
        feed cur.ip4 (queuedReply rtable table cur.ip4) (sourceOf p.packet) ∧ new.length ≤ 1 ∧
      MidPass rtable table kept rest (acc ++ [sourceOf p.packet])
        { cur with cachedPackets := t ++ extra } (ahead ++ new) s' ∧
      Path (TearAct rtable td [sourceOf p.packet]) ⟨s, some cur.node⟩ ⟨s', some cur.node⟩ := by
  have hdown := hm.tearingDown hcur htd
  obtain ⟨rfl, K, R, N, hl, hahead, hK, hR, hN⟩ := hm
  have hmem : cur ∈ s.reqList := by rw [hl]; simp
  simp only [sweepPacket, hw.findReq_eq hmem, Option.bind_some, hc, decide_true,
    List.find?_cons_of_pos, bind_ok] at h
  obtain ⟨s₁, h₁, h⟩ := h
  have hpath := icmpSendPacket_path hdown h₁
  have hw₁ := hw.path hpath
  obtain ⟨f, new, hl₁, htab, hnew, hopen, hf⟩ := icmpSendPacket_reqList h₁
  have hsub : ∀ r, r ∈ K ∨ r ∈ R ∨ r ∈ N → r ∈ s.reqList := by
    intro r hr
    rw [hl]
    rcases hr with hr | hr | hr <;> simp [hr]
  have hsame : ∀ r ∈ s.reqList, (f r).node = r.node ∧ (f r).ident = r.ident := by
    intro r hr
    obtain ⟨extra, he, -⟩ := hf r hr
    rw [he]
    exact ⟨rfl, rfl⟩
  obtain ⟨extra, hfc, hsrc, -⟩ := hf cur hmem
  have hl₁' : s₁.reqList = K.map f ++ f cur :: (R.map f ++ (N.map f ++ new)) := by
    rw [hl₁, hl]; simp
  -- the packet itself is the first one of the queue, so unlinking it leaves the others
  have hdel : (f cur).deletePkt p.tag = { cur with cachedPackets := t ++ extra } := by
    have ho := hw₁.ordered (f cur) (by rw [hl₁']; simp)
    simp only [hfc, hc, List.cons_append, List.map_cons, List.pairwise_cons] at ho
    have hkeep : (t ++ extra).filter (·.tag ≠ p.tag) = t ++ extra := by
      refine List.filter_eq_self.mpr fun x hx => ?_
      have := ho.1 _ (List.mem_map_of_mem hx)
      simpa using Nat.ne_of_gt this
    simp only [hfc, hc, ArpReq.deletePkt, List.cons_append, List.filter_cons]
    rw [if_neg (by simp), hkeep]
  have hl' : s'.reqList = K.map f ++ { cur with cachedPackets := t ++ extra } ::
      (R.map f ++ (N.map f ++ new)) := by
    rw [← Except.ok.inj h, ← hdel]
    have hnodes := hw₁.nodes
    rw [hl₁'] at hnodes
    simp only [Router.log, Router.updateReq, hl₁']
    rw [← (hsame cur hmem).1]
    exact map_update hnodes _
  refine ⟨extra, new.map (·.node), hsrc, by simpa using hnew, ⟨?_, K.map f, R.map f, N.map f ++ new,
    hl', ?_, ?_, ?_, ?_⟩, ?_⟩
  · rw [← Except.ok.inj h, ← htab]; rfl
  · rw [← hahead, ← List.append_assoc, List.map_append, ← List.map_append (f := f), List.map_map]
    congr 1
    exact List.map_congr_left fun r hr => (hsame r (hsub r (Or.inr (by simpa using hr)))).1
  · rw [List.map_map, ← hK]
    exact List.map_congr_left fun r hr => (hsame r (hsub r (Or.inl hr))).2
  · refine map_viewAt_append hR fun r hr => ?_
    obtain ⟨extra, he, hs, -⟩ := hf r (hsub r (Or.inr (Or.inl hr)))
    exact ⟨extra, he, hs⟩
  · intro n hn
    rcases List.mem_append.mp hn with hn | hn
    · obtain ⟨r, hr, rfl⟩ := List.mem_map.mp hn
      obtain ⟨extra, he, -⟩ := hf r (hsub r (Or.inr (Or.inr hr)))
      rw [he]
      exact hN r hr
    · exact (hopen n hn).1
  · refine hpath.trans (.single (.giveUp p.tag) trivial ?_)
    rw [← Except.ok.inj h]
    refine .giveUp ?_
    rw [Router.queueNodes, ← (hsame cur hmem).1, hw₁.findReq_eq (by rw [hl₁']; simp)]
    simp [hfc, hc]

/-- The queue of the request that is being torn down, as the inner loop sees it. -/
theorem MidPass.queueNodes {table : ArpTable} {kept rest : List ArpReq} {acc : List UInt32}
    {cur : ArpReq} {ahead : List Nat} {s : Router}
    (hm : MidPass rtable table kept rest acc cur ahead s) (hw : Store.Wf ⟨s, some cur.node⟩) :
    Router.queueNodes cur.node s = cur.cachedPackets.map (·.tag) ∧
      (Router.queueNodes cur.node s).Nodup := by
  obtain ⟨-, K, R, N, hl, -⟩ := hm
  have hmem : cur ∈ s.reqList := by rw [hl]; simp
  have hq : Router.queueNodes cur.node s = cur.cachedPackets.map (·.tag) := by
    rw [Router.queueNodes, hw.findReq_eq hmem]; rfl
  refine ⟨hq, ?_⟩
  rw [hq]
  exact (hw.ordered cur hmem).imp Nat.ne_of_lt

/-! ## The inner loop -/

/-- A completed round of the inner loop, as the rest of the loop and `serve` see it. -/
theorem tearLoop_succ {table : ArpTable} {kept rest : List ArpReq} {td : Teardown}
    (htd : td.others = kept ++ rest) {acc : List UInt32} {cur : ArpReq} {ahead : List Nat}
    {s s₁ : Router} {p : CachedPkt} {t : List CachedPkt}
    (hm : MidPass rtable table kept rest acc cur ahead s) (hw : Store.Wf ⟨s, some cur.node⟩)
    (hcur : cur.node = td.req.node) (hc : cur.cachedPackets = p :: t)
    (hb : sweepPacket rtable cur.node p.tag s = .ok s₁) (fuel : Nat) :
    ∃ extra new, new.length ≤ 1 ∧
      MidPass rtable table kept rest (acc ++ [sourceOf p.packet])
        { cur with cachedPackets := t ++ extra } (ahead ++ new) s₁ ∧
      Store.Wf ⟨s₁, some cur.node⟩ ∧
      Path (TearAct rtable td [sourceOf p.packet]) ⟨s, some cur.node⟩ ⟨s₁, some cur.node⟩ ∧
      safeLoopFrom (Router.queueNodes cur.node) (sweepPacket rtable cur.node) (fuel + 1)
          (cur.cachedPackets.map (·.tag)) s =
        (if t = [] then .ok s₁ else safeLoopFrom (Router.queueNodes cur.node)
          (sweepPacket rtable cur.node) fuel ((t ++ extra).map (·.tag)) s₁) ∧
      serve cur.ip4 (queuedReply rtable table cur.ip4) (fuel + 1) cur.sources =
        if t = [] then some ([sourceOf p.packet], extra.map fun p => sourceOf p.packet)
        else (serve cur.ip4 (queuedReply rtable table cur.ip4) fuel
          ((t ++ extra).map fun p => sourceOf p.packet)).map fun r => (sourceOf p.packet :: r.1, r.2) := by
  obtain ⟨extra, new, hsrc, hnew, hm₁, hpath⟩ := sweepPacket_step hw hm hcur htd hc hb
  have hw₁ : Store.Wf ⟨s₁, some cur.node⟩ := hw.path hpath
  obtain ⟨hq₁, hnd₁⟩ := hm₁.queueNodes hw₁
  have hn₁ : Router.queueNodes cur.node s₁ = [] ++ (t.map (·.tag) ++ extra.map (·.tag)) := by
    rw [List.nil_append, ← List.map_append]
    exact hq₁
  have hq : cur.sources = sourceOf p.packet :: t.map fun p => sourceOf p.packet := by
    rw [ArpReq.sources, hc, List.map_cons]
  refine ⟨extra, new, hnew, hm₁, hw₁, hpath, ?_, ?_⟩
  · rw [hc, List.map_cons, safeLoopFrom_ok hb hn₁ hnd₁, ← List.map_append]
    by_cases ht : t = []
    · rw [if_pos ht, if_pos (by rw [ht]; rfl), safeLoopFrom_nil]
    · rw [if_neg ht, if_neg (by simpa using ht)]
  · rw [hq, serve, ← hsrc, ← List.map_append]
    by_cases ht : t = []
    · rw [if_pos ht, if_pos (by rw [ht]; rfl)]
    · rw [if_neg ht, if_neg (by simpa using ht)]

/-- A completed inner loop serves the queue, and `serve` says which packets. -/
theorem tearLoop_ok {table : ArpTable} {kept rest : List ArpReq} {td : Teardown}
    (htd : td.others = kept ++ rest) {fuel : Nat} {acc : List UInt32} {cur : ArpReq} {ahead : List Nat}
    {s s' : Router} (hm : MidPass rtable table kept rest acc cur ahead s)
    (hw : Store.Wf ⟨s, some cur.node⟩) (hcur : cur.node = td.req.node)
    (h : safeLoopFrom (Router.queueNodes cur.node) (sweepPacket rtable cur.node) fuel
      (cur.cachedPackets.map (·.tag)) s = .ok s') :
    ∃ v pkts new, serve cur.ip4 (queuedReply rtable table cur.ip4) fuel cur.sources =
        some (v, pkts.map fun p => sourceOf p.packet) ∧ new.length ≤ v.length ∧
      MidPass rtable table kept rest (acc ++ v) { cur with cachedPackets := pkts } (ahead ++ new) s' ∧
      Path (TearAct rtable td v) ⟨s, some cur.node⟩ ⟨s', some cur.node⟩ := by
  induction fuel using Nat.strongRec generalizing acc cur ahead s with
  | _ fuel ih =>
    cases hc : cur.cachedPackets with
    | nil =>
      rw [hc, List.map_nil, safeLoopFrom_nil, Except.ok.injEq] at h
      subst h
      refine ⟨[], [], [], by rw [ArpReq.sources, hc, List.map_nil, serve], Nat.le_refl _, ?_, .refl _⟩
      rw [List.append_nil, List.append_nil, ← hc]
      exact hm
    | cons p t =>
      cases fuel with
      | zero => simp [hc] at h
      | succ fuel =>
        cases hb : sweepPacket rtable cur.node p.tag s with
        | error e =>
          rw [hc, List.map_cons, safeLoopFrom_error hb] at h
          cases h
        | ok s₁ =>
          obtain ⟨extra, new, hnew, hm₁, hw₁, hpath, hloop, hserve⟩ :=
            tearLoop_succ htd hm hw hcur hc hb fuel
          rw [hloop] at h
          rw [hserve]
          by_cases ht : t = []
          · rw [if_pos ht, Except.ok.injEq] at h
            subst h ht
            exact ⟨[sourceOf p.packet], extra, new, if_pos rfl, hnew, hm₁, hpath⟩
          · rw [if_neg ht] at h
            obtain ⟨v, pkts, new', hv, hnew', hm', hpath'⟩ := ih fuel (Nat.lt_succ_self _) hm₁ hw₁ hcur h
            refine ⟨sourceOf p.packet :: v, pkts, new ++ new', ?_, ?_, ?_, ?_⟩
            · rw [if_neg ht]
              exact Option.map_eq_some_iff.mpr ⟨_, hv, rfl⟩
            · rw [List.length_append, List.length_cons]
              omega
            · rw [← List.append_assoc]
              simpa using hm'
            · exact (hpath.mono (TearAct.mono (by simp))).trans
                (hpath'.mono (TearAct.mono fun x hx => List.mem_cons_of_mem _ hx))

/-- A round keeps the packets quotable: the messages that it queues are. -/
theorem AllQuotable.sweepPacket {node tag : Nat} {s s' : Router} (hq : AllQuotable s)
    (h : sweepPacket rtable node tag s = .ok s') : AllQuotable s' := by
  obtain ⟨-, -, -, pkt, -, -, -, s₁, h₁, rfl⟩ := sweepPacket_cases h
  obtain ⟨f, new, hl, -, -, hnew, hf⟩ := icmpSendPacket_reqList h₁
  have hq₁ : AllQuotable s₁ := by
    intro r hr
    rw [hl, List.mem_append] at hr
    rcases hr with hr | hr
    · obtain ⟨r₀, hr₀, rfl⟩ := List.mem_map.mp hr
      obtain ⟨extra, he, -, hlong⟩ := hf r₀ hr₀
      intro p hp
      rw [he] at hp
      rcases List.mem_append.mp hp with hp | hp
      · exact hq r₀ hr₀ p hp
      · exact hlong p hp
    · exact (hnew r hr).2
  intro r hr p hp
  obtain ⟨r₀, hr₀, rfl⟩ := List.mem_map.mp hr
  split_ifs at hp
  · exact hq₁ r₀ hr₀ p (List.mem_of_mem_filter hp)
  · exact hq₁ r₀ hr₀ p hp

variable (rtable) in
/-- A round for a quotable packet of the queue does not fault. -/
theorem exists_sweepPacket {s : Router} {cur : ArpReq} {p : CachedPkt} {t : List CachedPkt}
    (hw : Store.Wf ⟨s, some cur.node⟩) (hmem : cur ∈ s.reqList) (hc : cur.cachedPackets = p :: t)
    (hq : AllQuotable s) : ∃ s', sweepPacket rtable cur.node p.tag s = .ok s' := by
  have hp : Quotable p := hq cur hmem p (by rw [hc]; exact List.mem_cons_self)
  simp only [sweepPacket, hw.findReq_eq hmem, Option.bind_some, hc, decide_true,
    List.find?_cons_of_pos]
  obtain ⟨s₁, h₁⟩ := exists_icmpSendPacket_report rtable hp 1 s
  rw [h₁]
  exact ⟨_, rfl⟩

/-- The only fault of a round. -/
theorem sweepPacket_error {node tag : Nat} {s : Router} {e : Fault}
    (h : sweepPacket rtable node tag s = .error e) : e = .outOfBounds := by
  unfold sweepPacket at h
  split at h
  · exact (Except.error.inj h).symm
  · rcases bind_error h with h | ⟨s₁, -, h⟩
    · exact icmpSendPacket_report_error h
    · cases h

theorem sweepPacket_prompt (node tag : Nat) (s : Router) : Prompt (sweepPacket rtable node tag s) :=
  fun h => absurd (sweepPacket_error h) (by simp)

/-- The inner loop runs out of rounds only if `serve` does, and faults in no other way if every packet is
quotable. -/
theorem tearLoop_error {table : ArpTable} {kept rest : List ArpReq} {td : Teardown}
    (htd : td.others = kept ++ rest) {fuel : Nat} {acc : List UInt32} {cur : ArpReq} {ahead : List Nat}
    {s : Router} {e : Fault} (hm : MidPass rtable table kept rest acc cur ahead s)
    (hw : Store.Wf ⟨s, some cur.node⟩) (hcur : cur.node = td.req.node)
    (h : safeLoopFrom (Router.queueNodes cur.node) (sweepPacket rtable cur.node) fuel
      (cur.cachedPackets.map (·.tag)) s = .error e) :
    (e = .outOfFuel → serve cur.ip4 (queuedReply rtable table cur.ip4) fuel cur.sources = none) ∧
      (AllQuotable s → e = .outOfFuel) := by
  induction fuel using Nat.strongRec generalizing acc cur ahead s with
  | _ fuel ih =>
    cases hc : cur.cachedPackets with
    | nil =>
      rw [hc, List.map_nil, safeLoopFrom_nil] at h
      cases h
    | cons p t =>
      cases fuel with
      | zero =>
        rw [hc, List.map_cons, safeLoopFrom_zero] at h
        refine ⟨fun _ => ?_, fun _ => (Except.error.inj h).symm⟩
        rw [ArpReq.sources, hc, List.map_cons, serve]
      | succ fuel =>
        cases hb : sweepPacket rtable cur.node p.tag s with
        | error e' =>
          rw [hc, List.map_cons, safeLoopFrom_error hb, Except.error.injEq] at h
          subst h
          constructor
          · intro he
            rw [he] at hb
            exact absurd hb (sweepPacket_prompt _ _ _)
          · intro hq
            have hmem : cur ∈ s.reqList := by
              obtain ⟨-, K, R, N, hl, -⟩ := hm
              rw [hl]; simp
            obtain ⟨s', hs'⟩ := exists_sweepPacket rtable hw hmem hc hq
            rw [hs'] at hb
            cases hb
        | ok s₁ =>
          obtain ⟨extra, new, -, hm₁, hw₁, -, hloop, hserve⟩ := tearLoop_succ htd hm hw hcur hc hb fuel
          rw [hloop] at h
          split_ifs at h with ht
          obtain ⟨h₁, h₂⟩ := ih fuel (Nat.lt_succ_self _) hm₁ hw₁ hcur h
          refine ⟨fun he => ?_, fun hall => h₂ (hall.sweepPacket hb)⟩
          rw [hserve, if_neg ht]
          exact Option.map_eq_none_iff.mpr (h₁ he)

end StaticRouter
