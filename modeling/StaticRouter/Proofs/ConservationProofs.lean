import StaticRouter.Proofs.ReportProofs

/-!
# Proofs: no queued packet is lost

Every packet that was queued waits, was sent when its next hop was learned, or was given up, in runs
whose sweep passes unlink no request with packets in its queue.
-/

namespace StaticRouter

open CMem

variable {rtable : List RtEntry}

/-- Where the queued packets are. -/
structure Store.Conserved (st : Store) : Prop where
  perm : (queuedTags st.router.trace).Perm (waiting st.router.reqList ++
    ((flushes st.router.trace).map (·.1) ++ givenUp st.router.trace))
  nodup : (queuedTags st.router.trace).Nodup
  old : ∀ n ∈ queuedTags st.router.trace, n < st.router.next
  hop : ∀ x ∈ flushes st.router.trace, x.1 ∈ submittedTo x.2 st.router.trace
  queued : ∀ iface frame n, .sent iface frame (.direct n) ∈ st.router.trace →
    n ∉ queuedTags st.router.trace

/-- A request that is unlinked has an empty queue. -/
def UnlinksEmpty : Act → Store → Prop
  | .unlink node, st => ∀ r ∈ st.router.reqList, r.node = node → r.cachedPackets = []
  | _, _ => True

/-! ## What waits -/

theorem waiting_append (l l' : List ArpReq) : waiting (l ++ l') = waiting l ++ waiting l' :=
  List.flatMap_append

theorem waiting_map_congr {l : List ArpReq} {f : ArpReq → ArpReq} (hf : ∀ r, (f r).tags = r.tags) :
    waiting (l.map f) = waiting l := by
  rw [waiting, waiting, List.flatMap_map]
  exact List.flatMap_congr fun r _ => hf r

/-- The requests that are unlinked and those that stay. -/
theorem waiting_filter (l : List ArpReq) (ip4 : UInt32) :
    (waiting l).Perm (waiting (l.filter (·.ip4 ≠ ip4)) ++ waiting (l.filter (·.ip4 = ip4))) := by
  rw [← waiting_append]
  refine List.Perm.flatMap_right _ ?_
  have h := List.filter_append_perm (fun r : ArpReq => decide (r.ip4 = ip4)) l
  refine h.symm.trans (List.perm_append_comm.trans ?_)
  simp only [decide_not, ne_eq]
  exact List.Perm.refl _

/-- A packet that joins the request for its next hop waits. -/
theorem waiting_join {l : List ArpReq} {dst : UInt32} {p : CachedPkt} (hnd : (l.map (·.ip4)).Nodup)
    (hex : ∃ r ∈ l, r.ip4 = dst) :
    (waiting (l.map fun r => if r.ip4 = dst then r.append p else r)).Perm (p.tag :: waiting l) := by
  obtain ⟨r, hr, rfl⟩ := hex
  obtain ⟨A, B, rfl⟩ := List.append_of_mem hr
  rw [map_update hnd, waiting, waiting, List.flatMap_append, List.flatMap_append, List.flatMap_cons,
    List.flatMap_cons]
  have htags : (r.append p).tags = r.tags ++ [p.tag] := by simp [ArpReq.append, ArpReq.tags]
  rw [htags, List.append_assoc, List.singleton_append, ← List.append_assoc]
  exact List.perm_middle.trans (by rw [List.append_assoc])

/-- A packet that is unlinked waits no longer. -/
theorem waiting_giveUp {st : Store} (hw : st.Wf) {node tag : Nat}
    (ht : tag ∈ st.router.queueNodes node) : (waiting st.router.reqList).Perm
      (tag :: waiting (st.router.updateReq node (·.deletePkt tag)).reqList) := by
  cases hf : st.router.findReq node with
  | none => simp [Router.queueNodes, hf] at ht
  | some r =>
    have hr : r ∈ st.router.reqList := List.mem_of_find?_eq_some hf
    obtain rfl : r.node = node := by simpa using List.find?_some hf
    have htag : tag ∈ r.tags := by simpa [Router.queueNodes, hf, ArpReq.tags] using ht
    have hdel : (r.deletePkt tag).tags = r.tags.erase tag := by
      have hnd : r.tags.Nodup := (hw.ordered r hr).imp Nat.ne_of_lt
      rw [hnd.erase_eq_filter, ArpReq.tags, ArpReq.deletePkt, ArpReq.tags, List.filter_map]
      congr 1
      exact List.filter_congr fun p _ => by by_cases h : p.tag = tag <;> simp [h]
    obtain ⟨A, B, hl⟩ := List.append_of_mem hr
    have hnd := hw.nodes
    rw [hl] at hnd
    rw [Router.updateReq, hl, map_update hnd, waiting, waiting, List.flatMap_append,
      List.flatMap_append, List.flatMap_cons, List.flatMap_cons, hdel]
    have hperm : (r.tags ++ waiting B).Perm (tag :: (r.tags.erase tag ++ waiting B)) :=
      (List.perm_cons_erase htag).append_right _
    exact (hperm.append_left _).trans List.perm_middle

/-- Unlinking a request with an empty queue. -/
theorem waiting_unlink {st : Store} (hw : st.Wf) {node : Nat} {r : ArpReq}
    (hf : st.router.findReq node = some r) (hempty : r.cachedPackets = []) :
    waiting (st.router.reqList.filter (·.node ≠ node)) = waiting st.router.reqList := by
  have hr : r ∈ st.router.reqList := List.mem_of_find?_eq_some hf
  obtain rfl : r.node = node := by simpa using List.find?_some hf
  obtain ⟨A, B, hl⟩ := List.append_of_mem hr
  have hnd := hw.nodes
  rw [hl] at hnd
  rw [hl, filter_unlink hnd, waiting_append, waiting_append, waiting, waiting, waiting,
    List.flatMap_cons, ArpReq.tags, hempty]
  rfl

/-! ## The actions -/

namespace Store.Conserved

variable {st st' : Store}

/-- An action that queues nothing and moves nothing. -/
theorem unmoved (h : st.Conserved) {new : List Event} (hn : st.router.next ≤ st'.router.next)
    (htr : st'.router.trace = st.router.trace ++ new) (hqueued : queuedTags new = [])
    (hflush : flushes new = []) (hgiven : givenUp new = [])
    (hdirect : ∀ iface frame n, .sent iface frame (.direct n) ∈ new → n = st.router.next)
    (hw : waiting st'.router.reqList = waiting st.router.reqList) : st'.Conserved where
  perm := by simpa [htr, hqueued, hflush, hgiven, hw] using h.perm
  nodup := by simpa [htr, hqueued] using h.nodup
  old n hmem := by
    have := h.old n (by simpa [htr, hqueued] using hmem)
    omega
  hop x hx := by
    rw [htr, submittedTo_append]
    exact List.mem_append_left _ (h.hop x (by simpa [htr, hflush] using hx))
  queued iface frame n hs hq := by
    have hq' : n ∈ queuedTags st.router.trace := by simpa [htr, hqueued] using hq
    rw [htr, List.mem_append] at hs
    rcases hs with hs | hs
    · exact h.queued iface frame n hs hq'
    · have := h.old n hq'
      have := hdirect iface frame n hs
      omega

/-- A packet is queued and waits. -/
theorem joined (h : st.Conserved) {new : List Event} (hrec : st.Recorded)
    (hn : st'.router.next = st.router.next + 1)
    (htr : st'.router.trace = st.router.trace ++ new) (hqueued : queuedTags new = [st.router.next])
    (hflush : flushes new = []) (hgiven : givenUp new = []) (hsent : sentTags new = [])
    (hw : (waiting st'.router.reqList).Perm (st.router.next :: waiting st.router.reqList)) :
    st'.Conserved where
  perm := by
    rw [htr, queuedTags_append, hqueued, flushes_append, hflush, givenUp_append, hgiven,
      List.append_nil, List.append_nil]
    refine (List.perm_append_singleton _ _).trans ((h.perm.cons _).trans ?_)
    exact (hw.append_right _).symm
  nodup := by
    rw [htr, queuedTags_append, hqueued, List.nodup_append]
    refine ⟨h.nodup, List.nodup_singleton _, fun n hm n' hm' he => ?_⟩
    have := h.old n hm
    rw [List.mem_singleton.mp hm'] at he
    omega
  old n hmem := by
    rw [htr, queuedTags_append, hqueued, List.mem_append, List.mem_singleton] at hmem
    rcases hmem with hmem | rfl
    · have := h.old n hmem; omega
    · omega
  hop x hx := by
    rw [htr, submittedTo_append]
    exact List.mem_append_left _ (h.hop x (by simpa [htr, hflush] using hx))
  queued iface frame n hs hq := by
    rw [htr, List.mem_append] at hs
    rcases hs with hs | hs
    · rw [htr, queuedTags_append, hqueued, List.mem_append, List.mem_singleton] at hq
      rcases hq with hq | rfl
      · exact h.queued iface frame n hs hq
      · exact Nat.lt_irrefl _ (hrec.sent _ (mem_sentTags.mpr ⟨_, _, _, hs, rfl⟩))
    · have hmem := mem_sentTags.mpr ⟨iface, frame, .direct n, hs, rfl⟩
      rw [hsent] at hmem
      cases hmem

/-- What waits for an address is sent when the address is learned. -/
theorem learn (h : st.Conserved) (hrec : st.Recorded) {ip4 : UInt32} {mac : Mac}
    (hn : st'.router.next = st.router.next)
    (htr : st'.router.trace = st.router.trace ++
      (st.router.reqList.filter (·.ip4 = ip4)).flatMap (flushEvents ip4 mac))
    (hreq : st'.router.reqList = st.router.reqList.filter (·.ip4 ≠ ip4)) : st'.Conserved where
  perm := by
    have hflushed : ((waiting (st.router.reqList.filter (·.ip4 = ip4))).map fun n => (n, ip4)).map (·.1) =
        waiting (st.router.reqList.filter (·.ip4 = ip4)) := by
      rw [List.map_map]
      exact List.map_id _
    rw [htr, hreq, queuedTags_append, queuedTags_flush, List.append_nil, flushes_append, flushes_flush,
      givenUp_append, givenUp_flush, List.append_nil, List.map_append, hflushed]
    refine h.perm.trans ?_
    refine ((waiting_filter st.router.reqList ip4).append_right _).trans ?_
    rw [List.append_assoc]
    refine List.Perm.append_left _ ?_
    rw [List.append_assoc, ← List.append_assoc, ← List.append_assoc]
    exact List.perm_append_comm.append_right _
  nodup := by rw [htr, queuedTags_append, queuedTags_flush, List.append_nil]; exact h.nodup
  old := by rw [htr, queuedTags_append, queuedTags_flush, List.append_nil, hn]; exact h.old
  hop x hx := by
    rw [htr, submittedTo_append]
    refine List.mem_append_left _ ?_
    rw [htr, flushes_append, flushes_flush, List.mem_append] at hx
    rcases hx with hx | hx
    · exact h.hop x hx
    · obtain ⟨n, hn, rfl⟩ := List.mem_map.mp hx
      obtain ⟨r, hr, hn⟩ := List.mem_flatMap.mp hn
      obtain ⟨p, hp, rfl⟩ := List.mem_map.mp hn
      obtain ⟨hr, hip⟩ := List.mem_filter.mp hr
      obtain ⟨i, pk, hs, -⟩ := hrec.waiting r hr p hp
      obtain rfl : r.ip4 = ip4 := by simpa using hip
      exact mem_submittedTo.mpr ⟨i, pk, hs⟩
  queued iface frame n hs hq := by
    rw [htr, queuedTags_append, queuedTags_flush, List.append_nil] at hq
    rw [htr, List.mem_append] at hs
    rcases hs with hs | hs
    · exact h.queued iface frame n hs hq
    · obtain ⟨r, -, hs⟩ := List.mem_flatMap.mp hs
      obtain ⟨p, -, hs⟩ := List.mem_map.mp hs
      cases hs

/-- A packet is given up and waits no more. -/
theorem abandoned (h : st.Conserved) {tag : Nat} (hn : st'.router.next = st.router.next)
    (htr : st'.router.trace = st.router.trace ++ [.unreachable tag])
    (hw : (waiting st.router.reqList).Perm (tag :: waiting st'.router.reqList)) : st'.Conserved := by
  have hqueued : queuedTags st'.router.trace = queuedTags st.router.trace := by
    rw [htr, queuedTags_append]
    exact List.append_nil _
  have hflush : flushes st'.router.trace = flushes st.router.trace := by
    rw [htr, flushes_append]
    exact List.append_nil _
  have hgiven : givenUp st'.router.trace = givenUp st.router.trace ++ [tag] := by
    rw [htr, givenUp_append]
    rfl
  refine ⟨?_, ?_, ?_, ?_, ?_⟩
  · rw [hqueued, hflush, hgiven]
    have hlast := (List.perm_append_singleton tag
      (waiting st'.router.reqList ++ ((flushes st.router.trace).map (·.1) ++ givenUp st.router.trace))).symm
    rw [List.append_assoc, List.append_assoc] at hlast
    exact h.perm.trans ((hw.append_right _).trans hlast)
  · rw [hqueued]
    exact h.nodup
  · rw [hqueued, hn]
    exact h.old
  · intro x hx
    rw [hflush] at hx
    rw [htr, submittedTo_append]
    exact List.mem_append_left _ (h.hop x hx)
  · intro iface frame n hs
    rw [htr, List.mem_append, List.mem_singleton] at hs
    rw [hqueued]
    rcases hs with hs | hs
    · exact h.queued iface frame n hs
    · cases hs

/-- Every action keeps the account, if no packet is unlinked with its request. -/
theorem does {act : Act} (h : st.Conserved) (hw : st.Wf) (hrec : st.Recorded) (hg : UnlinksEmpty act st)
    (hd : Does act st st') : st'.Conserved := by
  have hle := Nat.le_refl st.router.next
  cases hd with
  | env => exact h.unmoved hle (List.append_nil _).symm rfl rfl rfl (by simp) rfl
  | originate => exact h.unmoved hle rfl rfl rfl rfl (by simp) rfl
  | arp => exact h.unmoved hle rfl rfl rfl rfl (by simp) rfl
  | @submit s s' iface dst packet ph hs =>
    obtain ⟨q, hq, ⟨mac, frame, hl, -, rfl⟩ | ⟨-, hex, rfl⟩ | ⟨-, -, rfl⟩⟩ :=
      ifaceSendPacketByArp_cases hs
    · refine h.unmoved (Nat.le_succ _) (List.append_assoc _ _ _) rfl rfl rfl ?_ rfl
      simp
    · refine h.joined hrec rfl (List.append_assoc _ _ _) rfl rfl rfl rfl ?_
      exact waiting_join hw.ip4s hex
    · refine h.joined hrec rfl (by rw [List.append_assoc, List.append_assoc, List.append_assoc])
        ?_ ?_ ?_ ?_ ?_
      · rfl
      · rfl
      · rfl
      · rfl
      · rw [waiting_append]
        exact List.perm_append_singleton _ _
  | learn hi =>
    obtain ⟨-, rfl⟩ := arpcacheInsert_ok hi
    exact h.learn hrec rfl rfl rfl
  | expire => exact h.unmoved hle (List.append_nil _).symm rfl rfl rfl (by simp) rfl
  | retry =>
    refine h.unmoved hle (List.append_nil _).symm rfl rfl rfl (by simp) ?_
    exact waiting_map_congr fun r => by split_ifs <;> rfl
  | begin => exact h.unmoved hle (List.append_nil _).symm rfl rfl rfl (by simp) rfl
  | giveUp ht => exact h.abandoned rfl rfl (waiting_giveUp hw ht)
  | @unlink s node req hf =>
    refine h.unmoved hle rfl rfl rfl rfl (by simp) ?_
    have hr : req ∈ s.reqList := List.mem_of_find?_eq_some hf
    exact waiting_unlink hw hf (hg req hr (by simpa using List.find?_some hf))

/-- Nothing was queued at the start. -/
theorem init (env : Env) : Conserved ⟨arpcacheInit env, none⟩ := by
  constructor <;> simp [arpcacheInit, queuedTags, flushes, givenUp, waiting]

end Store.Conserved

/-! ## Runs -/

/-- A teardown leaves nothing over exactly if it is clean. -/
theorem Teardown.leftOver_eq_nil {reply : UInt32 → Option UInt32} {td : Teardown} :
    td.leftOver reply = [] ↔ td.Clean reply := FeedingQueue.leftOver_eq_nil_iff

/-- In a step that is clean, only empty requests are unlinked. -/
theorem CleanStep.unlinksEmpty {i : Input} {s : Router} (hc : CleanStep rtable i s) {act : Act}
    {st : Store} (ha : StepAct rtable s i act st) : UnlinksEmpty act st := by
  cases act with
  | unlink node =>
    cases i with
    | frame => exact ha.elim
    | sweep env =>
      obtain ⟨td, htd, -, hleft⟩ := ha
      intro r hr hn
      have hsrc := hleft r hr hn
      rw [Teardown.leftOver_eq_nil.mpr (hc td htd)] at hsrc
      exact List.map_eq_nil_iff.mp hsrc
  | _ => trivial

/-- **Conservation of queued packets.** In a run whose sweep passes are clean, every packet that was
queued, and each was queued once, waits for one request, or was sent once by `arpcache_insert` of its
next hop, or was given up once: after the one call of `icmp_send_packet` about it, which reports it to its source
if there is a route to that. -/
theorem queued_packet_accounted {s : Router} (h : RunOf rtable (CleanStep rtable) s) :
    (queuedTags s.trace).Nodup ∧ ∀ n ∈ queuedTags s.trace,
      (waiting s.reqList).count n + ((flushes s.trace).map (·.1)).count n + (givenUp s.trace).count n = 1 ∧
        (∀ ip4, (n, ip4) ∈ flushes s.trace → n ∈ submittedTo ip4 s.trace) ∧
        (∀ iface frame, .sent iface frame (.direct n) ∉ s.trace) ∧
        (n ∈ givenUp s.trace → Reported rtable s.trace n) := by
  have hboth := h.invariant (I := fun st => st.Recorded ∧ st.Conserved)
    (fun env => ⟨.init env, .init env⟩) (fun i s hc _ act st ha => hc.unlinksEmpty ha)
    fun _ _ _ hw hg hi hd => ⟨hi.1.does hw hd, hi.2.does hw hi.1 hg hd⟩
  have hcons : Store.Conserved ⟨s, none⟩ := hboth.2
  refine ⟨hcons.nodup, fun n hn => ⟨?_, fun ip4 hf => hcons.hop _ hf, fun iface frame hs =>
    hcons.queued iface frame n hs hn, RunOf.allReported h n⟩⟩
  have hone : 1 = (waiting s.reqList).count n +
      (((flushes s.trace).map (·.1)).count n + (givenUp s.trace).count n) := by
    rw [← List.count_append, ← List.count_append, ← hcons.perm.count_eq n]
    exact (List.count_eq_one_of_mem hcons.nodup hn).symm
  omega

/-- A packet from 10.0.1.2 is given up, and the report about it is sent when its sender answers. -/
theorem queued_packet_accounted_report :
    ∃ s : Router, (queuedTags s.trace = [0, 1] ∧ givenUp s.trace = [0] ∧ flushes s.trace = [(1, 0x0a000102)]) ∧
      (queuedTags s.trace).Nodup ∧ ∀ n ∈ queuedTags s.trace,
        (waiting s.reqList).count n + ((flushes s.trace).map (·.1)).count n +
            (givenUp s.trace).count n = 1 ∧
          (∀ ip4, (n, ip4) ∈ flushes s.trace → n ∈ submittedTo ip4 s.trace) ∧
          (∀ iface frame, .sent iface frame (.direct n) ∉ s.trace) ∧
          (n ∈ givenUp s.trace → Reported Sample.connected s.trace n) := by
  obtain ⟨s, hs, hp⟩ := RunOf.of_replay Sample.connected (CleanStep Sample.connected) 8
    ([.frame Sample.eth0 (Sample.udp 0x0a000102 0x0a000202 64) (Sample.clockAt 0)] ++ Sample.retries ++
      [.sweep (Sample.clockAt 6),
        .frame Sample.eth0 (Sample.arpReply 0x0a000102 (Sample.station 9)) (Sample.clockAt 7)])
    (Sample.clockAt 0)
    (fun s => queuedTags s.trace = [0, 1] ∧ givenUp s.trace = [0] ∧
      flushes s.trace = [(1, 0x0a000102)]) (by decide +kernel)
  exact ⟨s, hp, queued_packet_accounted hs⟩

/-- A frame with source and destination 10.0.2.2: the report about it joins the request that is being
torn down, and is unlinked with it. -/
theorem queued_packet_vanishes :
    ∃ s, Reachable Sample.connected s ∧ ∃ n ∈ queuedTags s.trace,
      (waiting s.reqList).count n + ((flushes s.trace).map (·.1)).count n +
        (givenUp s.trace).count n = 0 := by
  obtain ⟨s, hs, hp⟩ := RunOf.of_replay Sample.connected (fun _ _ => True) 8
    ([.frame Sample.eth0 (Sample.udp 0x0a000202 0x0a000202 64) (Sample.clockAt 0)] ++ Sample.retries ++
      [.sweep (Sample.clockAt 6)])
    (Sample.clockAt 0)
    (fun s => ∃ n ∈ queuedTags s.trace, (waiting s.reqList).count n +
      ((flushes s.trace).map (·.1)).count n + (givenUp s.trace).count n = 0) (by decide +kernel)
  exact ⟨s, hs, hp⟩

end StaticRouter
