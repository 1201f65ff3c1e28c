import StaticRouter.Lib.Simulation
import StaticRouter.Proofs.BudgetProofs
import StaticRouter.Proofs.ConservationProofs
import StaticRouter.Proofs.ReportProofs
import StaticRouter.Proofs.WaitingProofs

/-!
# Proofs: every queued packet leaves

A packet stays with the request that it joined. That request is off the list after seven passes, so by then
the packet was sent to its next hop or was given up.
-/

namespace StaticRouter

open CMem

variable {rtable : List RtEntry} {n node : Nat} {s s' : Router} {st st' : Store}

/-- The number `n` was given out, and a packet with it is in no queue other than that of the request `node`. -/
structure StaysWith (n node : Nat) (s : Router) : Prop where
  old : n < s.next
  only : ∀ r ∈ s.reqList, n ∈ r.tags → r.node = node

namespace StaysWith

/-- Queues may lose packets. -/
theorem shrunk (h : StaysWith n node s) (hn : s.next ≤ s'.next)
    (hr : ∀ r' ∈ s'.reqList, ∃ r ∈ s.reqList, r.node = r'.node ∧ ∀ t ∈ r'.tags, t ∈ r.tags) :
    StaysWith n node s' := by
  refine ⟨Nat.lt_of_lt_of_le h.old hn, fun r' hr' ht => ?_⟩
  obtain ⟨r, hmem, hnode, htags⟩ := hr r' hr'
  rw [← hnode]
  exact h.only r hmem (htags n ht)

/-- Queues may get a packet with a new number. -/
theorem submit {iface : Iface} {dst : UInt32} {packet : Frame} (h : StaysWith n node s)
    (hs : ifaceSendPacketByArp iface dst packet s = .ok s') : StaysWith n node s' := by
  have hold := h.old
  obtain ⟨q, -, ⟨mac, frame, -, -, rfl⟩ | ⟨-, -, rfl⟩ | ⟨-, -, rfl⟩⟩ := ifaceSendPacketByArp_cases hs
  · exact ⟨Nat.lt_succ_of_lt hold, h.only⟩
  · refine ⟨Nat.lt_succ_of_lt hold, fun r' hr' ht => ?_⟩
    obtain ⟨r, hr, rfl⟩ := List.mem_map.mp hr'
    split_ifs at ht ⊢
    · have hmem : n ∈ r.tags ∨ n = s.next := by
        simpa [ArpReq.append, ArpReq.tags] using ht
      exact h.only r hr (hmem.resolve_right (by omega))
    · exact h.only r hr ht
  · refine ⟨Nat.lt_succ_of_lt hold, fun r' hr' ht => ?_⟩
    rcases List.mem_append.mp hr' with hr' | hr'
    · exact h.only r' hr' ht
    · rw [List.mem_singleton.mp hr'] at ht
      have hnew : n = s.next := by simpa [ArpReq.tags] using ht
      omega

/-- No action puts a packet that was numbered before into another queue. -/
theorem does {act : Act} (h : StaysWith n node st.router) (hd : Does act st st') :
    StaysWith n node st'.router := by
  have hsame : ∀ r ∈ st.router.reqList, ∃ r₀ ∈ st.router.reqList, r₀.node = r.node ∧ ∀ t ∈ r.tags, t ∈ r₀.tags :=
    fun r hr => ⟨r, hr, rfl, fun _ => id⟩
  cases hd with
  | env => exact h.shrunk (Nat.le_refl _) hsame
  | originate => exact h.shrunk (Nat.le_refl _) hsame
  | arp => exact h.shrunk (Nat.le_refl _) hsame
  | expire => exact h.shrunk (Nat.le_refl _) hsame
  | begin => exact h
  | submit ph hs => exact h.submit hs
  | learn hi =>
    obtain ⟨-, rfl⟩ := arpcacheInsert_ok hi
    exact h.shrunk (Nat.le_refl _) fun r hr => hsame r (List.mem_of_mem_filter hr)
  | retry =>
    refine h.shrunk (Nat.le_refl _) fun r' hr' => ?_
    obtain ⟨r, hr, rfl⟩ := List.mem_map.mp hr'
    refine ⟨r, hr, ?_, fun t ht => ?_⟩
    · split_ifs <;> rfl
    · split_ifs at ht <;> exact ht
  | giveUp =>
    refine h.shrunk (Nat.le_refl _) fun r' hr' => ?_
    obtain ⟨r, hr, rfl⟩ := List.mem_map.mp hr'
    refine ⟨r, hr, ?_, fun t ht => ?_⟩
    · split_ifs <;> rfl
    · split_ifs at ht
      · exact (List.filter_sublist.map _).subset ht
      · exact ht
  | unlink => exact h.shrunk (Nat.le_refl _) fun r hr => hsame r (List.mem_of_mem_filter hr)

end StaysWith

/-- The steps of a run leave a packet in its queue or take it out, and the history only grows. -/
theorem Steps.stay {C : Input → Router → Prop} {is : List Input} (h : Runs.Steps (Step rtable) C is s s')
    (hw : Store.Wf ⟨s, none⟩) (hstay : StaysWith n node s) :
    StaysWith n node s' ∧ ∃ new, s'.trace = s.trace ++ new := by
  have hinv := h.invariant (I := fun s' => Store.Wf ⟨s', none⟩ ∧ StaysWith n node s' ∧
    ∃ new, s'.trace = s.trace ++ new) ?_ ⟨hw, hstay, [], (List.append_nil _).symm⟩
  · exact hinv.2
  · rintro i s₁ s₂ - ⟨hw₁, hstay₁, new, hnew⟩ hstep
    have hpath := hstep.path hw₁
    obtain ⟨new', hnew'⟩ := hpath.trace
    refine ⟨hw₁.path hpath, ?_, new ++ new', ?_⟩
    · exact hpath.invariant (I := fun st => StaysWith n node st.router) (fun _ _ _ _ hi hd => hi.does hd) hstay₁
    · rw [hnew', hnew, List.append_assoc]

/-- A packet that waits is in the queue of one request only. -/
theorem Store.Conserved.staysWith (h : st.Conserved) {r : ArpReq} (hr : r ∈ st.router.reqList)
    (hn : n ∈ r.tags) : StaysWith n r.node st.router := by
  have hwait : n ∈ waiting st.router.reqList := List.mem_flatMap.mpr ⟨r, hr, hn⟩
  have hnd : (waiting st.router.reqList).Nodup := by
    have hall := h.perm.nodup_iff.mp h.nodup
    exact (List.nodup_append.mp hall).1
  refine ⟨h.old n (h.perm.mem_iff.mpr (List.mem_append_left _ hwait)), fun r' hr' hn' => ?_⟩
  exact congrArg ArpReq.node (eq_of_mem_flatMap hnd hr' hr hn' hn)

/-- The account of the queued packets at a state of a run whose passes are clean. -/
theorem RunOf.conserved (h : RunOf rtable (CleanStep rtable) s) : Store.Conserved ⟨s, none⟩ := by
  have hboth := h.invariant (I := fun st => st.Recorded ∧ st.Conserved) (fun env => ⟨.init env, .init env⟩)
    (fun i s hc _ act st ha => hc.unlinksEmpty ha)
    fun _ _ _ hw hg hi hd => ⟨hi.1.does hw hd, hi.2.does hw hi.1 hg hd⟩
  exact hboth.2

/-- **Every queued packet leaves.** In a run whose passes are clean, and read the clock a second apart and not
before the times of the requests on the list, a packet that waits is in no queue seven passes later: it was
sent once, by `arpcache_insert` of the next hop that it was submitted for, or was given up once, and not both. If
it was given up, then right before a report of type 3 and code 1 that quotes it was submitted for its source, on
the route there; only a packet whose source has no route is given up without one. -/
theorem queued_packets_leave {is : List Input} (hs : RunOf rtable (CleanStep rtable) s)
    (h : Runs.Steps (Step rtable) (fun i s => AfterSent i s ∧ CleanStep rtable i s) is s s')
    (hchain : (passes is).IsChain SecondLater) (h7 : 7 ≤ (passes is).length) :
    ∀ n ∈ waiting s.reqList, n ∉ waiting s'.reqList ∧
      ((flushes s'.trace).map (·.1)).count n + (givenUp s'.trace).count n = 1 ∧
      (∀ ip4, (n, ip4) ∈ flushes s'.trace → n ∈ submittedTo ip4 s'.trace) ∧
      (n ∈ givenUp s'.trace → Reported rtable s'.trace n) := by
  intro n hn
  obtain ⟨r, hr, htag⟩ := List.mem_flatMap.mp hn
  have hcons := hs.conserved
  have hs' : RunOf rtable (CleanStep rtable) s' := (h.mono fun _ _ _ hc => hc.2).runOf hs
  have hcons' := hs'.conserved
  -- the packet is not in another queue, and its own is gone
  obtain ⟨hstay, new, htrace⟩ := Steps.stay h hs.wf (hcons.staysWith hr htag)
  have hgone : n ∉ waiting s'.reqList := by
    intro hn'
    obtain ⟨r', hr', htag'⟩ := List.mem_flatMap.mp hn'
    have hreach : Reachable rtable s := hs.mono fun _ _ _ => trivial
    have hout := (Steps.outlives hreach (h.mono fun _ _ _ hc => hc.1) hchain hr).2.2 r' hr'
      (hstay.only r' hr' htag')
    have hle := hout.atMost
    omega
  refine ⟨hgone, ?_, fun ip4 hf => hcons'.hop _ hf, RunOf.allReported hs' n⟩
  have hqueued : n ∈ queuedTags s'.trace := by
    rw [htrace, queuedTags_append]
    exact List.mem_append_left _ (hcons.perm.mem_iff.mpr (List.mem_append_left _ hn))
  have hone : 1 = (waiting s'.reqList).count n +
      (((flushes s'.trace).map (·.1)).count n + (givenUp s'.trace).count n) := by
    rw [← List.count_append, ← List.count_append, ← hcons'.perm.count_eq n]
    exact (List.count_eq_one_of_mem hcons'.nodup hqueued).symm
  rw [List.count_eq_zero_of_not_mem hgone] at hone
  omega

/-- Packets wait for 10.0.2.2, which never answers, and for 10.0.2.3, which does. -/
theorem queued_packets_leave_one_answer :
    ∃ s s' : Router, (waiting s.reqList = [0, 1] ∧ (flushes s'.trace).map (·.1) = [1] ∧ givenUp s'.trace = [0]) ∧
      ∀ n ∈ waiting s.reqList, n ∉ waiting s'.reqList ∧
        ((flushes s'.trace).map (·.1)).count n + (givenUp s'.trace).count n = 1 ∧
        (∀ ip4, (n, ip4) ∈ flushes s'.trace → n ∈ submittedTo ip4 s'.trace) ∧
        (n ∈ givenUp s'.trace → Reported Sample.connected s'.trace n) := by
  let is : List Input :=
    .frame Sample.eth1 (Sample.arpReply 0x0a000203 (Sample.station 9)) (Sample.clockAt 0) :: Sample.sevenPasses
  obtain ⟨s, hs, hwait, hrun⟩ := RunOf.of_replay Sample.connected (CleanStep Sample.connected) 8
    [.frame Sample.eth0 (Sample.udp 0x0a000102 0x0a000202 64) (Sample.clockAt 0),
      .frame Sample.eth0 (Sample.udp 0x0a000102 0x0a000203 64) (Sample.clockAt 0)] (Sample.clockAt 0)
    (fun s => waiting s.reqList = [0, 1] ∧ (Runs.replay (fun i s => (∀ env ∈ passes [i], ∀ r ∈ s.reqList,
      r.sent ≤ env.clock 0) ∧ CleanStep Sample.connected i s) (exec Sample.connected 8) is s).any (fun s' =>
        (flushes s'.trace).map (·.1) = [1] ∧ givenUp s'.trace = [0]) = true) (by decide +kernel)
  obtain ⟨s', hs', hleft⟩ := Runs.Steps.of_replay Step.of_exec hrun
  refine ⟨s, s', ⟨hwait, hleft⟩, queued_packets_leave hs (hs'.mono fun i hi s hc => ⟨?_, hc.2⟩) ?_ (by decide)⟩
  · rcases List.mem_cons.mp hi with rfl | hi
    · trivial
    · obtain ⟨t, -, rfl⟩ := List.mem_map.mp hi
      exact fun r hr n => hc.1 (Sample.clockAt t) (by simp [passes]) r hr
  · have hlist : passes is = [0, 1, 2, 3, 4, 5, 6].map Sample.clockAt := rfl
    rw [hlist]
    simp only [List.map_cons, List.map_nil, List.isChain_cons_cons, List.isChain_singleton, and_true]
    refine ⟨?_, ?_, ?_, ?_, ?_, ?_⟩ <;> exact fun n => by simp [Sample.clockAt]

end StaticRouter
