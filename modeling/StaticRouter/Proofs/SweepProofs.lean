import StaticRouter.Proofs.TeardownProofs

/-!
# Proofs: the actions of a sweep pass

A completed pass makes the teardowns that `passTeardowns` lists. The relation `AtPass` says, between two
rounds of the outer loop, how the request list relates to the one of before the pass.
-/

namespace StaticRouter

open CMem FeedingQueue

variable {rtable : List RtEntry}

/-! ## Between two rounds of the outer loop -/

/-- The list of a pass between two requests: those of `kept` are behind, the nodes `ahead` are to come,
those of `rest` among them, and packets with the sources `acc` have been given up. -/
def AtPass (rtable : List RtEntry) (table : ArpTable) (kept rest : List ArpReq) (acc : List UInt32)
    (ahead : List Nat) (s : Router) : Prop :=
  s.table = table ∧ ∃ K R N, s.reqList = K ++ (R ++ N) ∧ (R ++ N).map (·.node) = ahead ∧
    K.map ArpReq.ident = kept.map ArpReq.ident ∧
    R.map (viewAt (queuedReply rtable table) []) = rest.map (viewAt (queuedReply rtable table) acc) ∧
    ∀ n ∈ N, OpenedNow rtable n

theorem PassAct.mono {reply : UInt32 → Option UInt32} {tds tds' : List Teardown}
    (h : ∀ td ∈ tds, td ∈ tds') (act : Act) (st : Store) (ha : PassAct rtable reply tds act st) :
    PassAct rtable reply tds' act st := by
  cases act with
  | originate => obtain ⟨td, htd, ha⟩ := ha; exact ⟨td, h td htd, ha⟩
  | submit => obtain ⟨td, htd, ha⟩ := ha; exact ⟨td, h td htd, ha⟩
  | begin => obtain ⟨td, htd, ha⟩ := ha; exact ⟨td, h td htd, ha⟩
  | unlink => obtain ⟨td, htd, ha⟩ := ha; exact ⟨td, h td htd, ha⟩
  | _ => exact ha

/-- The actions of the inner loop are actions of the pass. -/
theorem TearAct.passAct {reply : UInt32 → Option UInt32} {td : Teardown} {tds : List Teardown}
    (h : td ∈ tds) (act : Act) (st : Store) (ha : TearAct rtable td (td.answered reply) act st) :
    PassAct rtable reply tds act st := by
  cases act with
  | originate => exact ⟨td, h, ha⟩
  | submit => exact ⟨td, h, ha⟩
  | env => exact ha
  | giveUp => exact ha
  | _ => exact ha.elim

/-- A request that has been repeated less than five times stays where it is. -/
theorem sweepReq_retry {fuel : Nat} {s s' : Router} {K t : List ArpReq} {r : ArpReq}
    (reply : UInt32 → Option UInt32) (tds : List Teardown) (hw : Store.Wf ⟨s, none⟩)
    (hl : s.reqList = K ++ r :: t) (h5 : r.retries < 5) (h : sweepReq rtable fuel r.node s = .ok s') :
    ∃ r' : ArpReq, r'.ident = r.ident ∧ s'.reqList = K ++ r' :: t ∧ s'.table = s.table ∧
      Path (PassAct rtable reply tds) ⟨s, none⟩ ⟨s', none⟩ := by
  have hmem : r ∈ s.reqList := by rw [hl]; simp
  have h5' : ¬ r.retries ≥ 5 := by omega
  rw [sweepReq, hw.findReq_eq hmem] at h
  simp only [h5', if_false] at h
  have htime : Path (PassAct rtable reply tds) ⟨s, none⟩ ⟨s.time.2, none⟩ :=
    .single .env trivial (.env s none _)
  split_ifs at h
  · have hl' : (s.time.2.updateReq r.node fun req => { req with retries := req.retries + 1 }).reqList =
        K ++ { r with retries := r.retries + 1 } :: t := by
      have hnodes := hw.nodes
      rw [hl] at hnodes
      simp only [Router.updateReq, Router.time, hl]
      exact map_update hnodes _
    rw [← Except.ok.inj h]
    refine ⟨{ r with retries := r.retries + 1 }, rfl, hl', rfl, htime.trans ?_⟩
    refine (Path.single (.retry r.node) trivial (.retry ?_)).trans
      (.single (.arp r.iface (requestFrame r)) ⟨{ r with retries := r.retries + 1 }, ?_, rfl, rfl⟩
        (.arp _ none _ _))
    · intro r' hr' hn
      rw [hw.eq_of_node hr' hmem hn]
      exact h5
    · simp only [hl']
      simp
  · rw [← Except.ok.inj h]
    exact ⟨r, rfl, hl, rfl, htime⟩

/-- A request that has been repeated five times is torn down as `serve` says. -/
theorem sweepReq_teardown {table : ArpTable} {kept rest : List ArpReq} {acc : List UInt32}
    {ahead : List Nat} {fuel : Nat} {s s' : Router} {r r₀ : ArpReq} (hw : Store.Wf ⟨s, none⟩)
    (hm : MidPass rtable table kept rest acc r ahead s)
    (hv : viewAt (queuedReply rtable table) [] r = viewAt (queuedReply rtable table) acc r₀)
    (h5 : r.retries ≥ 5) (h : sweepReq rtable fuel r.node s = .ok s') {tds : List Teardown}
    {td : Teardown} (htd : td = ⟨r₀, queueAt (queuedReply rtable table) acc r₀, kept ++ rest⟩)
    (hmem : td ∈ tds) :
    ∃ new, td.Ends (queuedReply rtable table) ∧
      new.length ≤ (td.answered (queuedReply rtable table)).length ∧
      AtPass rtable table kept rest (acc ++ td.answered (queuedReply rtable table)) (ahead ++ new) s' ∧
      Path (PassAct rtable (queuedReply rtable table) tds) ⟨s, none⟩ ⟨s', none⟩ := by
  obtain ⟨hident, -, hsrc⟩ : r.ident = r₀.ident ∧ r.retries = r₀.retries ∧
      queueAt (queuedReply rtable table) [] r = queueAt (queuedReply rtable table) acc r₀ := by
    simpa only [viewAt, Prod.mk.injEq] using hv
  obtain ⟨hnode, -, hip⟩ : r.node = r₀.node ∧ r.iface = r₀.iface ∧ r.ip4 = r₀.ip4 := by
    simpa only [ArpReq.ident, Prod.mk.injEq] using hident
  have hqueue : r.sources = td.queue := by
    rw [htd, ← hsrc, queueAt, List.flatMap_nil, List.append_nil]
  have hip' : r.ip4 = td.req.ip4 := by rw [htd, hip]
  have hcur : r.node = td.req.node := by rw [htd, hnode]
  have hreq : r ∈ s.reqList := by
    obtain ⟨-, K, R, N, hl, -⟩ := hm
    rw [hl]; simp
  have hw₁ : Store.Wf ⟨s, some r.node⟩ := hw.does (.begin s r.node)
  rw [sweepReq, hw.findReq_eq hreq] at h
  simp only [h5, if_true, bind_ok] at h
  obtain ⟨s₁, hloop, h⟩ := h
  rw [forEachSafe_eq, (hm.queueNodes hw₁).1] at hloop
  obtain ⟨v, pkts, new, hserve, hnew, hm', hpath⟩ := tearLoop_ok (by rw [htd]) hm hw₁ hcur hloop
  rw [hip', hqueue] at hserve
  obtain ⟨hends, rfl, hleft⟩ := serve_eq_some hserve
  have hw' : Store.Wf ⟨s₁, some r.node⟩ := hw₁.path hpath
  obtain ⟨htab, K, R, N, hl, hahead, hK, hR, hN⟩ := hm'
  have hnodes := hw'.nodes
  rw [hl] at hnodes
  have hl' : s'.reqList = K ++ (R ++ N) := by
    rw [← Except.ok.inj h]
    simp only [Router.log, hl]
    exact filter_unlink hnodes
  refine ⟨new, hends, hnew, ⟨?_, K, R, N, hl', hahead, hK, hR, hN⟩, ?_⟩
  · rw [← Except.ok.inj h, ← htab]; rfl
  · refine .trans (.single (.begin r.node) ⟨td, hmem, hcur.symm⟩ (.begin s r.node)) ?_
    refine (hpath.mono (TearAct.passAct hmem)).trans ?_
    have hmem' : { r with cachedPackets := pkts } ∈ s₁.reqList := by rw [hl]; simp
    have hunlink := Does.unlink (hw'.findReq_eq (r := { r with cachedPackets := pkts }) hmem')
    rw [← Except.ok.inj h]
    refine .single (.unlink r.node) ⟨td, hmem, hcur.symm, fun r' hr' hn => ?_⟩ hunlink
    rw [hw'.eq_of_node hr' hmem' hn]
    exact hleft

/-- A round of the outer loop. -/
theorem sweepReq_step {table : ArpTable} {kept rest : List ArpReq} {acc : List UInt32} {node : Nat}
    {ahead : List Nat} {fuel : Nat} {s s' : Router} (hw : Store.Wf ⟨s, none⟩)
    (hm : AtPass rtable table kept rest acc (node :: ahead) s)
    (h : sweepReq rtable fuel node s = .ok s') :
    ∃ new kept' rest' acc' tds, teardowns (queuedReply rtable table) acc kept rest =
        tds ++ teardowns (queuedReply rtable table) acc' kept' rest' ∧
      rest'.length ≤ ahead.length ∧ (∀ td ∈ tds, td.Ends (queuedReply rtable table)) ∧
      new.length ≤ (tds.flatMap (·.answered (queuedReply rtable table))).length ∧
      AtPass rtable table kept' rest' acc' (ahead ++ new) s' ∧
      Path (PassAct rtable (queuedReply rtable table) tds) ⟨s, none⟩ ⟨s', none⟩ := by
  obtain ⟨htab, K, R, N, hl, hahead, hK, hR, hN⟩ := hm
  cases R with
  | nil =>
    -- only requests that the pass itself has opened are still to come
    cases N with
    | nil => cases hahead
    | cons n N =>
      obtain ⟨rfl, rfl⟩ : n.node = node ∧ N.map (·.node) = ahead := by simpa using hahead
      obtain rfl : rest = [] := by simpa using hR.symm
      obtain ⟨n', hid, hl', htab', hpath⟩ := sweepReq_retry (queuedReply rtable table) [] hw hl
        (hN n (by simp)).1 h
      refine ⟨[], kept ++ [n], [], acc, [], rfl, Nat.zero_le _, by simp, Nat.le_refl _, ?_, hpath⟩
      refine ⟨htab'.trans htab, K ++ [n'], [], N, by rw [hl']; simp, by simp, ?_, rfl, ?_⟩
      · rw [List.map_append, List.map_append, hK]
        simp [hid]
      · exact fun x hx => hN x (by simp [hx])
  | cons r R =>
    cases rest with
    | nil => cases hR
    | cons r₀ rest =>
      obtain ⟨rfl, rfl⟩ : r.node = node ∧ (R ++ N).map (·.node) = ahead := by simpa using hahead
      rw [List.map_cons, List.map_cons, List.cons.injEq] at hR
      obtain ⟨hv, hR⟩ := hR
      have hret : r.retries = r₀.retries := congrArg (fun v => v.2.1) hv
      have hlen : rest.length ≤ (((R ++ N).map (·.node))).length := by
        have := congrArg List.length hR
        simp only [List.length_map] at this
        simp only [List.length_map, List.length_append]
        omega
      by_cases h5 : r.retries ≥ 5
      · have h5' : r₀.retries ≥ 5 := hret ▸ h5
        obtain ⟨new, hends, hnew, hat, hpath⟩ := sweepReq_teardown hw
          ⟨htab, K, R, N, hl, rfl, hK, hR, hN⟩ hv h5 h rfl (List.mem_singleton.mpr rfl)
        refine ⟨new, kept, rest, _, [_], ?_, hlen, by simpa using hends, by simpa using hnew, hat, hpath⟩
        rw [teardowns, if_pos h5']
        rfl
      · have h5' : ¬ r₀.retries ≥ 5 := hret ▸ h5
        obtain ⟨r', hid, hl', htab', hpath⟩ := sweepReq_retry (queuedReply rtable table) [] hw hl
          (by omega) h
        refine ⟨[], kept ++ [r₀], rest, acc, [], ?_, hlen, by simp, Nat.le_refl _, ?_, hpath⟩
        · rw [teardowns, if_neg h5', List.nil_append]
        · refine ⟨htab'.trans htab, K ++ [r'], R, N, by rw [hl']; simp, by simp, ?_, hR, hN⟩
          have hid' : r.ident = r₀.ident := congrArg Prod.fst hv
          rw [List.map_append, List.map_append, hK]
          simp [hid, hid']

/-- The nodes of the list as the outer loop sees them. -/
theorem AtPass.nodes {table : ArpTable} {kept rest : List ArpReq} {acc : List UInt32} {ahead : List Nat}
    {s : Router} (hm : AtPass rtable table kept rest acc ahead s) :
    ∃ pre, s.reqList.map (·.node) = pre ++ ahead := by
  obtain ⟨-, K, R, N, hl, hahead, -⟩ := hm
  exact ⟨K.map (·.node), by rw [hl, List.map_append, hahead]⟩

/-- A completed round of the outer loop, as the rest of the loop sees it. -/
theorem passLoop_succ {table : ArpTable} {kept rest : List ArpReq} {acc : List UInt32} {node : Nat}
    {ahead : List Nat} {fuel : Nat} {s s₁ : Router} (hw : Store.Wf ⟨s, none⟩)
    (hm : AtPass rtable table kept rest acc (node :: ahead) s)
    (hb : sweepReq rtable fuel node s = .ok s₁) (n : Nat) :
    ∃ new kept' rest' acc' tds, teardowns (queuedReply rtable table) acc kept rest =
        tds ++ teardowns (queuedReply rtable table) acc' kept' rest' ∧
      rest'.length ≤ ahead.length ∧ (∀ td ∈ tds, td.Ends (queuedReply rtable table)) ∧
      new.length ≤ (tds.flatMap (·.answered (queuedReply rtable table))).length ∧
      AtPass rtable table kept' rest' acc' (ahead ++ new) s₁ ∧ Store.Wf ⟨s₁, none⟩ ∧
      Path (PassAct rtable (queuedReply rtable table) (teardowns (queuedReply rtable table) acc kept rest))
        ⟨s, none⟩ ⟨s₁, none⟩ ∧
      safeLoopFrom (fun s => s.reqList.map (·.node)) (sweepReq rtable fuel) (n + 1) (node :: ahead) s =
        if ahead = [] then .ok s₁
        else safeLoopFrom (fun s => s.reqList.map (·.node)) (sweepReq rtable fuel) n (ahead ++ new) s₁ := by
  obtain ⟨new, kept', rest', acc', tds, htds, hlen', hends, hnew, hm', hpath⟩ := sweepReq_step hw hm hb
  have hw₁ : Store.Wf ⟨s₁, none⟩ := hw.path hpath
  obtain ⟨pre, hpre⟩ := hm'.nodes
  have hsub : ∀ td ∈ tds, td ∈ teardowns (queuedReply rtable table) acc kept rest := by
    intro td htd
    rw [htds]
    exact List.mem_append_left _ htd
  refine ⟨new, kept', rest', acc', tds, htds, hlen', hends, hnew, hm', hw₁, hpath.mono (PassAct.mono hsub), ?_⟩
  rw [safeLoopFrom_ok hb hpre hw₁.nodes]
  split_ifs
  · rw [safeLoopFrom_nil]
  · rfl

/-- A completed outer loop makes the teardowns, and each of them ends. -/
theorem passLoop_ok {table : ArpTable} {kept rest : List ArpReq} {acc : List UInt32} {ahead : List Nat}
    {fuel n : Nat} {s s' : Router} (hw : Store.Wf ⟨s, none⟩)
    (hm : AtPass rtable table kept rest acc ahead s) (hlen : rest.length ≤ ahead.length)
    (h : safeLoopFrom (fun s => s.reqList.map (·.node)) (sweepReq rtable fuel) n ahead s = .ok s') :
    (∀ td ∈ teardowns (queuedReply rtable table) acc kept rest, td.Ends (queuedReply rtable table)) ∧
      Path (PassAct rtable (queuedReply rtable table)
        (teardowns (queuedReply rtable table) acc kept rest)) ⟨s, none⟩ ⟨s', none⟩ := by
  induction n using Nat.strongRec generalizing kept rest acc ahead s with
  | _ n ih =>
    cases ahead with
    | nil =>
      obtain rfl : rest = [] := List.length_eq_zero_iff.mp (Nat.le_zero.mp hlen)
      rw [safeLoopFrom_nil, Except.ok.injEq] at h
      exact ⟨by simp [teardowns], h ▸ .refl _⟩
    | cons node ahead =>
      cases n with
      | zero => cases h
      | succ n =>
        cases hb : sweepReq rtable fuel node s with
        | error e => rw [safeLoopFrom_error hb] at h; cases h
        | ok s₁ =>
          obtain ⟨new, kept', rest', acc', tds, htds, hlen', hends, -, hm', hw₁, hpath, hloop⟩ :=
            passLoop_succ hw hm hb n
          rw [hloop] at h
          by_cases ha : ahead = []
          · subst ha
            obtain rfl : rest' = [] := List.length_eq_zero_iff.mp (Nat.le_zero.mp hlen')
            rw [if_pos rfl, Except.ok.injEq] at h
            subst h
            refine ⟨?_, hpath⟩
            rw [htds, teardowns, List.append_nil]
            exact hends
          · rw [if_neg ha] at h
            obtain ⟨hends', hrest⟩ :=
              ih n (Nat.lt_succ_self _) hw₁ hm' (by rw [List.length_append]; omega) h
            refine ⟨?_, hpath.trans (hrest.mono (PassAct.mono fun td htd => ?_))⟩
            · rw [htds]
              intro td htd
              exact (List.mem_append.mp htd).elim (hends td) (hends' td)
            · rw [htds]
              exact List.mem_append_right _ htd

/-- The outer loop keeps the packets quotable. -/
theorem AllQuotable.sweepReq {fuel node : Nat} {s s' : Router} (hq : AllQuotable s)
    (h : sweepReq rtable fuel node s = .ok s') : AllQuotable s' := by
  obtain ⟨req, -, -, ⟨-, s₁, h₁, rfl⟩ | ⟨-, -, rfl⟩ | ⟨-, -, rfl⟩⟩ := sweepReq_cases h
  · have hq₁ : AllQuotable s₁ :=
      safeLoop_invariant (fun p s s' hq hb => AllQuotable.sweepPacket hq hb) hq h₁
    exact fun r hr => hq₁ r (List.mem_of_mem_filter hr)
  · intro r hr p hp
    obtain ⟨r₀, hr₀, rfl⟩ := List.mem_map.mp hr
    split_ifs at hp <;> exact hq r₀ hr₀ p hp
  · exact hq

/-- A round of the outer loop runs out of rounds only in a teardown that needs more, and faults in no
other way if every packet is quotable. -/
theorem sweepReq_error {table : ArpTable} {kept rest : List ArpReq} {acc : List UInt32} {node : Nat}
    {ahead : List Nat} {fuel : Nat} {s : Router} {e : Fault} (hw : Store.Wf ⟨s, none⟩)
    (hm : AtPass rtable table kept rest acc (node :: ahead) s)
    (h : sweepReq rtable fuel node s = .error e) :
    (e = .outOfFuel → ∃ td ∈ teardowns (queuedReply rtable table) acc kept rest,
        ¬ (td.Ends (queuedReply rtable table) ∧
          (td.answered (queuedReply rtable table)).length ≤ fuel)) ∧
      (AllQuotable s → e = .outOfFuel) := by
  obtain ⟨htab, K, R, N, hl, hahead, hK, hR, hN⟩ := hm
  have hretry : ∀ r ∈ s.reqList, r.node = node → r.retries ≥ 5 := by
    intro r hr hn
    by_contra h5
    rw [← hn, sweepReq, hw.findReq_eq hr] at h
    simp only [h5, if_false] at h
    split_ifs at h
  cases R with
  | nil =>
    cases N with
    | nil => cases hahead
    | cons n N =>
      have h5 := hretry n (by rw [hl]; simp) (List.cons.inj hahead).1
      have := (hN n (by simp)).1
      omega
  | cons r R =>
    cases rest with
    | nil => cases hR
    | cons r₀ rest =>
      obtain ⟨rfl, rfl⟩ : r.node = node ∧ (R ++ N).map (·.node) = ahead := by simpa using hahead
      rw [List.map_cons, List.map_cons, List.cons.injEq] at hR
      obtain ⟨hv, hR⟩ := hR
      have hreq : r ∈ s.reqList := by rw [hl]; simp
      have h5 : r.retries ≥ 5 := hretry r hreq rfl
      have h5' : r₀.retries ≥ 5 := by
        have hret : r.retries = r₀.retries := congrArg (fun v => v.2.1) hv
        exact hret ▸ h5
      obtain ⟨hident, -, hsrc⟩ : r.ident = r₀.ident ∧ r.retries = r₀.retries ∧
          queueAt (queuedReply rtable table) [] r = queueAt (queuedReply rtable table) acc r₀ := by
        simpa only [viewAt, Prod.mk.injEq] using hv
      obtain ⟨hnode, -, hip⟩ : r.node = r₀.node ∧ r.iface = r₀.iface ∧ r.ip4 = r₀.ip4 := by
        simpa only [ArpReq.ident, Prod.mk.injEq] using hident
      rw [queueAt, List.flatMap_nil, List.append_nil] at hsrc
      have hm : MidPass rtable table kept rest acc r ((R ++ N).map (·.node)) s :=
        ⟨htab, K, R, N, hl, rfl, hK, hR, hN⟩
      have hw₁ : Store.Wf ⟨s, some r.node⟩ := hw.does (.begin s r.node)
      rw [sweepReq, hw.findReq_eq hreq] at h
      simp only [h5, if_true] at h
      rcases bind_error h with h | ⟨s₁, -, h⟩
      · rw [forEachSafe_eq, (hm.queueNodes hw₁).1] at h
        let td : Teardown := ⟨r₀, queueAt (queuedReply rtable table) acc r₀, kept ++ rest⟩
        have htd : td.others = kept ++ rest := rfl
        obtain ⟨hfuel, hlong⟩ := tearLoop_error htd hm hw₁ hnode h
        refine ⟨fun he => ⟨td, ?_, ?_⟩, hlong⟩
        · rw [teardowns, if_pos h5']
          exact List.mem_cons_self
        · rintro ⟨hends, hle⟩
          have hnone := hfuel he
          rw [hip, hsrc] at hnone
          have hsome := serve_of_ends hends hle
          rw [hnone] at hsome
          cases hsome
      · cases h

/-- The outer loop runs out of rounds only if a teardown does not end or there are too few of them, and
faults in no other way if every packet is quotable. -/
theorem passLoop_error {table : ArpTable} {kept rest : List ArpReq} {acc : List UInt32}
    {ahead : List Nat} {fuel n : Nat} {s : Router} {e : Fault} (hw : Store.Wf ⟨s, none⟩)
    (hm : AtPass rtable table kept rest acc ahead s) (hlen : rest.length ≤ ahead.length)
    (h : safeLoopFrom (fun s => s.reqList.map (·.node)) (sweepReq rtable fuel) n ahead s = .error e) :
    (e = .outOfFuel → (∀ td ∈ teardowns (queuedReply rtable table) acc kept rest,
        td.Ends (queuedReply rtable table) ∧ (td.answered (queuedReply rtable table)).length ≤ fuel) →
      n < ahead.length + ((teardowns (queuedReply rtable table) acc kept rest).flatMap
        (·.answered (queuedReply rtable table))).length) ∧
      (AllQuotable s → e = .outOfFuel) := by
  induction n using Nat.strongRec generalizing kept rest acc ahead s with
  | _ n ih =>
    cases ahead with
    | nil =>
      rw [safeLoopFrom_nil] at h
      cases h
    | cons node ahead =>
      cases n with
      | zero =>
        rw [safeLoopFrom_zero, Except.error.injEq] at h
        refine ⟨fun _ _ => ?_, fun _ => h.symm⟩
        rw [List.length_cons]
        omega
      | succ n =>
        cases hb : sweepReq rtable fuel node s with
        | error e' =>
          rw [safeLoopFrom_error hb, Except.error.injEq] at h
          subst h
          obtain ⟨hfuel, hlong⟩ := sweepReq_error hw hm hb
          refine ⟨fun he hall => ?_, hlong⟩
          obtain ⟨td, htd, hno⟩ := hfuel he
          exact absurd (hall td htd) hno
        | ok s₁ =>
          obtain ⟨new, kept', rest', acc', tds, htds, hlen', -, hnew, hm', hw₁, -, hloop⟩ :=
            passLoop_succ hw hm hb n
          rw [hloop] at h
          split_ifs at h with ha
          obtain ⟨hfuel, hlong⟩ := ih n (Nat.lt_succ_self _) hw₁ hm' (by rw [List.length_append]; omega) h
          refine ⟨fun he hall => ?_, fun hq => hlong (hq.sweepReq hb)⟩
          have hlt := hfuel he fun td htd => hall td (by rw [htds]; exact List.mem_append_right _ htd)
          rw [htds, List.flatMap_append, List.length_append]
          rw [List.length_append] at hlt
          rw [List.length_cons]
          omega

/-! ## The whole pass -/

/-- The list when the outer loop begins. -/
theorem AtPass.start (s : Router) : AtPass rtable (sweepTable s).table [] s.reqList []
    (s.reqList.map (·.node)) (sweepTable s) :=
  ⟨rfl, [], s.reqList, [], by simp [sweepTable], by simp, rfl, by simp, by simp⟩

/-- A completed pass makes the teardowns of `passTeardowns`, and each of them ends. -/
theorem arpcacheSweep_path {fuel : Nat} {s s' : Router} (hw : Store.Wf ⟨s, none⟩)
    (h : arpcacheSweep rtable fuel s = .ok s') :
    (∀ td ∈ passTeardowns rtable s, td.Ends (passReply rtable s)) ∧
      Path (PassAct rtable (passReply rtable s) (passTeardowns rtable s)) ⟨s, none⟩ ⟨s', none⟩ := by
  rw [arpcacheSweep, forEachSafe_eq] at h
  have hexpire := Does.expire s
  obtain ⟨hends, hpath⟩ := passLoop_ok (hw.does hexpire) (AtPass.start s) (by simp) h
  exact ⟨hends, (Path.single .expire trivial hexpire).trans hpath⟩

/-- Enough rounds for each traversal of a pass that ends. -/
def passFuel (rtable : List RtEntry) (s : Router) : Nat :=
  s.reqList.length + ((passTeardowns rtable s).flatMap (·.answered (passReply rtable s))).length

/-- A pass whose teardowns end does not run out of rounds, and a pass faults in no other way if every
packet is quotable. -/
theorem arpcacheSweep_error {fuel : Nat} {s : Router} {e : Fault} (hw : Store.Wf ⟨s, none⟩)
    (h : arpcacheSweep rtable fuel s = .error e) :
    (e = .outOfFuel → (∀ td ∈ passTeardowns rtable s, td.Ends (passReply rtable s)) →
      fuel < passFuel rtable s) ∧ (AllQuotable s → e = .outOfFuel) := by
  rw [arpcacheSweep, forEachSafe_eq] at h
  obtain ⟨hfuel, hlong⟩ := passLoop_error (hw.does (.expire s)) (AtPass.start s) (by simp) h
  refine ⟨fun he hends => ?_, hlong⟩
  by_contra hlt
  have hle : passFuel rtable s ≤ fuel := Nat.le_of_not_lt hlt
  refine absurd (hfuel he fun td htd => ⟨hends td htd, ?_⟩) ?_
  · have hsub := List.sublist_flatten_of_mem
      (List.mem_map_of_mem (f := fun td : Teardown => td.answered (passReply rtable s)) htd)
    have hone := hsub.length_le
    rw [← List.flatMap_def] at hone
    have hall : ((passTeardowns rtable s).flatMap (·.answered (passReply rtable s))).length ≤ fuel := by
      unfold passFuel at hle
      omega
    exact Nat.le_trans hone hall
  · rw [List.length_map]
    exact Nat.not_lt.mpr hle

end StaticRouter
