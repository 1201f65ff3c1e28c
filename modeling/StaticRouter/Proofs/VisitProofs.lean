import StaticRouter.Proofs.RunProofs

/-!
# Proofs: what a sweep pass does to a request

A pass visits every request that is on the list when it begins. Outside its own visit a request keeps its
identity, the time it was sent and its retry counter.
-/

namespace StaticRouter

open CMem

variable {rtable : List RtEntry}

/-! ## What a path of actions keeps -/

/-- The requests of `s'` are requests of `s`, repeated more often perhaps, or were opened since. -/
def Kept (s s' : Router) : Prop :=
  s.next ≤ s'.next ∧ ∀ r' ∈ s'.reqList, s.next ≤ r'.node ∨
    ∃ r ∈ s.reqList, r.node = r'.node ∧ r.ip4 = r'.ip4 ∧ r.sent = r'.sent ∧ r.retries ≤ r'.retries

theorem Kept.refl (s : Router) : Kept s s :=
  ⟨Nat.le_refl _, fun r hr => Or.inr ⟨r, hr, rfl, rfl, rfl, Int.le_refl _⟩⟩

/-- The requests may be changed in place, if only their queues and counters change. -/
theorem Kept.changed {s s₁ s₂ : Router} (h : Kept s s₁) {f : ArpReq → ArpReq}
    (hl : s₂.reqList = s₁.reqList.map f) (hn : s₁.next ≤ s₂.next)
    (hf : ∀ r, (f r).node = r.node ∧ (f r).ip4 = r.ip4 ∧ (f r).sent = r.sent ∧ r.retries ≤ (f r).retries) :
    Kept s s₂ := by
  refine ⟨Nat.le_trans h.1 hn, fun r' hr' => ?_⟩
  rw [hl] at hr'
  obtain ⟨r₁, hr₁, rfl⟩ := List.mem_map.mp hr'
  obtain ⟨hnode, hip, hsent, hret⟩ := hf r₁
  rcases h.2 r₁ hr₁ with hnew | ⟨r, hr, h₁, h₂, h₃, h₄⟩
  · exact Or.inl (by rw [hnode]; exact hnew)
  · exact Or.inr ⟨r, hr, h₁.trans hnode.symm, h₂.trans hip.symm, h₃.trans hsent.symm, Int.le_trans h₄ hret⟩

/-- Requests may be unlinked. -/
theorem Kept.unlinked {s s₁ s₂ : Router} (h : Kept s s₁) (hl : ∀ r ∈ s₂.reqList, r ∈ s₁.reqList)
    (hn : s₁.next ≤ s₂.next) : Kept s s₂ :=
  ⟨Nat.le_trans h.1 hn, fun r' hr' => h.2 r' (hl r' hr')⟩

theorem Kept.does {s : Router} {act : Act} {st st' : Store} (h : Kept s st.router) (hd : Does act st st') :
    Kept s st'.router := by
  cases hd with
  | env => exact h.unlinked (fun _ => id) (Nat.le_refl _)
  | originate => exact h.unlinked (fun _ => id) (Nat.le_refl _)
  | arp => exact h.unlinked (fun _ => id) (Nat.le_refl _)
  | submit ph hs =>
    obtain ⟨q, -, ⟨mac, frame, -, -, rfl⟩ | ⟨-, -, rfl⟩ | ⟨-, -, rfl⟩⟩ := ifaceSendPacketByArp_cases hs
    · exact h.unlinked (fun _ => id) (Nat.le_succ _)
    · refine h.changed rfl (Nat.le_succ _) fun r => ?_
      split_ifs <;> exact ⟨rfl, rfl, rfl, Int.le_refl _⟩
    · refine ⟨Nat.le_succ_of_le h.1, fun r' hr' => ?_⟩
      rcases List.mem_append.mp hr' with hr' | hr'
      · exact h.2 r' hr'
      · rw [List.mem_singleton.mp hr']
        exact Or.inl h.1
  | learn hi =>
    obtain ⟨-, rfl⟩ := arpcacheInsert_ok hi
    exact h.unlinked (fun r hr => List.mem_of_mem_filter hr) (Nat.le_refl _)
  | expire => exact h.unlinked (fun _ => id) (Nat.le_refl _)
  | retry =>
    refine h.changed rfl (Nat.le_refl _) fun r => ?_
    split_ifs
    · exact ⟨rfl, rfl, rfl, by simp only; omega⟩
    · exact ⟨rfl, rfl, rfl, Int.le_refl _⟩
  | begin => exact h
  | giveUp =>
    refine h.changed rfl (Nat.le_refl _) fun r => ?_
    split_ifs <;> exact ⟨rfl, rfl, rfl, Int.le_refl _⟩
  | unlink => exact h.unlinked (fun r hr => List.mem_of_mem_filter hr) (Nat.le_refl _)

theorem Path.kept {G : Act → Store → Prop} {a b : Store} (h : Path G a b) : Kept a.router b.router :=
  h.invariant (I := fun st => Kept a.router st.router) (fun _ _ _ _ hk hd => hk.does hd) (Kept.refl _)

/-! ## The inner loop -/

/-- The actions of the inner loop, whatever it gives up. -/
def InnerAct : Act → Store → Prop
  | .env, _ => True
  | .originate _ _ _, _ => True
  | .submit _ _ _, _ => True
  | .giveUp _, _ => True
  | _, _ => False

/-- A round of the inner loop. -/
theorem sweepPacket_path {node tag : Nat} {s s' : Router} (hw : Store.Wf ⟨s, some node⟩)
    (h : sweepPacket rtable node tag s = .ok s') : Path InnerAct ⟨s, some node⟩ ⟨s', some node⟩ := by
  obtain ⟨r, hmem, hnode, pkt, hp, htag, -, s₁, h₁, rfl⟩ := sweepPacket_cases h
  have hpath : Path InnerAct ⟨s, some node⟩ ⟨s₁, some node⟩ := by
    rcases icmpSendPacket_cases (Or.inr (Or.inl rfl)) h₁ with ⟨-, rfl⟩ | ⟨rt, q, -, -, h₁⟩
    · exact .refl _
    · refine (Path.single .env trivial (.env s _ s.drawn.env)).trans ?_
      refine (Path.single (.originate 3 1 (sourceOf pkt.packet)) trivial (.originate _ _ 3 1 _)).trans ?_
      exact .single (.submit rt.iface (sourceOf pkt.packet) q) trivial (.submit _ h₁)
  have hw₁ := hw.path hpath
  refine hpath.trans (.single (.giveUp tag) trivial (.giveUp ?_))
  -- the packet is still in the queue: the message can only have joined it
  obtain ⟨f, new, hl, -, -, -, hgrow⟩ := icmpSendPacket_reqList h₁
  obtain ⟨extra, hfr, -⟩ := hgrow r hmem
  have hmem₁ : f r ∈ s₁.reqList := by
    rw [hl]
    exact List.mem_append_left _ (List.mem_map_of_mem hmem)
  have hnode₁ : (f r).node = node := by rw [hfr]; exact hnode
  rw [Router.queueNodes, ← hnode₁, hw₁.findReq_eq hmem₁, hfr]
  simp only [Option.map_some, Option.getD_some, List.map_append, List.mem_append]
  exact Or.inl (htag ▸ List.mem_map_of_mem hp)

/-- The inner loop. -/
theorem tearLoop_path {fuel node : Nat} {s s' : Router} (hw : Store.Wf ⟨s, some node⟩)
    (h : forEachSafe (Router.queueNodes node) (sweepPacket rtable node) fuel s = .ok s') :
    Path InnerAct ⟨s, some node⟩ ⟨s', some node⟩ := by
  refine safeLoop_invariant (I := fun t => Path InnerAct ⟨s, some node⟩ ⟨t, some node⟩) ?_ (.refl _) h
  exact fun tag t t' hp hb => hp.trans (sweepPacket_path (hw.path hp) hb)

/-- The inner loop unlinks no request. -/
theorem innerPath_persists {s s₁ : Router} {ph : Option Nat} (hp : Path InnerAct ⟨s, ph⟩ ⟨s₁, ph⟩)
    {r : ArpReq} (hr : r ∈ s.reqList) :
    ∃ r₁ ∈ s₁.reqList, r₁.node = r.node ∧ r₁.ip4 = r.ip4 ∧ r₁.retries = r.retries := by
  refine hp.invariant (I := fun st => ∃ r₁ ∈ st.router.reqList,
    r₁.node = r.node ∧ r₁.ip4 = r.ip4 ∧ r₁.retries = r.retries) ?_ ⟨r, hr, rfl, rfl, rfl⟩
  rintro act st st' hg ⟨r₁, hr₁, hsame⟩ hd
  cases hd with
  | env => exact ⟨r₁, hr₁, hsame⟩
  | originate => exact ⟨r₁, hr₁, hsame⟩
  | submit ph hs =>
    obtain ⟨pkts, new, sent, hl, -⟩ := ifaceSendPacketByArp_reqList hs
    refine ⟨_, hl ▸ List.mem_append_left _ (List.mem_map_of_mem hr₁), ?_⟩
    split_ifs <;> exact hsame
  | giveUp ht =>
    refine ⟨_, List.mem_map_of_mem hr₁, ?_⟩
    split_ifs <;> exact hsame
  | _ => exact hg.elim

/-! ## The outer loop -/

/-- What the body of the outer loop does with the request `r`. -/
inductive Visit (r : ArpReq) (s : Router) : Router → Prop where
  /-- The request is given up. -/
  | drop {s₁ : Router} (h5 : 5 ≤ r.retries) (hp : Path InnerAct ⟨s, some r.node⟩ ⟨s₁, some r.node⟩) :
      Visit r s ({ s₁ with reqList := s₁.reqList.filter (·.node ≠ r.node) }.log (.dropped r.ip4))
  /-- The request is repeated. -/
  | repeated (h5 : r.retries < 5) (ht : 1 ≤ s.time.1 - r.sent) :
      Visit r s (arpSendRequest r.iface r.ip4
        (s.time.2.updateReq r.node fun req => { req with retries := req.retries + 1 }))
  /-- It was sent less than a second ago. -/
  | early (h5 : r.retries < 5) (ht : s.time.1 - r.sent < 1) : Visit r s s.time.2

theorem sweepReq_visit {fuel node : Nat} {s s' : Router} (hw : Store.Wf ⟨s, none⟩)
    (h : sweepReq rtable fuel node s = .ok s') : ∃ r ∈ s.reqList, r.node = node ∧ Visit r s s' := by
  obtain ⟨r, hmem, rfl, ⟨h5, s₁, h₁, rfl⟩ | ⟨h5, ht, rfl⟩ | ⟨h5, ht, rfl⟩⟩ := sweepReq_cases h
  · exact ⟨r, hmem, rfl, .drop h5 (tearLoop_path (hw.does (.begin s r.node)) h₁)⟩
  · exact ⟨r, hmem, rfl, .repeated h5 ht⟩
  · exact ⟨r, hmem, rfl, .early h5 ht⟩

/-- A visit is a path of actions. -/
theorem Visit.path {r : ArpReq} {s s' : Router} (hw : Store.Wf ⟨s, none⟩) (hr : r ∈ s.reqList)
    (h : Visit r s s') : Path (fun _ _ => True) ⟨s, none⟩ ⟨s', none⟩ := by
  have htime : Path (fun _ _ => True) ⟨s, none⟩ ⟨s.time.2, none⟩ := .single .env trivial (.env s none _)
  cases h with
  | @drop s₁ h5 hp =>
    have hbegin := Does.begin s r.node
    have hw₁ := (hw.does hbegin).path hp
    obtain ⟨r₁, hr₁, hn₁, hip₁, -⟩ := innerPath_persists hp hr
    have hfind : s₁.findReq r.node = some r₁ := hn₁ ▸ hw₁.findReq_eq hr₁
    rw [← hip₁]
    exact (Path.single (.begin r.node) trivial hbegin).trans
      ((hp.mono fun _ _ _ => trivial).trans (.single (.unlink r.node) trivial (.unlink hfind)))
  | repeated h5 ht =>
    refine htime.trans ((Path.single (.retry r.node) trivial (.retry ?_)).trans
      (.single (.arp r.iface (requestFrame r)) trivial (.arp _ none _ _)))
    intro r' hr' hn
    rw [hw.eq_of_node hr' hr hn]
    exact h5
  | early => exact htime

/-! ## The nodes of the list -/

/-- The inner loop links requests in at the tail. -/
theorem innerPath_nodes {s s₁ : Router} {ph : Option Nat} (hp : Path InnerAct ⟨s, ph⟩ ⟨s₁, ph⟩) :
    ∃ new, s₁.reqList.map (·.node) = s.reqList.map (·.node) ++ new := by
  refine hp.invariant (I := fun st => ∃ new, st.router.reqList.map (·.node) = s.reqList.map (·.node) ++ new)
    ?_ ⟨[], by simp⟩
  rintro act st st' hg ⟨new, hnew⟩ hd
  cases hd with
  | env => exact ⟨new, hnew⟩
  | originate => exact ⟨new, hnew⟩
  | submit ph hs =>
    obtain ⟨pkts, opened, sent, hl, -⟩ := ifaceSendPacketByArp_reqList hs
    generalize opened.map _ = extra at hl
    refine ⟨new ++ extra.map (·.node), ?_⟩
    rw [hl, List.map_append, List.map_map, ← List.append_assoc, ← hnew]
    refine congrArg (· ++ _) (List.map_congr_left fun r _ => ?_)
    simp only [Function.comp]
    split_ifs <;> rfl
  | giveUp ht =>
    refine ⟨new, ?_⟩
    rw [← hnew]
    simp only [Router.log, Router.updateReq, List.map_map]
    exact List.map_congr_left fun r _ => by simp only [Function.comp]; split_ifs <;> rfl
  | _ => exact hg.elim

theorem Visit.advances {r : ArpReq} {s s' : Router} (hw : Store.Wf ⟨s, none⟩) (hr : r ∈ s.reqList)
    (h : Visit r s s') : Advances r.node (s.reqList.map (·.node)) (s'.reqList.map (·.node)) := by
  refine ⟨(hw.path (h.path hw hr)).nodes, fun pre t hl => ?_⟩
  cases h with
  | @drop s₁ h5 hp =>
    obtain ⟨new, hnew⟩ := innerPath_nodes hp
    have hnd := ((hw.does (.begin s r.node)).path hp).nodes
    simp only at hnd
    rw [hl, List.append_assoc] at hnew
    refine ⟨pre, new, ?_⟩
    have hfilter := filter_unlink (A := pre) (B := t ++ new) (x := r.node)
      (show ((pre ++ r.node :: (t ++ new)).map id).Nodup by rw [List.map_id, ← List.cons_append, ← hnew]; exact hnd)
    rw [← hfilter]
    simp only [Router.log, id]
    rw [← List.cons_append, ← hnew, List.filter_map]
    rfl
  | repeated h5 ht =>
    refine ⟨pre ++ [r.node], [], ?_⟩
    have hsame : (arpSendRequest r.iface r.ip4 (s.time.2.updateReq r.node fun req =>
        { req with retries := req.retries + 1 })).reqList.map (·.node) = s.reqList.map (·.node) := by
      simp only [arpSendRequest, ifaceSendPacket, Router.log, Router.updateReq, Router.time, List.map_map]
      exact List.map_congr_left fun r _ => by simp only [Function.comp]; split_ifs <;> rfl
    rw [hsame, hl]
    simp
  | early => exact ⟨pre ++ [r.node], [], by simpa [Router.time] using hl⟩

/-- A round of the outer loop keeps the joint invariant and advances in the list. -/
theorem sweepReq_advances {fuel node : Nat} {s s' : Router} (hw : Store.Wf ⟨s, none⟩)
    (h : sweepReq rtable fuel node s = .ok s') :
    Store.Wf ⟨s', none⟩ ∧ Advances node (s.reqList.map (·.node)) (s'.reqList.map (·.node)) := by
  obtain ⟨r, hr, rfl, hv⟩ := sweepReq_visit hw h
  exact ⟨hw.path (hv.path hw hr), hv.advances hw hr⟩

/-! ## The table -/

/-- The loops over the request list leave the table as it is. -/
theorem Visit.table {r : ArpReq} {s s' : Router} (h : Visit r s s') : s'.table = s.table := by
  cases h with
  | @drop s₁ _ hp =>
    refine hp.invariant (I := fun st => st.router.table = s.table) ?_ rfl
    intro act st st' hg ht hd
    cases hd with
    | env => exact ht
    | originate => exact ht
    | submit ph hs =>
      obtain ⟨q, -, ⟨mac, frame, -, -, rfl⟩ | ⟨-, -, rfl⟩ | ⟨-, -, rfl⟩⟩ := ifaceSendPacketByArp_cases hs
      · exact ht
      · exact ht
      · exact ht
    | giveUp => exact ht
    | _ => exact hg.elim
  | repeated => rfl
  | early => rfl

/-- An ARP packet enters the sender's mapping. -/
theorem handleArpPacket_table {iface : Iface} {packet : Frame} {s s' : Router}
    (h : handleArpPacket iface packet s = .ok s') : ∃ ea, readEtherArp packet = .ok ea ∧
      s'.table = (tableInsert s.env.before ea.spa ea.sha s.table s.env.clock).1 := by
  obtain ⟨ea, s₁, hea, h₁, rfl⟩ := handleArpPacket_cases h
  obtain ⟨-, rfl⟩ := arpcacheInsert_ok h₁
  refine ⟨ea, hea, ?_⟩
  split_ifs
  · rcases arpSendReply_cases iface ea _ with he | ⟨sha', he⟩
    · rw [he]
    · rw [he]
      rfl
  · rfl

/-- What a step does to the table. -/
inductive TableStep : Input → ArpTable → ArpTable → Prop where
  | keep (i : Input) (t : ArpTable) : TableStep i t t
  | learn {iface : Iface} {packet : Frame} {env : Env} {ip4 : UInt32} (mac : Mac) (t : ArpTable)
      (harp : packet.readU16 etherType = .ok ethPArp) (hspa : packet.readU32 arpSpa = .ok ip4) :
      TableStep (.frame iface packet env) t (tableInsert env.before ip4 mac t env.clock).1
  | expire (env : Env) (t : ArpTable) : TableStep (.sweep env) t (tableExpire t env.clock).1

theorem Step.table {i : Input} {s s' : Router} (hw : Store.Wf ⟨s, none⟩) (h : Step rtable i s s') :
    TableStep i s.table s'.table := by
  cases h with
  | @frame iface packet env _ _ h =>
    rcases handlePacket_cases h with rfl | ⟨-, out, dst, q, env', notes, -, -, h⟩ | ⟨harp, h⟩
    · exact .keep _ _
    · obtain ⟨q, -, ⟨mac, frame, -, -, rfl⟩ | ⟨-, -, rfl⟩ | ⟨-, -, rfl⟩⟩ := ifaceSendPacketByArp_cases h
      · exact .keep _ _
      · exact .keep _ _
      · exact .keep _ _
    · obtain ⟨ea, hea, ht⟩ := handleArpPacket_table h
      rw [ht]
      exact .learn ea.sha s.table harp (readEtherArp_ok.mp hea).2.2.1
  | @sweep fuel env _ _ h =>
    have hloop := safeLoop_invariant
      (I := fun t => Store.Wf ⟨t, none⟩ ∧ t.table = (tableExpire s.table env.clock).1)
      (fun node t t' hi hb => by
        obtain ⟨r, -, rfl, hv⟩ := sweepReq_visit hi.1 hb
        exact ⟨(sweepReq_advances hi.1 hb).1, hv.table.trans hi.2⟩)
      (show Store.Wf ⟨sweepTable { s with env := env }, none⟩ ∧ _ from
        ⟨(hw.does (.env s none env)).does (.expire _), rfl⟩) h
    rw [hloop.2]
    exact .expire env s.table

end StaticRouter
