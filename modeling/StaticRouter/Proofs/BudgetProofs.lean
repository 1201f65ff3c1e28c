import StaticRouter.Budget
import StaticRouter.Proofs.HistoryProofs
import StaticRouter.Proofs.VisitProofs

/-!
# Proofs: the ARP requests that are spent on an address

The retry counter of a request counts the ARP requests sent for it, but for the first one, which
`arpcache_append_packet` sends. A request is given up when the counter is five, so after six ARP requests.
-/

namespace StaticRouter

open CMem

variable {rtable : List RtEntry}

/-! ## Counting -/

theorem requestsSince_log (ip4 : UInt32) (tr : List Event) (e : Event) :
    requestsSince ip4 (tr ++ [e]) = countRequest ip4 (requestsSince ip4 tr) e := by
  simp [requestsSince]

theorem isRequestFor_requestFrame (iface : Iface) (dst ip4 : UInt32) :
    IsRequestFor ip4 (arpFrame broadcastMac iface.mac arpopRequest iface.mac iface.ip zeroMac dst) ↔
      dst = ip4 := by
  have hread := readEtherArp_ok.mp (readEtherArp_arpFrame broadcastMac iface.mac iface.mac zeroMac arpopRequest
    iface.ip dst)
  have hdhost : (arpFrame broadcastMac iface.mac arpopRequest iface.mac iface.ip zeroMac dst).slice etherDhost
      ethAlen = broadcastMac.val := by
    simp only [arpFrame, List.append_assoc]
    have hpre : ([] : Buffer).length = etherDhost := rfl
    exact Buffer.slice_append hpre broadcastMac.property
  unfold IsRequestFor
  rw [hread.2.1]
  constructor
  · rintro ⟨-, -, h⟩
    exact Except.ok.inj h
  · rintro rfl
    exact ⟨hdhost, hread.1, rfl⟩

/-- A reply is no request. -/
theorem not_isRequestFor_reply (dhost shost sha tha : Mac) (spa tpa ip4 : UInt32) :
    ¬ IsRequestFor ip4 (arpFrame dhost shost arpopReply sha spa tha tpa) := by
  rintro ⟨-, h, -⟩
  rw [(readEtherArp_ok.mp (readEtherArp_arpFrame dhost shost sha tha arpopReply spa tpa)).1] at h
  have hop : arpopReply = arpopRequest := Except.ok.inj h
  exact absurd hop (by decide)

/-- An event that changes no count. -/
def Event.Silent (e : Event) : Prop := ∀ ip4 n, countRequest ip4 n e = n

theorem requestsSince_append {es : List Event} (h : ∀ e ∈ es, e.Silent) (ip4 : UInt32) (tr : List Event) :
    requestsSince ip4 (tr ++ es) = requestsSince ip4 tr := by
  induction es generalizing tr with
  | nil => rw [List.append_nil]
  | cons e es ih =>
    rw [← List.singleton_append, ← List.append_assoc, ih fun e he => h e (List.mem_cons_of_mem _ he),
      requestsSince_log, h e List.mem_cons_self]

/-! ## Events that end no request -/

section Spent

variable {given resolved : Nat → Prop} {tr : List Event}

theorem Spent.log (h : Spent given resolved tr) {e : Event} (he : e.Within given resolved tr) :
    Spent given resolved (tr ++ [e]) := by
  intro pre d post heq
  rcases List.eq_nil_or_concat post with rfl | ⟨post', x, rfl⟩
  · obtain ⟨rfl, hd⟩ := List.append_inj' heq rfl
    rw [← (List.cons.inj hd).1]
    exact he
  · rw [List.concat_eq_append, ← List.cons_append, ← List.append_assoc] at heq
    exact h pre d post' (List.append_inj' heq rfl).1

/-- Events that end no request, whatever came before. -/
theorem Spent.append (h : Spent given resolved tr) {es : List Event}
    (he : ∀ e ∈ es, ∀ tr, e.Within given resolved tr) : Spent given resolved (tr ++ es) := by
  induction es generalizing tr with
  | nil => rwa [List.append_nil]
  | cons e es ih =>
    rw [← List.singleton_append, ← List.append_assoc]
    exact ih (h.log (he e List.mem_cons_self tr)) fun e hm => he e (List.mem_cons_of_mem _ hm)

/-- The packets of a request that is answered. -/
theorem Spent.flush (h : Spent given resolved tr) (ip4 : UInt32) (mac : Mac) {reqs : List ArpReq}
    (hr : reqs ≠ [] → resolved (requestsSince ip4 tr)) :
    Spent given resolved (tr ++ reqs.flatMap (flushEvents ip4 mac)) := by
  have hevents : ∀ es : List Event, (∀ e ∈ es, ∃ iface frame tag, e = .sent iface frame (.flush tag ip4)) →
      (es ≠ [] → resolved (requestsSince ip4 tr)) → Spent given resolved (tr ++ es) := by
    intro es
    induction es generalizing tr with
    | nil => intro _ _; rwa [List.append_nil]
    | cons e es ih =>
      intro hes hres
      obtain ⟨iface, frame, tag, rfl⟩ := hes _ List.mem_cons_self
      have hres' : resolved (requestsSince ip4 tr) := hres (List.cons_ne_nil _ _)
      rw [← List.singleton_append, ← List.append_assoc]
      refine ih (h.log hres') ?_ (fun e he => hes e (List.mem_cons_of_mem _ he)) fun _ => ?_
      · intro _
        rw [requestsSince_log]
        exact hres'
      · rw [requestsSince_log]
        exact hres'
  refine hevents _ (fun e he => ?_) fun hne => hr ?_
  · obtain ⟨r, -, he⟩ := List.mem_flatMap.mp he
    obtain ⟨p, -, rfl⟩ := List.mem_map.mp he
    exact ⟨_, _, _, rfl⟩
  · rintro rfl
    exact hne rfl

end Spent

theorem flush_silent {ip4 : UInt32} {mac : Mac} {reqs : List ArpReq} :
    ∀ e ∈ reqs.flatMap (flushEvents ip4 mac), e.Silent := by
  intro e he
  obtain ⟨r, -, he⟩ := List.mem_flatMap.mp he
  obtain ⟨p, -, rfl⟩ := List.mem_map.mp he
  exact fun _ _ => rfl

/-! ## The counter counts -/

/-- One ARP request was sent when the `arp_req` was created, and one each time the counter went up. -/
def Tied (s : Router) : Prop := ∀ r ∈ s.reqList, (requestsSince r.ip4 s.trace : Int) = r.retries + 1

theorem Tied.quiet {s s' : Router} (h : Tied s) {es : List Event} (htr : s'.trace = s.trace ++ es)
    (hes : ∀ e ∈ es, e.Silent)
    (hl : ∀ r' ∈ s'.reqList, ∃ r ∈ s.reqList, r.ip4 = r'.ip4 ∧ r.retries = r'.retries) : Tied s' := by
  intro r' hr'
  obtain ⟨r, hr, hip, hret⟩ := hl r' hr'
  rw [htr, requestsSince_append hes, ← hip, ← hret]
  exact h r hr

/-- `iface_send_packet_by_arp`. -/
theorem Tied.submit {s s' : Router} (h : Tied s) {iface : Iface} {dst : UInt32} {packet : Frame}
    (hs : ifaceSendPacketByArp iface dst packet s = .ok s') : Tied s' := by
  obtain ⟨q, -, ⟨mac, frame, -, -, rfl⟩ | ⟨-, -, rfl⟩ | ⟨-, hnew, rfl⟩⟩ := ifaceSendPacketByArp_cases hs
  · refine h.quiet (List.append_assoc _ _ _) ?_ fun r hr => ⟨r, hr, rfl, rfl⟩
    simp [Event.Silent, countRequest]
  · refine h.quiet (List.append_assoc _ _ _) (by simp [Event.Silent, countRequest]) fun r' hr' => ?_
    obtain ⟨r, hr, rfl⟩ := List.mem_map.mp hr'
    refine ⟨r, hr, ?_⟩
    split_ifs <;> exact ⟨rfl, rfl⟩
  · intro r hr
    have hcount : ∀ ip4, requestsSince ip4 (s.trace ++ [.submitted s.next iface dst packet] ++
        [.queued s.next] ++ [.opened dst] ++ [.sent iface (arpFrame broadcastMac iface.mac arpopRequest
          iface.mac iface.ip zeroMac dst) .arp]) = if dst = ip4 then 1 else requestsSince ip4 s.trace := by
      intro ip4
      simp only [requestsSince_log, countRequest, isRequestFor_requestFrame]
      split_ifs <;> rfl
    simp only [hcount]
    rcases List.mem_append.mp hr with hr | hr
    · rw [if_neg (hnew r hr).symm]
      exact h r hr
    · obtain rfl := List.mem_singleton.mp hr
      simp

/-- The action ends no request, and sends no ARP request but the first one for an address. -/
def Spares : Act → Store → Prop
  | .learn _ _, _ => False
  | .retry _, _ => False
  | .unlink _, _ => False
  | .arp _ frame, _ => ∀ ip4, ¬ IsRequestFor ip4 frame
  | _, _ => True

theorem InnerAct.spares (act : Act) (st : Store) (h : InnerAct act st) : Spares act st := by
  cases act <;> trivial

/-- An action that ends no request. -/
theorem Does.spares {given resolved : Nat → Prop} {act : Act} {st st' : Store} (hd : Does act st st')
    (hg : Spares act st) (h : Tied st.router ∧ Spent given resolved st.router.trace) :
    Tied st'.router ∧ Spent given resolved st'.router.trace := by
  obtain ⟨ht, hs⟩ := h
  cases hd with
  | env => exact ⟨ht, hs⟩
  | originate s ph type code dst =>
    exact ⟨ht.quiet rfl (by simp [Event.Silent, countRequest]) fun r hr => ⟨r, hr, rfl, rfl⟩, hs.log trivial⟩
  | arp s ph iface frame =>
    refine ⟨ht.quiet rfl ?_ fun r hr => ⟨r, hr, rfl, rfl⟩, hs.log trivial⟩
    intro e he ip4 n
    rw [List.mem_singleton.mp he]
    exact if_neg (hg ip4)
  | submit ph hsub =>
    refine ⟨ht.submit hsub, ?_⟩
    obtain ⟨q, -, ⟨mac, frame, -, -, rfl⟩ | ⟨-, -, rfl⟩ | ⟨-, -, rfl⟩⟩ := ifaceSendPacketByArp_cases hsub
    · rw [List.append_assoc]
      exact hs.append (by simp [Event.Within])
    · rw [List.append_assoc]
      exact hs.append (by simp [Event.Within])
    · rw [List.append_assoc, List.append_assoc, List.append_assoc]
      exact hs.append (by simp [Event.Within])
  | learn => exact hg.elim
  | expire => exact ⟨ht, hs⟩
  | retry => exact hg.elim
  | begin => exact ⟨ht, hs⟩
  | giveUp =>
    refine ⟨ht.quiet rfl (by simp [Event.Silent, countRequest]) fun r' hr' => ?_, hs.log trivial⟩
    obtain ⟨r, hr, rfl⟩ := List.mem_map.mp hr'
    refine ⟨r, hr, ?_⟩
    split_ifs <;> exact ⟨rfl, rfl⟩
  | unlink => exact hg.elim

theorem Path.spares {given resolved : Nat → Prop} {a b : Store} (hp : Path Spares a b) (h : Tied a.router)
    (hs : Spent given resolved a.router.trace) : Tied b.router ∧ Spent given resolved b.router.trace :=
  hp.invariant (I := fun st => Tied st.router ∧ Spent given resolved st.router.trace)
    (fun _ _ _ hg hi hd => hd.spares hg hi) ⟨h, hs⟩

/-! ## A pass -/

/-- The requests that a visit leaves have been counted, and the one that it gives up has been sent six
times. -/
theorem Visit.counted {r : ArpReq} {s s' : Router} (hw : Store.Wf ⟨s, none⟩) (ht : Tied s)
    (hr : r ∈ s.reqList) (h : Visit r s s') :
    Tied s' ∧ (∀ given resolved : Nat → Prop, Spent given resolved s.trace → (5 ≤ r.retries → given 6) →
      Spent given resolved s'.trace) ∧
    (5 ≤ r.retries → ∃ pre, s'.trace = pre ++ [.dropped r.ip4] ∧ requestsSince r.ip4 pre = 6) := by
  cases h with
  | @drop s₁ h5 hp =>
    have hw₁ := (hw.does (.begin s r.node)).path hp
    have hspares := hp.mono InnerAct.spares
    have hany : Spent (fun _ => True) (fun _ => True) s.trace := by
      intro pre e post _
      unfold Event.Within
      split <;> trivial
    have ht₁ : Tied s₁ := (hspares.spares ht hany).1
    -- the request is still there when it is unlinked, with its counter at five
    obtain ⟨r₁, hr₁, -, hip, hret⟩ := innerPath_persists hp hr
    have hsix : requestsSince r.ip4 s₁.trace = 6 := by
      have hcount := ht₁ r₁ hr₁
      have hrange := hw.retries r hr
      rw [hip, hret] at hcount
      omega
    refine ⟨ht₁.quiet rfl (by simp [Event.Silent, countRequest]) fun r' hr' =>
      ⟨r', List.mem_of_mem_filter hr', rfl, rfl⟩, fun given resolved hs hg => ?_, fun _ => ⟨s₁.trace, rfl, hsix⟩⟩
    refine (hspares.spares ht hs).2.log ?_
    show given (requestsSince r.ip4 s₁.trace)
    rw [hsix]
    exact hg h5
  | repeated h5 htime =>
    refine ⟨?_, fun given resolved hs _ => hs.log trivial, fun h => absurd h (by omega)⟩
    intro r' hr'
    obtain ⟨r₀, hr₀, rfl⟩ := List.mem_map.mp hr'
    have hcount : ∀ ip4, requestsSince ip4 (s.trace ++ [.sent r.iface (arpFrame broadcastMac r.iface.mac
        arpopRequest r.iface.mac r.iface.ip zeroMac r.ip4) .arp]) =
          if r.ip4 = ip4 then requestsSince ip4 s.trace + 1 else requestsSince ip4 s.trace := by
      intro ip4
      rw [requestsSince_log]
      simp only [countRequest, isRequestFor_requestFrame]
    have htr : (arpSendRequest r.iface r.ip4 (s.time.2.updateReq r.node fun req =>
        { req with retries := req.retries + 1 })).trace = s.trace ++ [.sent r.iface (arpFrame broadcastMac
          r.iface.mac arpopRequest r.iface.mac r.iface.ip zeroMac r.ip4) .arp] := rfl
    have hold := ht r₀ hr₀
    rw [htr, hcount]
    by_cases hn : r₀.node = r.node
    · obtain rfl := hw.eq_of_node hr₀ hr hn
      simp only [if_true]
      omega
    · have hip : r.ip4 ≠ r₀.ip4 := fun he => hn (by
        rw [List.inj_on_of_nodup_map hw.ip4s hr₀ hr he.symm])
      rw [if_neg hn, if_neg hip]
      exact hold
  | early h5 htime => exact ⟨ht, fun given resolved hs _ => hs, fun h => absurd h (by omega)⟩

/-- A visit only adds to the history. -/
theorem Path.trace {G : Act → Store → Prop} {a b : Store} (h : Path G a b) :
    ∃ new, b.router.trace = a.router.trace ++ new := by
  refine h.invariant (I := fun st => ∃ new, st.router.trace = a.router.trace ++ new) ?_
    ⟨[], (List.append_nil _).symm⟩
  rintro act st st' - ⟨new, hnew⟩ hd
  obtain ⟨new', hnew'⟩ := hd.trace
  exact ⟨new ++ new', by rw [hnew', hnew, List.append_assoc]⟩

/-- A pass counts the requests that it sends, and gives requests up after six of them. -/
theorem arpcacheSweep_counted {given resolved : Nat → Prop} {fuel : Nat} {s s' : Router}
    (hw : Store.Wf ⟨s, none⟩) (ht : Tied s) (hs : Spent given resolved s.trace) (hg : given 6)
    (h : arpcacheSweep rtable fuel s = .ok s') : Tied s' ∧ Spent given resolved s'.trace := by
  have hloop := safeLoop_invariant
    (I := fun s => Store.Wf ⟨s, none⟩ ∧ Tied s ∧ Spent given resolved s.trace) (fun node t t' hi hb => by
      obtain ⟨r, hr, rfl, hv⟩ := sweepReq_visit hi.1 hb
      obtain ⟨ht', hs', -⟩ := hv.counted hi.1 hi.2.1 hr
      exact ⟨(sweepReq_advances hi.1 hb).1, ht', hs' _ _ hi.2.2 fun _ => hg⟩)
    (show Store.Wf ⟨sweepTable s, none⟩ ∧ Tied (sweepTable s) ∧ Spent given resolved (sweepTable s).trace from
      ⟨hw.does (.expire s), ht, hs⟩) h
  exact hloop.2

/-- A pass gives up every request that has been repeated five times. -/
theorem arpcacheSweep_drops {fuel : Nat} {s s' : Router} (hw : Store.Wf ⟨s, none⟩) (ht : Tied s) {r : ArpReq}
    (hr : r ∈ s.reqList) (h5 : 5 ≤ r.retries) (h : arpcacheSweep rtable fuel s = .ok s') :
    ∃ pre post ip4, s'.trace = pre ++ .dropped ip4 :: post ∧ requestsSince ip4 pre = 6 := by
  refine forEachSafe_visits (I := fun s => Store.Wf ⟨s, none⟩ ∧ Tied s)
    (B := fun s => ∃ r' ∈ s.reqList, r'.node = r.node ∧ 5 ≤ r'.retries)
    (A := fun s => ∃ pre post ip4, s.trace = pre ++ .dropped ip4 :: post ∧ requestsSince ip4 pre = 6)
    ?_ ?_ ?_ ?_ ⟨hw.does (.expire s), ht⟩ (List.mem_map_of_mem hr) ⟨r, hr, rfl, h5⟩ h
  · rintro node t t' ⟨hw, ht⟩ hb
    obtain ⟨r₀, hr₀, rfl, hv⟩ := sweepReq_visit hw hb
    obtain ⟨hw', hadv⟩ := sweepReq_advances hw hb
    exact ⟨⟨hw', (hv.counted hw ht hr₀).1⟩, hadv⟩
  · rintro node t t' ⟨hw, -⟩ hb hne ⟨r', hr', hn, h5'⟩
    obtain ⟨r₀, hr₀, rfl, hv⟩ := sweepReq_visit hw hb
    have hne' : r'.node ≠ r₀.node := fun he => hne (he.symm.trans hn)
    cases hv with
    | drop _ hp =>
      obtain ⟨r₁, hr₁, hn₁, -, hret₁⟩ := innerPath_persists hp hr'
      refine ⟨r₁, List.mem_filter.mpr ⟨hr₁, ?_⟩, hn₁.trans hn, by omega⟩
      simpa using hn₁ ▸ hne'
    | repeated => exact ⟨r', List.mem_map.mpr ⟨r', hr', if_neg hne'⟩, hn, h5'⟩
    | early => exact ⟨r', hr', hn, h5'⟩
  · rintro t t' ⟨hw, ht⟩ hb ⟨r', hr', hn, h5'⟩
    obtain ⟨r₀, hr₀, hn₀, hv⟩ := sweepReq_visit hw hb
    obtain rfl := hw.eq_of_node hr₀ hr' (hn₀.trans hn.symm)
    obtain ⟨pre, htr, hsix⟩ := (hv.counted hw ht hr₀).2.2 h5'
    exact ⟨pre, [], r₀.ip4, htr, hsix⟩
  · rintro node t t' ⟨hw, -⟩ hb ⟨pre, post, ip4, htr, hsix⟩
    obtain ⟨r₀, hr₀, rfl, hv⟩ := sweepReq_visit hw hb
    obtain ⟨new, hnew⟩ := (hv.path hw hr₀).trace
    refine ⟨pre, post ++ new, ip4, ?_, hsix⟩
    simp only at hnew
    rw [hnew, htr, List.append_assoc, List.cons_append]

/-- A pass that begins with no request to give up gives none up. -/
theorem arpcacheSweep_spares {given resolved : Nat → Prop} {fuel : Nat} {s s' : Router}
    (hw : Store.Wf ⟨s, none⟩) (hs : Spent given resolved s.trace) (h5 : ∀ r ∈ s.reqList, r.retries < 5)
    (h : arpcacheSweep rtable fuel s = .ok s') : Spent given resolved s'.trace := by
  have hnone : ∀ (reply : UInt32 → Option UInt32) (kept rest : List ArpReq),
      (∀ r ∈ rest, r.retries < 5) → teardowns reply [] kept rest = [] := by
    intro reply kept rest
    induction rest generalizing kept with
    | nil => intro _; rfl
    | cons r rest ih =>
      intro hlt
      have hr := hlt r List.mem_cons_self
      rw [teardowns, if_neg (by omega)]
      exact ih _ fun r hr => hlt r (List.mem_cons_of_mem _ hr)
  have hpath := (arpcacheSweep_path hw h).2
  rw [passTeardowns, hnone _ _ _ h5] at hpath
  refine hpath.invariant (I := fun st => Spent given resolved st.router.trace) ?_ hs
  intro act st st' hg hi hd
  cases hd with
  | env => exact hi
  | originate => exact hi.log trivial
  | arp => exact hi.log trivial
  | submit => obtain ⟨td, htd, -⟩ := hg; cases htd
  | learn => exact hg.elim
  | expire => exact hi
  | retry => exact hi
  | begin => exact hi
  | giveUp => exact hi.log trivial
  | unlink => obtain ⟨td, htd, -⟩ := hg; cases htd

/-! ## A frame -/

/-- A frame answers the requests for the address that it tells, if it is an ARP packet. -/
theorem handlePacket_counted {given resolved : Nat → Prop} {iface : Iface} {packet : Frame} {s s' : Router}
    (ht : Tied s) (hs : Spent given resolved s.trace)
    (hr : packet.readU16 etherType = .ok ethPArp → ∀ r ∈ s.reqList, packet.readU32 arpSpa = .ok r.ip4 →
      resolved (requestsSince r.ip4 s.trace))
    (h : handlePacket rtable iface packet s = .ok s') : Tied s' ∧ Spent given resolved s'.trace := by
  rcases handlePacket_cases h with rfl | ⟨-, out, dst, q, env, notes, -, hn, h⟩ | ⟨harp, h⟩
  · exact ⟨ht, hs⟩
  · have hpath : Path Spares ⟨{ s with env := env }, none⟩ ⟨s', none⟩ :=
      (Path.notes hn (fun _ _ _ => trivial) { s with env := env } none).trans
        (.single (.submit out dst q) trivial (.submit none h))
    exact hpath.spares ht hs
  · obtain ⟨ea, s₁, hea, h₁, rfl⟩ := handleArpPacket_cases h
    have hspa := (readEtherArp_ok.mp hea).2.2.1
    obtain ⟨-, rfl⟩ := arpcacheInsert_ok h₁
    have htrace : Spent given resolved (s.trace ++ (s.reqList.filter (·.ip4 = ea.spa)).flatMap
        (flushEvents ea.spa ea.sha)) := by
      refine hs.flush ea.spa ea.sha fun hne => ?_
      obtain ⟨r, hmem⟩ := List.exists_mem_of_ne_nil _ hne
      obtain ⟨hmem, hip⟩ := List.mem_filter.mp hmem
      have hip' : r.ip4 = ea.spa := by simpa using hip
      rw [← hip']
      exact hr harp r hmem (hip' ▸ hspa)
    have htied : Tied { s with
        table := (tableInsert s.env.before ea.spa ea.sha s.table s.env.clock).1
        env := { s.env with clock := (tableInsert s.env.before ea.spa ea.sha s.table s.env.clock).2 }
        reqList := s.reqList.filter (·.ip4 ≠ ea.spa)
        trace := s.trace ++ (s.reqList.filter (·.ip4 = ea.spa)).flatMap (flushEvents ea.spa ea.sha) } :=
      ht.quiet rfl flush_silent fun r hr => ⟨r, List.mem_of_mem_filter hr, rfl, rfl⟩
    split_ifs
    · rcases arpSendReply_cases iface ea _ with he | ⟨sha', he⟩
      · rw [he]
        exact ⟨htied, htrace⟩
      · rw [he]
        exact (Does.arp _ none iface _).spares (not_isRequestFor_reply _ _ _ _ _ _) ⟨htied, htrace⟩
    · exact ⟨htied, htrace⟩

/-- An ARP packet that tells the address of a request sends the packets that wait for it. -/
theorem handlePacket_resolves {iface : Iface} {packet : Frame} {s s' : Router} (hw : Store.Wf ⟨s, none⟩)
    (harp : packet.readU16 etherType = .ok ethPArp) {r : ArpReq} (hr : r ∈ s.reqList)
    (hspa : packet.readU32 arpSpa = .ok r.ip4) (h : handlePacket rtable iface packet s = .ok s') :
    ∃ pre out frame tag post, s'.trace = pre ++ .sent out frame (.flush tag r.ip4) :: post ∧
      requestsSince r.ip4 pre = requestsSince r.ip4 s.trace := by
  have h : handleArpPacket iface packet s = .ok s' := by
    simp only [handlePacket, harp, ok_bind] at h
    exact h
  obtain ⟨ea, s₁, hea, h₁, rfl⟩ := handleArpPacket_cases h
  have hip : r.ip4 = ea.spa := Except.ok.inj (hspa.symm.trans (readEtherArp_ok.mp hea).2.2.1)
  obtain ⟨-, rfl⟩ := arpcacheInsert_ok h₁
  obtain ⟨p, pkts, hp⟩ := List.exists_cons_of_ne_nil (hw.busy r hr (by simp))
  obtain ⟨A, B, hl⟩ := List.append_of_mem
    (List.mem_filter.mpr ⟨hr, by simpa using hip⟩ : r ∈ s.reqList.filter (·.ip4 = ea.spa))
  obtain ⟨rest, htrace⟩ : ∃ rest, s.trace ++ (s.reqList.filter (·.ip4 = ea.spa)).flatMap
      (flushEvents ea.spa ea.sha) = (s.trace ++ A.flatMap (flushEvents ea.spa ea.sha)) ++
        .sent r.iface (p.packet.splice etherDhost ea.sha.val) (.flush p.tag r.ip4) :: rest := by
    rw [hl, List.flatMap_append, List.flatMap_cons, flushEvents, hp, hip, List.map_cons, List.cons_append,
      ← List.append_assoc]
    exact ⟨_, rfl⟩
  have hsilent : ∀ e ∈ A.flatMap (flushEvents ea.spa ea.sha), e.Silent := flush_silent
  have hcount := requestsSince_append hsilent r.ip4 s.trace
  -- a reply may follow
  have hext : ∀ t : Router, ∃ extra,
      (if ea.op = arpopRequest then arpSendReply iface ea t else t).trace = t.trace ++ extra := by
    intro t
    split_ifs
    · rcases arpSendReply_cases iface ea t with he | ⟨sha', he⟩
      · exact ⟨[], by rw [he, List.append_nil]⟩
      · exact ⟨_, by rw [he]; rfl⟩
    · exact ⟨[], (List.append_nil _).symm⟩
  obtain ⟨extra, hx⟩ := hext _
  refine ⟨s.trace ++ A.flatMap (flushEvents ea.spa ea.sha), r.iface, p.packet.splice etherDhost ea.sha.val,
    p.tag, rest ++ extra, ?_, hcount⟩
  rw [hx]
  simp only
  rw [htrace, List.append_assoc, List.cons_append]

/-! ## Runs -/

/-- A step counts the ARP requests that it sends. -/
theorem Step.counted {i : Input} {s s' : Router} (hw : Store.Wf ⟨s, none⟩) (ht : Tied s)
    (hs : Spent (· = 6) (· ≤ 6) s.trace) (h : Step rtable i s s') : Tied s' ∧ Spent (· = 6) (· ≤ 6) s'.trace := by
  cases h with
  | @frame iface packet env _ _ h =>
    refine handlePacket_counted (s := { s with env := env }) ht hs (fun _ r hr _ => ?_) h
    have hcount := ht r hr
    have hrange := hw.retries r hr
    show requestsSince r.ip4 s.trace ≤ 6
    omega
  | @sweep fuel env _ _ h => exact arpcacheSweep_counted (hw.does (.env s none env)) ht hs rfl h

/-- **Every request that is given up was sent six times**: once when it was created and five times by the
sweep, and no request that is answered was sent more often. -/
theorem requestsSince_spent {s : Router} (h : Reachable rtable s) : Tied s ∧ Spent (· = 6) (· ≤ 6) s.trace := by
  refine Runs.RunOf.invariant (I := fun s => Tied s ∧ Spent (· = 6) (· ≤ 6) s.trace) ?_ ?_ h
  · rintro s ⟨env, rfl⟩
    refine ⟨by simp [Tied, arpcacheInit], fun pre e post heq => ?_⟩
    simp [arpcacheInit] at heq
  · exact fun i s s' hs _ hi h => h.counted (RunOf.wf hs) hi.1 hi.2

/-- A step within the budget. -/
theorem Step.inBudget {i : Input} {s s' : Router} (hw : Store.Wf ⟨s, none⟩) (ht : Tied s)
    (hb : Budget s.trace) (hc : InBudget i s) (h : Step rtable i s s') : Budget s'.trace := by
  cases h with
  | @frame iface packet env _ _ h =>
    refine (handlePacket_counted (s := { s with env := env }) ht hb (fun harp r hr hspa => ?_) h).2
    have hcount := ht r hr
    have hlt := hc harp r hr hspa
    show requestsSince r.ip4 s.trace ≤ 5
    omega
  | @sweep fuel env _ _ h => exact arpcacheSweep_spares (hw.does (.env s none env)) hb hc h

/-- A step that exceeds it. -/
theorem Step.not_inBudget {i : Input} {s s' : Router} (hw : Store.Wf ⟨s, none⟩) (ht : Tied s)
    (hc : ¬ InBudget i s) (h : Step rtable i s s') : ¬ Budget s'.trace := by
  intro hb
  cases h with
  | @frame iface packet env _ _ h =>
    simp only [InBudget] at hc
    push Not at hc
    obtain ⟨harp, r, hr, hspa, h5⟩ := hc
    obtain ⟨pre, out, frame, tag, post, htr, hcount⟩ :=
      handlePacket_resolves (hw.does (.env s none env)) harp hr hspa h
    have hle : requestsSince r.ip4 pre ≤ 5 := hb pre _ post htr
    have hsix := ht r hr
    rw [hcount] at hle
    simp only at hle
    omega
  | @sweep fuel env _ _ h =>
    simp only [InBudget] at hc
    push Not at hc
    obtain ⟨r, hr, h5⟩ := hc
    obtain ⟨pre, post, ip4, htr, hsix⟩ := arpcacheSweep_drops (hw.does (.env s none env)) ht hr h5 h
    have hfive : requestsSince ip4 pre = 5 := hb pre _ post htr
    omega

/-- **The budget of five.** A run whose steps end no request that has been repeated five times keeps the
budget, and a step that ends one breaks it. -/
theorem arpRequest_budget :
    (∀ s, RunOf rtable InBudget s → Budget s.trace) ∧
    ∀ i s s', Reachable rtable s → Step rtable i s s' → ¬ InBudget i s → ¬ Budget s'.trace := by
  constructor
  · intro s h
    refine (Runs.RunOf.invariant (I := fun s => Tied s ∧ Spent (· = 6) (· ≤ 6) s.trace ∧ Budget s.trace)
      ?_ ?_ h).2.2
    · rintro s ⟨env, rfl⟩
      refine ⟨by simp [Tied, arpcacheInit], fun pre e post heq => ?_, fun pre e post heq => ?_⟩ <;>
        simp [arpcacheInit] at heq
    · rintro i s s' hs hc ⟨ht, hspent, hb⟩ h
      obtain ⟨ht', hspent'⟩ := h.counted (RunOf.wf hs) ht hspent
      exact ⟨ht', hspent', h.inBudget (RunOf.wf hs) ht hb hc⟩
  · intro i s s' hs h hc
    exact h.not_inBudget (RunOf.wf hs) (requestsSince_spent hs).1 hc

/-- A request that is answered after two repeats. -/
theorem arpRequest_budget_answered :
    ∃ s : Router, s.reqList = [] ∧ requestsSince 0x0a000202 s.trace = 3 ∧ Budget s.trace := by
  obtain ⟨s, hs, hp⟩ := RunOf.of_replay Sample.connected InBudget 8
    [.frame Sample.eth0 (Sample.udp 0x0a000102 0x0a000202 64) (Sample.clockAt 0), .sweep (Sample.clockAt 1),
      .sweep (Sample.clockAt 2),
      .frame Sample.eth1 (Sample.arpReply 0x0a000202 (Sample.station 9)) (Sample.clockAt 3)] (Sample.clockAt 0)
    (fun s => s.reqList = [] ∧ requestsSince 0x0a000202 s.trace = 3) (by decide +kernel)
  exact ⟨s, hp.1, hp.2, arpRequest_budget.1 s hs⟩

/-- One packet for a station that never answers: the request is sent six times before it is given up. -/
theorem arpRequest_sentSixTimes : ∃ s, Reachable Sample.connected s ∧ ¬ Budget s.trace ∧
    ∃ pre, s.trace = pre ++ [.dropped 0x0a000202] ∧ requestsSince 0x0a000202 pre = 6 := by
  obtain ⟨s, hs, hlast, hsix⟩ := RunOf.of_replay Sample.connected (fun _ _ => True) 8
    ([.frame Sample.eth0 (Sample.udp 0x0a000102 0x0a000202 64) (Sample.clockAt 0)] ++ Sample.retries ++
      [.sweep (Sample.clockAt 6)]) (Sample.clockAt 0)
    (fun s => s.trace.getLast? = some (.dropped 0x0a000202) ∧
      requestsSince 0x0a000202 s.trace.dropLast = 6) (by decide +kernel)
  have htrace : s.trace = s.trace.dropLast ++ [.dropped 0x0a000202] :=
    (List.dropLast_append_getLast? _ hlast).symm
  refine ⟨s, hs, fun hb => ?_, s.trace.dropLast, htrace, hsix⟩
  have hfive : requestsSince 0x0a000202 s.trace.dropLast = 5 := hb _ _ [] htrace
  omega

end StaticRouter
