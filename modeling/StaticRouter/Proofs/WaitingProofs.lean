import StaticRouter.Waiting
import StaticRouter.Proofs.VisitProofs

/-!
# Proofs: how long a request waits

A pass repeats every request that was sent a second ago and has not been repeated five times, and gives
the others of these up. So a request outlives six passes at most.
-/

namespace StaticRouter

open CMem

variable {rtable : List RtEntry} {t : Int}

/-! ## The clock during a pass -/

theorem expireLoop_readsFrom {es : List ArpCacheEntry} {c : Clock} (h : ∀ n, t ≤ c n) (n : Nat) :
    t ≤ (expireLoop es c).2 n := by
  induction es generalizing c with
  | nil => exact h n
  | cons e es ih => exact ih fun n => h (n + 1)

theorem Env.ReadsFrom.submit {iface : Iface} {dst : UInt32} {packet : Frame} {s s' : Router}
    (hc : s.env.ReadsFrom t) (h : ifaceSendPacketByArp iface dst packet s = .ok s') : s'.env.ReadsFrom t := by
  obtain ⟨q, -, ⟨mac, frame, -, -, rfl⟩ | ⟨-, -, rfl⟩ | ⟨-, -, rfl⟩⟩ := ifaceSendPacketByArp_cases h
  · exact hc
  · exact hc
  · exact fun n => hc (n + 1)

theorem Env.ReadsFrom.sweepPacket {node tag : Nat} {s s' : Router} (hc : s.env.ReadsFrom t)
    (h : sweepPacket rtable node tag s = .ok s') : s'.env.ReadsFrom t := by
  obtain ⟨-, -, -, pkt, -, -, -, s₁, h₁, rfl⟩ := sweepPacket_cases h
  rcases icmpSendPacket_cases (Or.inr (Or.inl rfl)) h₁ with ⟨-, rfl⟩ | ⟨rt, q, -, -, h₁⟩
  · exact hc
  · have hdrawn : (s.drawn.log (.originated 3 1 (sourceOf pkt.packet))).env.ReadsFrom t := hc
    have hs₁ : s₁.env.ReadsFrom t := hdrawn.submit h₁
    exact hs₁

theorem Env.ReadsFrom.sweepReq {fuel node : Nat} {s s' : Router} (hc : s.env.ReadsFrom t)
    (h : sweepReq rtable fuel node s = .ok s') : s'.env.ReadsFrom t := by
  obtain ⟨r, -, -, ⟨-, s₁, h₁, rfl⟩ | ⟨-, -, rfl⟩ | ⟨-, -, rfl⟩⟩ := sweepReq_cases h
  · have hc₁ : s₁.env.ReadsFrom t :=
      safeLoop_invariant (fun p s s' hc hb => Env.ReadsFrom.sweepPacket hc hb) hc h₁
    exact hc₁
  · exact fun n => hc (n + 1)
  · exact fun n => hc (n + 1)

/-! ## One pass -/

/-- A request that is still on the list after its visit has been repeated, if all readings of the clock are
a second after it was sent. -/
theorem Visit.repeats {r r' : ArpReq} {s s' : Router} (hw : Store.Wf ⟨s, none⟩) (hc : s.env.ReadsFrom t)
    (hr : r ∈ s.reqList) (h : Visit r s s') (hr' : r' ∈ s'.reqList) (hn : r'.node = r.node) :
    r.retries < 5 ∧ (r.sent + 1 ≤ t → r.retries + 1 ≤ r'.retries) := by
  cases h with
  | drop h5 hp =>
    have hne := (List.mem_filter.mp hr').2
    exact absurd hn (by simpa using hne)
  | repeated h5 ht =>
    obtain ⟨r₀, hr₀, rfl⟩ := List.mem_map.mp hr'
    have hn₀ : r₀.node = r.node := by
      split_ifs at hn <;> exact hn
    obtain rfl := hw.eq_of_node hr₀ hr hn₀
    rw [if_pos rfl]
    exact ⟨h5, fun _ => Int.le_refl _⟩
  | early h5 ht =>
    refine ⟨h5, fun hsent => ?_⟩
    have hnow : t ≤ s.time.1 := hc 0
    omega

/-- A request that outlives a pass has been repeated less than five times, and once more in the pass, if all
readings of the clock are a second after it was sent. -/
theorem arpcacheSweep_repeats {fuel : Nat} {s s' : Router} (hw : Store.Wf ⟨s, none⟩)
    (hc : s.env.ReadsFrom t) {r r' : ArpReq} (hr : r ∈ s.reqList)
    (h : arpcacheSweep rtable fuel s = .ok s') (hr' : r' ∈ s'.reqList) (hn : r'.node = r.node) :
    r.retries < 5 ∧ (r.sent + 1 ≤ t → r.retries + 1 ≤ r'.retries) := by
  have hafter := forEachSafe_visits
    (I := fun s => Store.Wf ⟨s, none⟩ ∧ s.env.ReadsFrom t ∧ r.node < s.next)
    (B := fun s => ∀ r' ∈ s.reqList, r'.node = r.node → r'.sent = r.sent ∧ r.retries ≤ r'.retries)
    (A := fun s => ∀ r' ∈ s.reqList, r'.node = r.node →
      r.retries < 5 ∧ (r.sent + 1 ≤ t → r.retries + 1 ≤ r'.retries))
    ?_ ?_ ?_ ?_ ⟨hw.does (.expire s), fun n => expireLoop_readsFrom hc n, hw.old r hr⟩
    (List.mem_map_of_mem hr) ?_ h
  · exact hafter r' hr' hn
  · rintro q u u' ⟨hw, hc, hlt⟩ hb
    obtain ⟨r₀, hr₀, rfl, hv⟩ := sweepReq_visit hw hb
    obtain ⟨hw', hadv⟩ := sweepReq_advances hw hb
    exact ⟨⟨hw', hc.sweepReq hb, Nat.lt_of_lt_of_le hlt (hv.path hw hr₀).kept.1⟩, hadv⟩
  · rintro q u u' ⟨hw, hc, hlt⟩ hb - hB r' hr' hn
    obtain ⟨r₀, hr₀, rfl, hv⟩ := sweepReq_visit hw hb
    rcases (hv.path hw hr₀).kept.2 r' hr' with hnew | ⟨r₁, hr₁, h₁, -, h₃, h₄⟩
    · exact absurd hlt (Nat.not_lt.mpr (hn ▸ hnew))
    · obtain ⟨hsent, hret⟩ := hB r₁ hr₁ (h₁.trans hn)
      exact ⟨h₃.symm.trans hsent, Int.le_trans hret h₄⟩
  · rintro u u' ⟨hw, hc, hlt⟩ hb hB r' hr' hn
    obtain ⟨r₀, hr₀, hn₀, hv⟩ := sweepReq_visit hw hb
    obtain ⟨hsent, hret⟩ := hB r₀ hr₀ hn₀
    obtain ⟨h5, hrep⟩ := hv.repeats hw hc hr₀ hr' (hn.trans hn₀.symm)
    refine ⟨by omega, fun hle => ?_⟩
    have := hrep (by omega)
    omega
  · rintro q u u' ⟨hw, hc, hlt⟩ hb hA r' hr' hn
    obtain ⟨r₀, hr₀, rfl, hv⟩ := sweepReq_visit hw hb
    rcases (hv.path hw hr₀).kept.2 r' hr' with hnew | ⟨r₁, hr₁, h₁, -, h₃, h₄⟩
    · exact absurd hlt (Nat.not_lt.mpr (hn ▸ hnew))
    · obtain ⟨h5, hrep⟩ := hA r₁ hr₁ (h₁.trans hn)
      exact ⟨h5, fun hle => Int.le_trans (hrep hle) h₄⟩
  · intro r' hr' hn
    rw [hw.eq_of_node hr' hr hn]
    exact ⟨rfl, Int.le_refl _⟩

/-! ## Runs -/

theorem passes_append (is js : List Input) : passes (is ++ js) = passes is ++ passes js :=
  List.filterMap_append

/-- What is left of the request `r` after the inputs `is`: it has outlived six passes at most, and the first
of them alone may have found it too young to repeat. -/
structure Outlives (r : ArpReq) (is : List Input) (r' : ArpReq) : Prop where
  sent : r'.sent = r.sent
  atMost : (passes is).length ≤ 6
  repeated : ((passes is).length : Int) ≤ r'.retries + 1
  older : ∀ env ∈ (passes is).getLast?, r.sent ≤ env.clock 0

/-- One more pass. -/
theorem Outlives.sweep {r r₁ r' : ArpReq} {is : List Input} {env : Env} (h : Outlives r is r₁)
    (hchain : (passes (is ++ [.sweep env])).IsChain SecondLater) (hsent : env.ReadsFrom r₁.sent)
    (hrange : 0 ≤ r₁.retries) (hkept : r'.sent = r₁.sent ∧ r₁.retries ≤ r'.retries) (h5 : r₁.retries < 5)
    (hrep : ∀ t, env.ReadsFrom t → r₁.sent + 1 ≤ t → r₁.retries + 1 ≤ r'.retries) :
    Outlives r (is ++ [.sweep env]) r' := by
  have hpasses : passes (is ++ [.sweep env]) = passes is ++ [env] := passes_append is [.sweep env]
  obtain ⟨hs₁, -, hret, hold⟩ := h
  rw [hpasses] at hchain
  refine ⟨hkept.1.trans hs₁, ?_, ?_, ?_⟩
  · rw [hpasses, List.length_append, List.length_singleton]
    omega
  · rw [hpasses, List.length_append, List.length_singleton]
    cases hlast : (passes is).getLast? with
    | none =>
      rw [List.getLast?_eq_none_iff.mp hlast, List.length_nil]
      omega
    | some env₀ =>
      -- the readings of this pass are a second after the last one, which was not before the request
      have hlater : SecondLater env₀ env :=
        (List.isChain_append.mp hchain).2.2 env₀ hlast env rfl
      have hless := hold env₀ hlast
      have hmore := hrep _ hlater (by omega)
      omega
  · intro env' he
    rw [hpasses, List.getLast?_concat, Option.mem_some_iff] at he
    subst he
    have hfirst := hsent 0
    omega

theorem Steps.outlives {is : List Input} {s s' : Router} (hs : Reachable rtable s)
    (h : Runs.Steps (Step rtable) AfterSent is s s') (hchain : (passes is).IsChain SecondLater) {r : ArpReq}
    (hr : r ∈ s.reqList) :
    Reachable rtable s' ∧ r.node < s'.next ∧ ∀ r' ∈ s'.reqList, r'.node = r.node → Outlives r is r' := by
  have hw : Store.Wf ⟨s, none⟩ := hs.wf
  induction h with
  | refl =>
    refine ⟨hs, hw.old r hr, fun r' hr' hn => ?_⟩
    rw [hw.eq_of_node hr' hr hn]
    refine ⟨rfl, by simp [passes], ?_, by simp [passes]⟩
    have hrange := (hw.retries r hr).1
    simp only [passes, List.filterMap_nil, List.length_nil]
    omega
  | @step is i s s₁ s₂ _ hc hstep ih =>
    have hchain₁ : (passes is).IsChain SecondLater := by
      rw [passes_append] at hchain
      exact (List.isChain_append.mp hchain).1
    obtain ⟨hs₁, hlt, hall⟩ := ih hs hchain₁ hr hw
    have hw₁ : Store.Wf ⟨s₁, none⟩ := hs₁.wf
    have hkept := (hstep.path hw₁).kept
    refine ⟨.step hs₁ trivial hstep, Nat.lt_of_lt_of_le hlt hkept.1, fun r' hr' hn => ?_⟩
    rcases hkept.2 r' hr' with hnew | ⟨r₁, hr₁, hn₁, -, hsent, hret⟩
    · exact absurd hlt (Nat.not_lt.mpr (hn ▸ hnew))
    · have hout := hall r₁ hr₁ (hn₁.trans hn)
      cases hstep with
      | @frame iface packet env _ _ hf =>
        have hsame : passes (is ++ [.frame iface packet env]) = passes is := by
          rw [passes_append, show passes [.frame iface packet env] = [] from rfl, List.append_nil]
        exact ⟨hsent.symm.trans hout.sent, hsame ▸ hout.atMost,
          hsame ▸ Int.le_trans hout.repeated (by omega), hsame ▸ hout.older⟩
      | @sweep fuel env _ _ hf =>
        have henv := hw₁.does (.env s₁ none env)
        refine hout.sweep hchain (hc r₁ hr₁) (hw₁.retries r₁ hr₁).1 ⟨hsent.symm, hret⟩ ?_ fun t ht => ?_
        · exact (arpcacheSweep_repeats henv (hc r₁ hr₁) hr₁ hf hr' hn₁.symm).1
        · exact (arpcacheSweep_repeats henv ht hr₁ hf hr' hn₁.symm).2

/-- **Bounded waiting.** In a run whose passes read the clock a second apart, and not before the times of the
requests on the list, every request is off the list at the end of the seventh pass after its creation. -/
theorem arpReq_boundedWaiting {is : List Input} {s s' : Router} (hs : Reachable rtable s)
    (h : Runs.Steps (Step rtable) AfterSent is s s') (hchain : (passes is).IsChain SecondLater)
    (h7 : 7 ≤ (passes is).length) {r : ArpReq} (hr : r ∈ s.reqList) :
    ∀ r' ∈ s'.reqList, r'.node ≠ r.node := by
  intro r' hr' hn
  have hout := (Steps.outlives hs h hchain hr).2.2 r' hr' hn
  have hle := hout.atMost
  omega

/-- Seven passes, a second apart, after the time 0; the first one makes no repeat. -/
def Sample.sevenPasses : List Input := (List.range 7).map fun t : Nat => .sweep (Sample.clockAt t)

/-- The request for a station that never answers. -/
theorem arpReq_boundedWaiting_unanswered :
    ∃ s s' : Router, s.reqList.map (fun r => (r.node, r.ip4)) = [(0, 0x0a000202)] ∧
      s'.reqList.length = 1 ∧ ∀ r' ∈ s'.reqList, r'.node ≠ 0 := by
  obtain ⟨s, hs, hreq, hrun⟩ := RunOf.of_replay Sample.connected (fun _ _ => True) 8
    [.frame Sample.eth0 (Sample.udp 0x0a000102 0x0a000202 64) (Sample.clockAt 0)] (Sample.clockAt 0)
    (fun s => s.reqList.map (fun r => (r.node, r.ip4)) = [(0, 0x0a000202)] ∧
      (Runs.replay (fun i s => ∀ env ∈ passes [i], ∀ r ∈ s.reqList, r.sent ≤ env.clock 0)
        (exec Sample.connected 8) Sample.sevenPasses s).any (fun s' => s'.reqList.length = 1) = true)
    (by decide +kernel)
  obtain ⟨s', hs', hone⟩ := Runs.Steps.of_replay Step.of_exec hrun
  have hsteps : Runs.Steps (Step Sample.connected) AfterSent Sample.sevenPasses s s' := by
    refine hs'.mono fun i hi s hc => ?_
    obtain ⟨t, -, rfl⟩ := List.mem_map.mp hi
    exact fun r hr n => hc (Sample.clockAt t) (by simp [passes]) r hr
  have hchain : (passes Sample.sevenPasses).IsChain SecondLater := by
    have hlist : passes Sample.sevenPasses = [0, 1, 2, 3, 4, 5, 6].map Sample.clockAt := rfl
    rw [hlist]
    simp only [List.map_cons, List.map_nil, List.isChain_cons_cons, List.isChain_singleton, and_true]
    refine ⟨?_, ?_, ?_, ?_, ?_, ?_⟩ <;> exact fun n => by simp [Sample.clockAt]
  obtain ⟨r, hr, hn⟩ : ∃ r ∈ s.reqList, r.node = 0 := by
    obtain ⟨r, hr, he⟩ := List.mem_map.mp (hreq ▸ List.mem_singleton_self (0, (0x0a000202 : UInt32)) :
      (0, 0x0a000202) ∈ s.reqList.map fun r => (r.node, r.ip4))
    exact ⟨r, hr, congrArg Prod.fst he⟩
  refine ⟨s, s', hreq, hone, ?_⟩
  rw [← hn]
  exact arpReq_boundedWaiting hs hsteps hchain (by decide) hr

end StaticRouter
