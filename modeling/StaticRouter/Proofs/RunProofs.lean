import StaticRouter.Proofs.SweepProofs
import StaticRouter.Replay

/-!
# Proofs: what holds in every run

A step of a run is a path of actions, so what the actions keep holds in every state reached.
-/

namespace StaticRouter

open CMem

variable {rtable : List RtEntry} {C : Input → Router → Prop}

/-- A step makes the actions of `StepAct`. -/
theorem Step.path {i : Input} {s s' : Router} (hw : Store.Wf ⟨s, none⟩) (h : Step rtable i s s') :
    Path (StepAct rtable s i) ⟨s, none⟩ ⟨s', none⟩ := by
  cases h with
  | @frame iface packet env _ _ h =>
    exact (Path.single .env trivial (.env s none env)).trans (handlePacket_path h)
  | @sweep fuel env _ _ h =>
    have henv := Does.env s none env
    exact (Path.single .env trivial henv).trans (arpcacheSweep_path (hw.does henv) h).2

/-- A step learns the mapping that it is told. When it is told none, none of its actions learns any. -/
theorem Step.learns {i : Input} {s s' : Router} (hw : Store.Wf ⟨s, none⟩) (h : Step rtable i s s') :
    (told i = none ∧ Path (fun act _ => ∀ ip4 mac, act ≠ .learn ip4 mac) ⟨s, none⟩ ⟨s', none⟩) ∨
      ∃ iface packet env ip4 mac s₁, i = .frame iface packet env ∧ told i = some (ip4, mac) ∧
        arpcacheInsert ip4 mac { s with env := env } = .ok s₁ ∧
        (s' = s₁ ∨ ∃ frame, s' = ifaceSendPacket iface frame .arp s₁) := by
  have hpath := h.path hw
  cases h with
  | sweep =>
    refine Or.inl ⟨rfl, hpath.mono fun act st hg ip4 mac he => ?_⟩
    rw [he] at hg
    exact hg
  | @frame iface packet env _ _ h =>
    by_cases harp : packet.readU16 etherType = .ok ethPArp
    · have hne : ¬ ethPArp = ethPIp := by decide
      rw [handlePacket, harp, ok_bind, if_neg hne, if_pos rfl] at h
      obtain ⟨ea, s₁, hea, h₁, rfl⟩ := handleArpPacket_cases h
      refine Or.inr ⟨iface, packet, env, ea.spa, ea.sha, s₁, rfl, told_arp harp hea, h₁, ?_⟩
      split_ifs
      · rcases arpSendReply_cases iface ea s₁ with he | ⟨sha, he⟩
        · exact Or.inl he
        · exact Or.inr ⟨_, he⟩
      · exact Or.inl rfl
    · refine Or.inl ⟨if_neg harp, hpath.mono fun act st hg ip4 mac he => ?_⟩
      rw [he] at hg
      exact harp hg.1

/-- The joint invariant of the table and the request list holds in every run. -/
theorem RunOf.wf {s : Router} (h : RunOf rtable C s) : Store.Wf ⟨s, none⟩ := by
  refine Runs.RunOf.invariant (I := fun s => Store.Wf ⟨s, none⟩) ?_ ?_ h
  · rintro s ⟨env, rfl⟩
    exact Store.Wf.init env
  · exact fun i s s' _ _ hw h => hw.path (h.path hw)

/-- The rule for runs: an invariant of the actions that the steps of the run are made of. -/
theorem RunOf.invariant {I : Store → Prop} {G : Act → Store → Prop}
    (hinit : ∀ env, I ⟨arpcacheInit env, none⟩)
    (hG : ∀ i s, C i s → Store.Wf ⟨s, none⟩ → ∀ act st, StepAct rtable s i act st → G act st)
    (hI : ∀ act st st', st.Wf → G act st → I st → Does act st st' → I st') {s : Router}
    (h : RunOf rtable C s) : I ⟨s, none⟩ := by
  refine Runs.RunOf.invariant (I := fun s => I ⟨s, none⟩) ?_ ?_ h
  · rintro s ⟨env, rfl⟩
    exact hinit env
  · intro i s s' hs hc hi h
    have hw : Store.Wf ⟨s, none⟩ := RunOf.wf hs
    have hboth := ((h.path hw).mono (hG i s hc hw)).invariant (I := fun st => st.Wf ∧ I st)
      (fun act st st' hg hi hd => ⟨hi.1.does hd, hI act st st' hi.1 hg hi.2 hd⟩) ⟨hw, hi⟩
    exact hboth.2

/-- **The joint invariant of the ARP store.** In every reachable state no request is for an address that
the cache knows, no two requests are for one address, every request has a packet that waits for it, and
no retry counter leaves its range. -/
theorem arpStore_invariant {s : Router} (h : Reachable rtable s) :
    (∀ r ∈ s.reqList, arpcacheLookup s.table r.ip4 = none) ∧ (s.reqList.map (·.ip4)).Nodup ∧
      (∀ r ∈ s.reqList, r.cachedPackets ≠ []) ∧ ∀ r ∈ s.reqList, 0 ≤ r.retries ∧ r.retries ≤ 5 :=
  have hw := h.wf
  ⟨hw.cold, hw.ip4s, fun r hr => hw.busy r hr (by simp), hw.retries⟩

/-- After two packets for one unknown station and one repeat there is one request. -/
theorem arpStore_invariant_waiting :
    ∃ s : Router, s.reqList.map (fun r => (r.ip4, r.retries, r.cachedPackets.length)) =
        [(0x0a000202, 1, 2)] ∧
      (∀ r ∈ s.reqList, arpcacheLookup s.table r.ip4 = none) ∧ (s.reqList.map (·.ip4)).Nodup ∧
      (∀ r ∈ s.reqList, r.cachedPackets ≠ []) ∧ ∀ r ∈ s.reqList, 0 ≤ r.retries ∧ r.retries ≤ 5 := by
  obtain ⟨s, hs, hp⟩ := RunOf.of_replay Sample.connected (fun _ _ => True) 8
    [.frame Sample.eth0 (Sample.udp 0x0a000102 0x0a000202 64) (Sample.clockAt 0),
      .frame Sample.eth0 (Sample.udp 0x0a000102 0x0a000202 64) (Sample.clockAt 0),
      .sweep (Sample.clockAt 1)] (Sample.clockAt 0)
    (fun s => s.reqList.map (fun r => (r.ip4, r.retries, r.cachedPackets.length)) =
      [(0x0a000202, 1, 2)]) (by decide +kernel)
  exact ⟨s, hp, arpStore_invariant hs⟩

end StaticRouter
