import StaticRouter.Proofs.DatagramProofs
import StaticRouter.Proofs.MessageProofs
import StaticRouter.Proofs.ParsingProofs
import StaticRouter.Relay

/-!
# Proofs: forwarding through a network

Every frame that is sent, and every packet that waits, is the submitted one but for the Ethernet header,
so it has the time to live that `ip_forward_packet` left it.
-/

namespace StaticRouter

open CMem

variable {rtable : List RtEntry}

/-! ## One router -/

/-- What is carried under a number is the packet that was submitted under it. -/
theorem RunOf.carries {s : Router} (h : Reachable rtable s) {n : Nat} {g : Frame} (hc : Carries s n g)
    {iface : Iface} {d : UInt32} {q : Frame} (hq : (n, iface, d, q) ∈ submissions s.trace) :
    SameDatagram q g := by
  have hrec := RunOf.recorded h
  rcases hc with ⟨out, o, hs, ho⟩ | ⟨r, hr, p, hp, rfl, rfl⟩
  · obtain ⟨iface', d', q', hq', hsame⟩ := RunOf.sent_sameDatagram h hs ho
    obtain ⟨-, -, rfl⟩ := hrec.eq_of_tag hq hq'
    exact hsame
  · obtain ⟨iface', q', hq', hf⟩ := hrec.waiting r hr p hp
    obtain ⟨-, -, rfl⟩ := hrec.eq_of_tag hq hq'
    exact hf.sameDatagram

section Receive

variable {iface : Iface} {packet : Frame} {s s' : Router}

/-- An ARP packet submits nothing. -/
theorem handleArpPacket_submitted (h : handleArpPacket iface packet s = .ok s') :
    submittedSince s s' = [] := by
  obtain ⟨ea, s₁, -, h₁, rfl⟩ := handleArpPacket_cases h
  obtain ⟨es, he, hes⟩ : ∃ es, s₁.trace = s.trace ++ es ∧ submissions es = [] := by
    obtain ⟨-, rfl⟩ := arpcacheInsert_ok h₁
    exact ⟨_, rfl, submissions_flush _ _ _⟩
  obtain ⟨es', he', hes'⟩ : ∃ es', (if ea.op = arpopRequest then arpSendReply iface ea s₁ else s₁).trace =
      s₁.trace ++ es' ∧ submissions es' = [] := by
    split_ifs
    · rcases arpSendReply_cases iface ea s₁ with hno | ⟨sha, hsend⟩
      · exact ⟨[], by rw [hno, List.append_nil], rfl⟩
      · exact ⟨_, by rw [hsend, ifaceSendPacket, Router.log], rfl⟩
    · exact ⟨[], (List.append_nil _).symm, rfl⟩
  rw [submittedSince, he', he, List.append_assoc, List.drop_left, submissions_append, hes, hes']
  rfl

/-- A frame is forwarded if it is an IPv4 packet that is not answered. -/
theorem forwardedSince_eq (h : handlePacket rtable iface packet s = .ok s') :
    forwardedSince s s' =
      if packet.readU16 etherType = .ok ethPIp ∧ answerType rtable iface packet = none then some s.next
      else none := by
  by_cases hip : packet.readU16 etherType = .ok ethPIp
  · rw [handlePacket_ip hip] at h
    rcases handleIpPacket_cases h with ⟨type, ha, hreason, h⟩ | ⟨rt, q, ha, -, -, -, h⟩
    · rw [if_neg (by rw [ha]; simp)]
      rcases icmpSendPacket_cases hreason.ownType h with ⟨-, rfl⟩ | ⟨rt, q, -, -, h⟩
      · simp [forwardedSince, submittedSince, submissions]
      · rw [forwardedSince, (submittedSince_of_built h).2, if_neg (by simp)]
    · obtain ⟨hsub, hor⟩ := submittedSince_of_submitted h
      rw [if_pos ⟨hip, ha⟩, forwardedSince, if_pos hor, hsub]
      rfl
  · rw [if_neg fun hboth => hip hboth.1]
    have hnone : submittedSince s s' = [] := by
      rcases handlePacket_cases h with rfl | ⟨hip', -⟩ | ⟨-, h⟩
      · simp [submittedSince, submissions]
      · exact absurd hip' hip
      · exact handleArpPacket_submitted h
    rw [forwardedSince, hnone]
    split_ifs <;> rfl

/-- A packet that is forwarded has one hop less to live. -/
theorem forwarded_ttl (h : handlePacket rtable iface packet s = .ok s') {n : Nat}
    (hn : forwardedSince s s' = some n) :
    2 ≤ (ttlOf packet).toNat ∧ ∃ out d q, (n, out, d, q) ∈ submissions s'.trace ∧
      (ttlOf q).toNat + 1 = (ttlOf packet).toNat := by
  rw [forwardedSince_eq h] at hn
  split_ifs at hn with hfwd
  obtain ⟨hip, hnone⟩ := hfwd
  obtain rfl : s.next = n := Option.some.inj hn
  rw [handlePacket_ip hip] at h
  rcases handleIpPacket_cases h with ⟨type, ha, -⟩ | ⟨rt, q, ha, -, -, hq, h⟩
  · rw [ha] at hnone
    cases hnone
  · obtain ⟨-, h2, -⟩ := answerType_eq_none.mp ha
    obtain ⟨es, he, hsub, -⟩ := ifaceSendPacketByArp_trace h
    have hmem : (s.next, rt.iface, if rt.gw = 0 then destOf packet else rt.gw, q) ∈
        submissions s'.trace := by
      rw [he, submissions_append, hsub]
      exact List.mem_append_right _ (List.mem_singleton.mpr rfl)
    exact ⟨h2, _, _, q, hmem, forwardedPacket_hops hq h2⟩

end Receive

/-! ## The network -/

variable {ι : Type} [DecidableEq ι] {N : Network ι} {S : RelayState ι}

/-- A step of the network is a step of one of the routers. -/
theorem Network.RelayStep.local {x : RelayInput ι} {S' : RelayState ι} (h : N.RelayStep x S S') (i : ι) :
    S'.router i = S.router i ∨ ∃ y, StaticRouter.Step (N.rtable i) y (S.router i) (S'.router i) := by
  cases h with
  | @receive a env _ r h =>
    show Function.update S.router a.router r i = S.router i ∨
      ∃ y, StaticRouter.Step (N.rtable i) y (S.router i) (Function.update S.router a.router r i)
    by_cases hia : i = a.router
    · subst hia
      rw [Function.update_self]
      exact Or.inr ⟨_, .frame h⟩
    · exact Or.inl (Function.update_of_ne hia r S.router)
  | @sweep j fuel env _ r h =>
    show Function.update S.router j r i = S.router i ∨
      ∃ y, StaticRouter.Step (N.rtable i) y (S.router i) (Function.update S.router j r i)
    by_cases hij : i = j
    · subst hij
      rw [Function.update_self]
      exact Or.inr ⟨_, .sweep h⟩
    · exact Or.inl (Function.update_of_ne hij r S.router)

/-- Each router has made a run. -/
theorem Network.RelayRun.reachable (h : N.RelayRun S) : ∀ i, Reachable (N.rtable i) (S.router i) := by
  refine Runs.RunOf.invariant (I := fun S => ∀ i, Reachable (N.rtable i) (S.router i)) ?_ ?_ h
  · rintro S ⟨hinit, -⟩ i
    exact .init (hinit i)
  · intro x S S' _ _ hi hstep i
    rcases hstep.local i with he | ⟨y, hy⟩
    · rw [he]
      exact hi i
    · exact (hi i).step trivial hy

/-- What the routers have done stays in their histories. -/
theorem Network.RelayStep.trace {x : RelayInput ι} {S' : RelayState ι} (hs : N.RelayRun S)
    (h : N.RelayStep x S S') {i : ι} {e : Event} (he : e ∈ (S.router i).trace) :
    e ∈ (S'.router i).trace := by
  rcases h.local i with hsame | ⟨y, hy⟩
  · rw [hsame]
    exact he
  · exact Later.trace (hs.reachable i) (.single ⟨y, hy⟩) he

/-- The packet of a logged reception that was forwarded. -/
structure Logged (S : RelayState ι) (x : Reception ι) (n : Nat) : Prop where
  ttl : 2 ≤ (ttlOf x.frame).toNat
  submitted : ∃ out d q, .submitted n out d q ∈ (S.router x.router).trace ∧
    (ttlOf q).toNat + 1 = (ttlOf x.frame).toNat

/-- The log is right about what was forwarded. -/
theorem Network.RelayRun.logged (h : N.RelayRun S) {x : Reception ι} (hx : x ∈ S.log) {n : Nat}
    (hn : x.forwarded = some n) : Logged S x n := by
  refine Runs.RunOf.invariant (I := fun S => ∀ x ∈ S.log, ∀ n, x.forwarded = some n → Logged S x n) ?_ ?_ h
    x hx n hn
  · rintro S ⟨-, hlog⟩ x hx
    rw [hlog] at hx
    cases hx
  · intro y S S' hs _ hi hstep x hx n hn
    have hold : x ∈ S.log → Logged S' x n := by
      intro hx
      obtain ⟨httl, out, d, q, hq, hhops⟩ := hi x hx n hn
      exact ⟨httl, out, d, q, hstep.trace hs hq, hhops⟩
    cases hstep with
    | @receive a env _ r h =>
      rcases List.mem_append.mp hx with hx | hx
      · exact hold hx
      · -- the reception that has just been logged
        obtain rfl := List.mem_singleton.mp hx
        obtain ⟨httl, out, d, q, hq, hhops⟩ := forwarded_ttl h hn
        refine ⟨httl, out, d, q, ?_, hhops⟩
        show .submitted n out d q ∈ (Function.update S.router a.router r a.router).trace
        rw [Function.update_self]
        exact mem_submissions.mp hq
    | sweep h => exact hold hx

/-- What is carried under the number of a forwarded packet. -/
theorem Network.RelayRun.carried (h : N.RelayRun S) {x : Reception ι} (hx : x ∈ S.log) {n : Nat}
    (hn : x.forwarded = some n) {g : Frame} (hc : Carries (S.router x.router) n g) :
    (ttlOf g).toNat + 1 = (ttlOf x.frame).toNat ∧ 0 < (ttlOf g).toNat := by
  obtain ⟨httl, out, d, q, hq, hhops⟩ := h.logged hx hn
  have hsame := RunOf.carries (h.reachable x.router) hc (mem_submissions.mpr hq)
  rw [hsame.ttlOf]
  omega

/-- **The time to live bounds forwarding.** In every run of a network, a packet is forwarded fewer times in
a row than its time to live says, and what is sent or waits for a forwarded packet has a time to live that
is positive and smaller than that of the packet that was received. -/
theorem Network.ttl_bounds_forwarding (h : N.RelayRun S) :
    (∀ x chain, N.ForwardingChain S (x :: chain) → (x :: chain).length ≤ (ttlOf x.frame).toNat - 1) ∧
      ∀ x ∈ S.log, ∀ n, x.forwarded = some n → ∀ g, Carries (S.router x.router) n g →
        0 < (ttlOf g).toNat ∧ (ttlOf g).toNat < (ttlOf x.frame).toNat := by
  refine ⟨fun x chain hchain => ?_, fun x hx n hn g hc => ?_⟩
  · -- the time to live is two or more wherever the packet is forwarded, and falls on every link
    have htwo : ∀ y ∈ x :: chain, 2 ≤ (ttlOf y.frame).toNat := by
      intro y hy
      obtain ⟨n, hn⟩ := Option.ne_none_iff_exists'.mp (hchain.forwarded y hy)
      exact (h.logged (hchain.received y hy) hn).ttl
    have hfalls : ∀ y ∈ x :: chain, ∀ z, N.Link S y z → (ttlOf z.frame).toNat < (ttlOf y.frame).toNat := by
      rintro y hy z ⟨n, out, o, hn, hs, ho, -⟩
      have hhops := (h.carried (hchain.received y hy) hn (Or.inl ⟨out, o, hs, ho⟩)).1
      omega
    have hlen := Runs.add_length_le_of_isChain (fun y : Reception ι => (ttlOf y.frame).toNat) htwo hfalls
      hchain.linked
    rw [List.length_cons]
    omega
  · obtain ⟨hhops, hpos⟩ := h.carried hx hn hc
    omega

/-- The packet with three hops to live is forwarded twice. -/
theorem Network.ttl_bounds_forwarding_loop :
    ∃ S x y, Sample.loop.RelayRun S ∧ Sample.loop.ForwardingChain S [x, y] ∧ (ttlOf x.frame).toNat = 3 ∧
      [x, y].length ≤ (ttlOf x.frame).toNat - 1 := by
  obtain ⟨S, hrun, x, hx, y, hy, hxn, hyn, ⟨hrouter, hiface⟩, hxr, ⟨out, g, o⟩, hsent, hg, ho, httl⟩ :=
    Network.RelayRun.of_replay (N := Sample.loop) 8
      (Sample.intoLoop ++ [.receive ⟨true, Sample.oneLink true, Sample.inLoop⟩ (Sample.clockAt 0)])
      (Sample.clockAt 0)
      (fun S => ∃ x ∈ S.log, ∃ y ∈ S.log, x.forwarded = some 0 ∧ y.forwarded ≠ none ∧
        (y.router = true ∧ y.iface = Sample.oneLink true) ∧ x.router = false ∧
        ∃ e ∈ transmissions (S.router false).trace, e.2.1 = y.frame ∧ e.2.2.tag? = some 0 ∧
          (ttlOf x.frame).toNat = 3) (by decide +kernel)
  have hlink : Sample.loop.Link S x y := by
    refine ⟨0, out, o, hxn, ?_, ho, ?_⟩
    · rw [hxr, ← show g = y.frame from hg]
      exact mem_transmissions.mp hsent
    · rw [hxr, hrouter, hiface]
      exact Multiset.mem_singleton_self _
  have hchain : Sample.loop.ForwardingChain S [x, y] := by
    refine ⟨?_, ?_, ?_⟩
    · simp [hx, hy]
    · simp [hxn, hyn]
    · exact List.isChain_cons_cons.mpr ⟨hlink, .singleton y⟩
  exact ⟨S, x, y, hrun, hchain, httl, (Network.ttl_bounds_forwarding hrun).1 x [y] hchain⟩

end StaticRouter
