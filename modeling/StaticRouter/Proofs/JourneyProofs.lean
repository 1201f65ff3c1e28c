import StaticRouter.Proofs.EmissionProofs
import StaticRouter.Proofs.RelayProofs

/-!
# Proofs: the way of a packet

What a packet is after any number of routers have forwarded it, whatever else they do meanwhile.
-/

namespace StaticRouter

open CMem

/-- The frame `g` holds the datagram of `p` after `n` routers have forwarded it. -/
structure Relayed (n : Nat) (p g : Frame) : Prop where
  length : g.length = p.length
  ttl : (ttlOf g).toNat + n = (ttlOf p).toNat
  /-- The other bytes of the datagram. -/
  same : ∀ k, etherHdrSize ≤ k → k ≠ ipTtl → k ≠ ipCheck → k ≠ ipCheck + 1 → g[k]? = p[k]?
  checksum : 0 < n → checksum (g.slice etherHdrSize (ihlOf p * 4)) 0 = .ok 0

namespace Relayed

variable {n : Nat} {p q g : Frame}

/-- A field that forwarding does not write. -/
theorem slice_eq (h : Relayed n p g) {o w : Nat} (ho : etherHdrSize ≤ o)
    (hw : o + w ≤ ipTtl ∨ (ipTtl < o ∧ o + w ≤ ipCheck) ∨ ipCheck + 2 ≤ o) : g.slice o w = p.slice o w := by
  have hoffsets : etherHdrSize = 14 ∧ ipTtl = 22 ∧ ipCheck = 24 := ⟨rfl, rfl, rfl⟩
  refine List.ext_getElem? fun k => ?_
  rw [Buffer.getElem?_slice, Buffer.getElem?_slice]
  by_cases hk : k < w
  · rw [if_pos hk, if_pos hk]
    exact h.same (o + k) (by omega) (by omega) (by omega) (by omega)
  · rw [if_neg hk, if_neg hk]

theorem ihlOf (h : Relayed n p g) : ihlOf g = ihlOf p := by
  rw [StaticRouter.ihlOf, h.slice_eq (Nat.le_refl _) (Or.inl (by decide))]
  rfl

theorem destOf (h : Relayed n p g) : destOf g = destOf p := by
  rw [StaticRouter.destOf, h.slice_eq (by decide) (Or.inr (Or.inr (by decide)))]
  rfl

theorem sourceOf (h : Relayed n p g) : sourceOf g = sourceOf p := by
  rw [StaticRouter.sourceOf, h.slice_eq (by decide) (Or.inr (Or.inr (by decide)))]
  rfl

theorem refl (p : Frame) : Relayed 0 p p := ⟨rfl, rfl, fun _ _ _ _ _ => rfl, fun h => absurd h (Nat.lt_irrefl 0)⟩

theorem trans {m : Nat} (h : Relayed n p q) (h' : Relayed m q g) (hm : 0 < m) : Relayed (n + m) p g where
  length := h'.length.trans h.length
  ttl := by
    have h₁ := h.ttl
    have h₂ := h'.ttl
    omega
  same k hk ht hc hc' := (h'.same k hk ht hc hc').trans (h.same k hk ht hc hc')
  checksum _ := by
    rw [← h.ihlOf]
    exact h'.checksum hm

end Relayed

/-! ## One router -/

variable {rtable : List RtEntry} {iface : Iface} {packet : Frame} {s s' : Router}

/-- What is submitted for a packet that is forwarded. -/
theorem forwarded_submission (h : handlePacket rtable iface packet s = .ok s') {n : Nat}
    (hn : forwardedSince s s' = some n) :
    2 ≤ (ttlOf packet).toNat ∧ packet.readU8 ipTtl = .ok (ttlOf packet) ∧
      ∃ rt q, longestPrefixMatch rtable (destOf packet) = some rt ∧
        forwardedPacket packet (ttlOf packet) = .ok q ∧ ∃ out d, (n, out, d, q) ∈ submissions s'.trace := by
  rw [forwardedSince_eq h] at hn
  split_ifs at hn with hfwd
  obtain ⟨hip, hnone⟩ := hfwd
  obtain rfl : s.next = n := Option.some.inj hn
  obtain ⟨hd, h2, rt, hrt⟩ := answerType_eq_none.mp hnone
  obtain ⟨q, ht, hq, hsend⟩ := handlePacket_forward hip h2 hd hrt h
  exact ⟨h2, ht, rt, q, hrt, hq, _, _, mem_submissions.mpr
    ((ifaceSendPacketByArp_submitted hsend _ _ _ _).mpr (Or.inr ⟨rfl, rfl, rfl, rfl⟩))⟩

/-- The datagram that is forwarded. -/
theorem Relayed.of_forwardedPacket {q g : Frame} (ht : packet.readU8 ipTtl = .ok (ttlOf packet))
    (h2 : 2 ≤ (ttlOf packet).toNat) (h5 : 5 ≤ StaticRouter.ihlOf packet)
    (hq : forwardedPacket packet (ttlOf packet) = .ok q) (hsame : SameDatagram q g) : Relayed 1 packet g := by
  obtain ⟨p₁, sum, hp₁, -, hq₁⟩ := forwardedPacket_ok hq
  have hlong : ipIhl + 1 ≤ packet.length := Nat.le_trans (by decide) (Buffer.readU8_ok.mp ht).1
  refine ⟨?_, ?_, fun k hk httl hc hc' => ?_, fun _ => ?_⟩
  · rw [hsame.1, Buffer.length_write hq₁, Buffer.length_write hp₁]
  · rw [hsame.ttlOf]
    exact forwardedPacket_hops hq h2
  · have hbyte : ∀ b : Frame, b[k]? = (b.slice k 1)[0]? := fun b => by rw [Buffer.getElem?_slice]; rfl
    rw [hbyte g, hsame.2 k 1 hk, ← hbyte q, Buffer.getElem?_write hq₁ ?_, Buffer.getElem?_write hp₁ ?_]
    · simp only [List.length_singleton]; omega
    · simp only [Buffer.length_le16]; omega
  · rw [hsame.2 _ _ (Nat.le_refl _)]
    exact forwardedPacket_checksum hq (readIhl_eq hlong) h5

/-- What is submitted for a packet that is answered or reported. -/
theorem answered_cases (hip : packet.readU16 etherType = .ok ethPIp)
    (h : handlePacket rtable iface packet s = .ok s') {type : UInt8}
    (ha : answerType rtable iface packet = some type) :
    (longestPrefixMatch rtable (sourceOf packet) = none ∧ submittedSince s s' = []) ∨
      ∃ rt q, longestPrefixMatch rtable (sourceOf packet) = some rt ∧
        builtMessage packet type 0 rt s = .ok q ∧
        submittedSince s s' = [(s.next, rt.iface, sourceOf packet, q)] := by
  rw [handlePacket_ip hip] at h
  rcases handleIpPacket_cases h with ⟨type', ha', hreason, h⟩ | ⟨rt, q', ha', -⟩
  · cases ha.symm.trans ha'
    rcases icmpSendPacket_cases hreason.ownType h with ⟨hr, rfl⟩ | ⟨rt, q', hr, hb, h⟩
    · exact Or.inl ⟨hr, by simp [submittedSince, submissions]⟩
    · exact Or.inr ⟨rt, q', hr, hb, (submittedSince_of_built h).1⟩
  · rw [ha] at ha'
    cases ha'

/-- The last router on the way of a packet that has no time left to live. -/
theorem ReportsExpiry.of_relayed {n : Nat} {p : Frame} (hway : Relayed n p packet)
    (hip : packet.readU16 etherType = .ok ethPIp) (ha : answerType rtable iface packet = some 11)
    (h : handlePacket rtable iface packet s = .ok s') : ReportsExpiry rtable p s s' := by
  have hsource := hway.sourceOf
  rcases answered_cases hip h ha with ⟨hr, hnone⟩ | ⟨rt, q, hr, hb, hsub⟩
  · rw [hsource] at hr
    exact ⟨fun _ => hnone, fun rt hrt => absurd (hr.symm.trans hrt) (by simp)⟩
  · obtain ⟨hconsistent, -, hdata⟩ := builtMessage_error hb (by decide)
    have hmsg := (builtMessage_ok hb).2
    rw [hsource] at hr hsub hmsg
    refine ⟨fun hnone => absurd (hr.symm.trans hnone) (by simp), fun rt' hrt' => ?_⟩
    obtain rfl := Option.some.inj (hr.symm.trans hrt')
    refine ⟨q, hsub, hmsg, hconsistent, fun b hb28 h8 h10 h11 => ?_⟩
    have hoffsets : etherHdrSize = 14 ∧ ipTtl = 22 ∧ ipCheck = 24 := ⟨rfl, rfl, rfl⟩
    rw [hdata, Buffer.getElem?_slice, if_pos hb28]
    exact hway.same _ (Nat.le_add_right _ _) (by omega) (by omega) (by omega)

/-! ## The network -/

variable {ι : Type} [DecidableEq ι] {N : Network ι} {S : RelayState ι}

/-- The packet of a logged reception that was forwarded, and what was submitted for it. -/
def RoutedAs (N : Network ι) (S : RelayState ι) (x : Reception ι) (n : Nat) : Prop :=
  2 ≤ (ttlOf x.frame).toNat ∧ x.frame.readU8 ipTtl = .ok (ttlOf x.frame) ∧
    ∃ rt q, longestPrefixMatch (N.rtable x.router) (destOf x.frame) = some rt ∧
      forwardedPacket x.frame (ttlOf x.frame) = .ok q ∧
      ∃ out d, .submitted n out d q ∈ (S.router x.router).trace

theorem Network.RelayRun.routedAs (h : N.RelayRun S) {x : Reception ι} (hx : x ∈ S.log) {n : Nat}
    (hn : x.forwarded = some n) : RoutedAs N S x n := by
  refine Runs.RunOf.invariant (I := fun S => ∀ x ∈ S.log, ∀ n, x.forwarded = some n → RoutedAs N S x n) ?_ ?_
    h x hx n hn
  · rintro S ⟨-, hlog⟩ x hx
    rw [hlog] at hx
    cases hx
  · intro y S S' hs _ hi hstep x hx n hn
    have hold : x ∈ S.log → RoutedAs N S' x n := by
      intro hx
      obtain ⟨h2, ht, rt, q, hrt, hq, out, d, hsub⟩ := hi x hx n hn
      exact ⟨h2, ht, rt, q, hrt, hq, out, d, hstep.trace hs hsub⟩
    cases hstep with
    | @receive a env _ r h =>
      rcases List.mem_append.mp hx with hx | hx
      · exact hold hx
      · -- the reception that has just been logged
        obtain rfl := List.mem_singleton.mp hx
        obtain ⟨h2, ht, rt, q, hrt, hq, out, d, hsub⟩ := forwarded_submission h hn
        refine ⟨h2, ht, rt, q, hrt, hq, out, d, ?_⟩
        show .submitted n out d q ∈ (Function.update S.router a.router r a.router).trace
        rw [Function.update_self]
        exact mem_submissions.mp hsub
    | sweep h => exact hold hx

/-- What a router does to the datagram. -/
theorem Network.RelayRun.sentOn (h : N.RelayRun S) {x : Reception ι} (hx : x ∈ S.log)
    (h5 : 5 ≤ StaticRouter.ihlOf x.frame) {n : Nat} (hn : x.forwarded = some n) {out : Iface} {g : Frame} {o : Origin}
    (hs : .sent out g o ∈ (S.router x.router).trace) (ho : o.tag? = some n) : Relayed 1 x.frame g := by
  obtain ⟨h2, ht, rt, q, -, hq, out', d, hsub⟩ := h.routedAs hx hn
  have hsame := RunOf.carries (h.reachable x.router) (Or.inl ⟨out, o, hs, ho⟩) (mem_submissions.mpr hsub)
  exact .of_forwardedPacket ht h2 h5 hq hsame

theorem Network.RelayRun.link (h : N.RelayRun S) {x y : Reception ι} (hx : x ∈ S.log)
    (h5 : 5 ≤ StaticRouter.ihlOf x.frame) (hl : N.Link S x y) : Relayed 1 x.frame y.frame := by
  obtain ⟨n, out, o, hn, hs, ho, -⟩ := hl
  exact h.sentOn hx h5 hn hs ho

/-- What any number of routers do to it. -/
theorem RelayState.Travels.relayed {p g : Frame} {n : Nat} (ht : S.Travels p n g) (h : N.RelayRun S)
    (h5 : 5 ≤ StaticRouter.ihlOf p) : Relayed n p g ∧ (n = 0 → g = p) := by
  induction ht with
  | here p => exact ⟨.refl p, fun _ => rfl⟩
  | @hop x m n out o q g hx hm hs ho _ ih =>
    have hone := h.sentOn hx h5 hm hs ho
    obtain ⟨hrest, hsame⟩ := ih (by rw [hone.ihlOf]; exact h5)
    refine ⟨?_, fun h0 => absurd h0 (Nat.succ_ne_zero n)⟩
    rcases Nat.eq_zero_or_pos n with rfl | hn
    · rw [hsame rfl]
      exact hone
    · rw [Nat.add_comm]
      exact hone.trans hrest hn

/-- What a chain of routers does to the datagram. -/
theorem Network.RelayRun.relayed (h : N.RelayRun S) {x y : Reception ι} {chain : List (Reception ι)}
    (hchain : N.ForwardingChain S (x :: chain)) (hlink : N.Link S ((x :: chain).getLast (by simp)) y)
    (h5 : 5 ≤ StaticRouter.ihlOf x.frame) :
    Relayed (x :: chain).length x.frame y.frame ∧ ∀ w ∈ x :: chain, destOf w.frame = destOf x.frame := by
  have hx := hchain.received x List.mem_cons_self
  induction chain generalizing x with
  | nil => exact ⟨h.link hx h5 hlink, fun w hw => by rw [List.mem_singleton.mp hw]⟩
  | cons w chain ih =>
    obtain ⟨hxw, hrest⟩ := List.isChain_cons_cons.mp hchain.linked
    have hone := h.link hx h5 hxw
    have htail : N.ForwardingChain S (w :: chain) :=
      ⟨fun v hv => hchain.received v (List.mem_cons_of_mem x hv),
        fun v hv => hchain.forwarded v (List.mem_cons_of_mem x hv), hrest⟩
    obtain ⟨hall, hdest⟩ := ih htail (by rwa [List.getLast_cons (by simp)] at hlink)
      (by rw [hone.ihlOf]; exact h5) (htail.received w List.mem_cons_self)
    refine ⟨?_, fun v hv => ?_⟩
    · have hlen : (x :: w :: chain).length = 1 + (w :: chain).length := by
        rw [List.length_cons, Nat.add_comm]
      rw [hlen]
      exact hone.trans hall (by simp)
    · rcases List.mem_cons.mp hv with rfl | hv
      · rfl
      · rw [hdest v hv, hone.destOf]

/-- **The way of a packet through the network.** In every run, with any frames and sweep passes in between and
whether it had to wait for an address at any router: a packet that the routers of a chain have forwarded is the
packet that the first one received, with as many hops less to live, but for its header checksum, which verifies.
Each router has a route for the destination of the first packet; and where the hops to live are used up and the
packet is not for the next router on the way, that router submits a report to the packet's source, on the
interface of its route there, if it has one. -/
theorem Network.forwardingChain_keeps_datagram (h : N.RelayRun S) {x y : Reception ι}
    {chain : List (Reception ι)} (hchain : N.ForwardingChain S (x :: chain))
    (hlink : N.Link S ((x :: chain).getLast (by simp)) y) (h5 : 5 ≤ ihlOf x.frame) :
    Relayed (x :: chain).length x.frame y.frame ∧
      (∀ w ∈ x :: chain, ∃ rt, longestPrefixMatch (N.rtable w.router) (destOf x.frame) = some rt) ∧
      ((ttlOf x.frame).toNat = (x :: chain).length + 1 → destOf x.frame ≠ y.iface.ip →
        answerType (N.rtable y.router) y.iface y.frame = some 11 ∧
          ∀ env S₁ S₂, N.RelayStep (.receive y.toArrival env) S₁ S₂ →
            ReportsExpiry (N.rtable y.router) x.frame (S₁.router y.router) (S₂.router y.router)) := by
  obtain ⟨hall, hdest⟩ := h.relayed hchain hlink h5
  refine ⟨hall, fun w hw => ?_, fun httl hown => ?_⟩
  · obtain ⟨n, hn⟩ := Option.ne_none_iff_exists'.mp (hchain.forwarded w hw)
    obtain ⟨-, -, rt, q, hrt, -⟩ := h.routedAs (hchain.received w hw) hn
    exact ⟨rt, by rw [← hdest w hw]; exact hrt⟩
  · have hleft := hall.ttl
    have h1 : (ttlOf y.frame).toNat ≤ 1 := by omega
    have ha : answerType (N.rtable y.router) y.iface y.frame = some 11 := by
      rw [answerType, if_neg (by rw [hall.destOf]; exact hown), if_pos h1]
    obtain ⟨n, out, o, -, hs, ho, -⟩ := hlink
    have hip := RunOf.sent_ip (h.reachable _) hs ho
    refine ⟨ha, fun env S₁ S₂ hstep => ?_⟩
    cases hstep with
    | @receive _ _ _ r hr =>
      have hlast : Function.update S₁.router y.router r y.router = r := Function.update_self ..
      show ReportsExpiry _ _ _ (Function.update S₁.router y.router r y.router)
      rw [hlast]
      have hrep := ReportsExpiry.of_relayed hall hip ha hr
      exact ⟨hrep.unrouted, hrep.routed⟩

/-- The packet waits at the first router until the second one answers. -/
theorem Network.forwardingChain_keeps_datagram_loop : ∃ (S : RelayState Bool) (x y : Reception Bool),
    Sample.loop.RelayRun S ∧ (ttlOf x.frame).toNat = 3 ∧ Relayed 1 x.frame y.frame := by
  obtain ⟨S, hrun, x, hx, y, hy, hxn, ⟨hrouter, hiface⟩, hxr, h5, ⟨out, g, o⟩, hsent, hg, ho, httl⟩ :=
    Network.RelayRun.of_replay (N := Sample.loop) 8
      (Sample.intoLoop ++ [.receive ⟨true, Sample.oneLink true, Sample.inLoop⟩ (Sample.clockAt 0)])
      (Sample.clockAt 0)
      (fun S => ∃ x ∈ S.log, ∃ y ∈ S.log, x.forwarded = some 0 ∧
        (y.router = true ∧ y.iface = Sample.oneLink true) ∧ x.router = false ∧ 5 ≤ ihlOf x.frame ∧
        ∃ e ∈ transmissions (S.router false).trace, e.2.1 = y.frame ∧ e.2.2.tag? = some 0 ∧
          (ttlOf x.frame).toNat = 3) (by decide +kernel)
  have hlink : Sample.loop.Link S x y := by
    refine ⟨0, out, o, hxn, ?_, ho, ?_⟩
    · rw [hxr, ← show g = y.frame from hg]
      exact mem_transmissions.mp hsent
    · rw [hxr, hrouter, hiface]
      exact Multiset.mem_singleton_self _
  have hchain : Sample.loop.ForwardingChain S [x] := by
    refine ⟨?_, ?_, .singleton x⟩
    · simp [hx]
    · simp [hxn]
  exact ⟨S, x, y, hrun, httl, (Network.forwardingChain_keeps_datagram hrun hchain hlink h5).1⟩

end StaticRouter
