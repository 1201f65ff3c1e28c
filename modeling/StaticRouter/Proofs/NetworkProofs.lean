import Mathlib.Logic.Hydra
import StaticRouter.Network
import StaticRouter.Proofs.FrameProofs

/-!
# Proofs: how long the routers of a network react to a packet

Forwarding leaves the kind of a packet alone and uses up its time to live. A message returned to a
source starts with a new one, but the kinds of such messages run out: an echo request can cause an echo
reply, any packet an error, and an error nothing more. So an endless chain answers, again and again,
an error with an error or something else than an echo request with an echo reply.
-/

namespace StaticRouter

open CMem

/-! ## What a router sends -/

variable {rtable : List RtEntry} {iface : Iface} {packet : Frame}

/-- With the next hop in the cache, a router sends at most one frame for an IPv4 frame. -/
theorem handlePacket_sent {s s' : Router} {env : Env} (hip : packet.readU16 etherType = .ok ethPIp)
    (hknown : ∀ out dst, nextHop rtable iface packet = some (out, dst) → arpcacheLookup s.table dst ≠ none)
    (h : handlePacket rtable iface packet { s with env := env } = .ok s') :
    s'.table = s.table ∧ (sentSince s s' = [] ∨ ∃ out dst q g, Submission rtable iface packet out dst q ∧
      SameDatagram q g ∧ g.readU16 etherType = .ok ethPIp ∧ sentSince s s' = [(out, g)]) := by
  rcases handlePacket_cases h with rfl | ⟨-, out, dst, q, env', notes, hsub, hn, h⟩ | ⟨harp, -⟩
  · exact ⟨rfl, Or.inl (by simp [sentSince, transmissions])⟩
  · obtain ⟨q', hf, ⟨mac, g, -, hw, rfl⟩ | ⟨hl, -, -⟩ | ⟨hl, -, -⟩⟩ := ifaceSendPacketByArp_cases h
    · obtain ⟨hsame, htype⟩ := hf.sent hw
      have hquiet : transmissions notes = [] := by
        refine List.filterMap_eq_nil_iff.mpr fun e he => ?_
        obtain ⟨type, code, rfl⟩ := hn e he
        rfl
      refine ⟨rfl, Or.inr ⟨out, dst, q, g, hsub, hsame, htype, ?_⟩⟩
      simp only [sentSince, List.append_assoc, List.drop_left, transmissions_append, hquiet]
      rfl
    · exact absurd hl (hknown out dst hsub.nextHop)
    · exact absurd hl (hknown out dst hsub.nextHop)
  · rw [hip] at harp
    exact absurd harp (by decide)

/-! ## The kinds of packets -/

theorem SameDatagram.icmpTypeOf {p q : Frame} (h : SameDatagram p q) : icmpTypeOf q = icmpTypeOf p := by
  rw [StaticRouter.icmpTypeOf, h.ihlOf, h.2 ipProtocol 1 (by decide), h.2 _ 1 (Nat.le_add_right _ _)]
  rfl

theorem IcmpMessage.ihlOf {src dst : UInt32} {type : UInt8} {q : Frame} (h : IcmpMessage src dst type q) :
    ihlOf q = 5 := by
  rw [StaticRouter.ihlOf, h.ihl]; rfl

theorem IcmpMessage.icmpTypeOf {src dst : UInt32} {type : UInt8} {q : Frame}
    (h : IcmpMessage src dst type q) : icmpTypeOf q = some type := by
  rw [StaticRouter.icmpTypeOf, h.protocol, if_pos rfl, h.ihlOf, h.type]
  simp [Buffer.beNat]

/-- Forwarding takes one from the time to live and keeps the kind. -/
theorem forwardedPacket_kind {q : Frame} {ttl : UInt8} (h : forwardedPacket packet ttl = .ok q)
    (h5 : 5 ≤ ihlOf packet) :
    ihlOf q = ihlOf packet ∧ icmpTypeOf q = icmpTypeOf packet ∧ ttlOf q = ttl - 1 := by
  obtain ⟨p, sum, hp, -, hq⟩ := forwardedPacket_ok h
  have hslice : ∀ o n, o + n ≤ ipTtl ∨ (ipTtl + 1 ≤ o ∧ o + n ≤ ipCheck) ∨ ipCheck + 2 ≤ o →
      q.slice o n = packet.slice o n := by
    intro o n ho
    have h₁ : o + n ≤ ipTtl ∨ ipTtl + 1 ≤ o := by
      rcases ho with ho | ho | ho
      · exact Or.inl ho
      · exact Or.inr ho.1
      · exact Or.inr (Nat.le_trans (by decide) ho)
    have h₂ : o + n ≤ ipCheck ∨ ipCheck + 2 ≤ o := by
      rcases ho with ho | ho | ho
      · exact Or.inl (Nat.le_trans ho (by decide))
      · exact Or.inl ho.2
      · exact Or.inr ho
    rw [Buffer.slice_write hq h₂, Buffer.slice_write hp h₁]
  have hihl : ihlOf q = ihlOf packet := by
    rw [ihlOf, hslice ipIhl 1 (Or.inl (by decide))]; rfl
  refine ⟨hihl, ?_, forwardedPacket_ttlOf h⟩
  rw [icmpTypeOf, hihl, hslice ipProtocol 1 (Or.inr (Or.inl (by decide))),
    hslice _ 1 (Or.inr (Or.inr ?_))]
  · rfl
  · have : ipCheck + 2 ≤ etherHdrSize + 5 * 4 := by decide
    omega

/-! ## Chains of reactions -/

/-- A bound on the hops and reactions that a packet can still cause: those of an error are the hops that
its time to live allows, and the other kinds come with the errors and replies that they cause. -/
def life (packet : Frame) : Nat :=
  256 * (if IsError packet then 0 else if IsEchoRequest packet then 2 else 1) + (ttlOf packet).toNat

theorem SameDatagram.life {p q : Frame} (h : SameDatagram p q) : life q = life p := by
  have herr : IsError q ↔ IsError p := by rw [IsError, h.icmpTypeOf]; rfl
  have hreq : IsEchoRequest q ↔ IsEchoRequest p := by rw [IsEchoRequest, h.icmpTypeOf]; rfl
  rw [StaticRouter.life, if_congr herr rfl (if_congr hreq rfl rfl), h.ttlOf, StaticRouter.life]

theorem Submission.ihl {out : Iface} {dst : UInt32} {q : Frame}
    (h : Submission rtable iface packet out dst q) (h5 : 5 ≤ ihlOf packet) : 5 ≤ ihlOf q := by
  cases h with
  | forward ht h2 hd hr hq =>
    rw [(forwardedPacket_kind hq h5).1]
    exact h5
  | reply ht hr hq => rw [hq.ihlOf]

/-- What a router submits for a packet outlives it only if it answers an error with an error, or
something else than an echo request with an echo reply. -/
theorem Submission.life_lt {out : Iface} {dst : UInt32} {q : Frame}
    (h : Submission rtable iface packet out dst q) (h5 : 5 ≤ ihlOf packet)
    (herr : ∀ type, type ≠ 0 → ReplyReason rtable iface packet type →
      longestPrefixMatch rtable (sourceOf packet) ≠ none → ¬ IsError packet)
    (hecho : ReplyReason rtable iface packet 0 → longestPrefixMatch rtable (sourceOf packet) ≠ none →
      IsEchoRequest packet) :
    life q < life packet := by
  cases h with
  | @forward ttl rt q ht h2 hd hr hq =>
    obtain ⟨-, htype, -⟩ := forwardedPacket_kind hq h5
    have hold : ttlOf packet = ttl := (Buffer.readU8_ok.mp ht).2.symm
    have hhops := forwardedPacket_hops hq h2
    have hless : (ttlOf q).toNat < ttl.toNat := by omega
    simp only [life, IsError, IsEchoRequest, htype, hold]
    exact Nat.add_lt_add_left hless _
  | @reply type rt q ht hr hq =>
    have hroute : longestPrefixMatch rtable (sourceOf packet) ≠ none := by rw [hr]; simp
    have hone : ∀ p : Frame, IsEchoRequest p → ¬ IsError p := by
      rintro p hp (he | he) <;> rw [IsEchoRequest, he] at hp <;> exact absurd hp (by decide)
    have httl := (ttlOf q).toNat_lt
    have hnot : ¬ IsEchoRequest q := by
      rw [IsEchoRequest, hq.icmpTypeOf]
      rcases ht.ownType with rfl | rfl | rfl <;> decide
    by_cases h0 : type = 0
    · subst h0
      have hreq := hecho ht hroute
      have hnoerr : ¬ IsError q := by
        rw [IsError, hq.icmpTypeOf]
        decide
      simp only [life, hnoerr, hnot, hone _ hreq, hreq, if_true, if_false]
      omega
    · have hcause := herr type h0 ht hroute
      have hiserr : IsError q := by
        rw [IsError, hq.icmpTypeOf]
        rcases ht.ownType with rfl | rfl | rfl
        · exact absurd rfl h0
        · exact Or.inl rfl
        · exact Or.inr rfl
      simp only [life, hiserr, hcause, if_true, if_false]
      split_ifs <;> omega

namespace Network

variable {ι : Type} [DecidableEq ι] {N : Network ι} {s s' : NetState ι}

/-- Every frame on its way is a well-formed IPv4 frame. -/
def AllWellFormed (s : NetState ι) : Prop := ∀ a ∈ s.flight, WellFormed a.frame

/-- A received frame is replaced by the arrivals of the one that is sent for it, if any is. Those outlive
it only if an error is answered with an error, or something else than an echo request with an echo
reply. -/
theorem Step.replaces {x : Arrival ι × Env} (hwf : AllWellFormed s) (h : N.Step x s s') :
    ∃ rest new : Multiset (Arrival ι), s.flight = x.1 ::ₘ rest ∧ s'.flight = rest + new ∧
      (∀ b ∈ new, WellFormed b.frame) ∧
      (¬ (N.ErrorAboutError x.1 ∨ N.StrayReply x.1) → ∀ b ∈ new, life b.frame < life x.1.frame) := by
  cases h with
  | @receive a env s rest r hin hknown h =>
    have ha := hwf a (by rw [hin]; exact Multiset.mem_cons_self a rest)
    refine ⟨rest, _, hin, rfl, ?_⟩
    obtain ⟨-, hsent | ⟨out, dst, q, g, hsub, hsame, htype, hsent⟩⟩ := handlePacket_sent ha.type hknown h
    · simp [hsent]
    · have hnew : ∀ b ∈ (sentSince (s.router a.router) r : Multiset (Iface × Frame)).bind
          (N.arrivals a.router), b.frame = g := by
        intro b hb
        obtain ⟨sent, hs, hb⟩ := Multiset.mem_bind.mp hb
        obtain ⟨dest, -, rfl⟩ := Multiset.mem_map.mp hb
        rw [hsent, Multiset.mem_coe, List.mem_singleton] at hs
        rw [hs]
      refine ⟨fun b hb => ?_, fun hquiet b hb => ?_⟩ <;> rw [hnew b hb]
      · exact ⟨htype, by rw [hsame.ihlOf]; exact hsub.ihl ha.ihl⟩
      · rw [hsame.life]
        push Not at hquiet
        refine hsub.life_lt ha.ihl (fun type h0 hreason hroute herr => ?_) (fun hreason hroute => ?_)
        · exact hquiet.1 ⟨herr, type, h0, hreason, hroute⟩
        · by_contra hreq
          exact hquiet.2 ⟨hreq, hreason, hroute⟩

end Network

/-! ## Two routers that answer each other -/

/-- A packet without options that can be answered, with an echo reply or with an error. -/
structure Answerable (src dst : UInt32) (p : Frame) : Prop where
  type : p.readU16 etherType = .ok ethPIp
  ihl : ihlOf p = 5
  ttl : 2 ≤ (ttlOf p).toNat
  source : sourceOf p = src
  dest : destOf p = dst
  long : icmpHdr + icmphdrSize ≤ p.length
  even : p.length % 2 = 0
  short : p.length < 65536

/-- The message that answers a packet can itself be answered. -/
theorem IcmpMessage.answerable {src dst : UInt32} {type : UInt8} {q g : Frame}
    (h : IcmpMessage src dst type q) (hsame : SameDatagram q g) (htype : g.readU16 etherType = .ok ethPIp)
    (hlong : icmpHdr + icmphdrSize ≤ q.length) (heven : q.length % 2 = 0) (hshort : q.length < 65536) :
    Answerable src dst g where
  type := htype
  ihl := by rw [hsame.ihlOf, h.ihlOf]
  ttl := by
    rw [hsame.ttlOf, ttlOf, h.ttl]
    decide
  source := by rw [hsame.sourceOf, h.source]
  dest := by rw [hsame.destOf, h.dest]
  long := by rw [hsame.1]; exact hlong
  even := by rw [hsame.1]; exact heven
  short := by rw [hsame.1]; exact hshort

/-- A packet to the interface is answered with an echo reply, one without a route with an error. -/
inductive Answered (rtable : List RtEntry) (iface : Iface) (dst : UInt32) : UInt8 → Prop where
  | echo (hd : dst = iface.ip) : Answered rtable iface dst 0
  | error (hd : dst ≠ iface.ip) (hr : longestPrefixMatch rtable dst = none) : Answered rtable iface dst 3

namespace Answerable

variable {src dst : UInt32} {type : UInt8}

theorem handlePacket_eq (hp : Answerable src dst packet) (ha : Answered rtable iface dst type) (s : Router) :
    handlePacket rtable iface packet s = icmpSendPacket rtable packet type 0 s := by
  have hl : 42 ≤ packet.length := hp.long
  have hd : packet.readU32 ipDaddr = .ok dst :=
    Buffer.readU32_ok.mpr ⟨Nat.le_trans (by decide) hl, hp.dest.symm⟩
  have ht : packet.readU8 ipTtl = .ok (ttlOf packet) :=
    Buffer.readU8_ok.mpr ⟨Nat.le_trans (by decide) hl, rfl⟩
  have h2 : ¬ ((ttlOf packet).toNat : Int) - 1 ≤ 0 := by
    have := hp.ttl
    omega
  simp only [handlePacket, hp.type, handleIpPacket, hd, ok_bind, if_true]
  cases ha with
  | echo hown => rw [if_pos hown]
  | error hown hr => simp only [hown, if_false, ipForwardPacket, ht, ok_bind, h2, hr]

theorem nextHop_eq (hp : Answerable src dst packet) (ha : Answered rtable iface dst type) {rt : RtEntry}
    (hr : longestPrefixMatch rtable src = some rt) : nextHop rtable iface packet = some (rt.iface, src) := by
  have h2 : ¬ (ttlOf packet).toNat ≤ 1 := Nat.not_le.mpr hp.ttl
  unfold nextHop
  rw [hp.source, hp.dest, hr]
  cases ha with
  | echo hown => rw [if_pos (Or.inl hown)]; rfl
  | error hown hr' => rw [if_neg (by simp [hown, h2]), hr']; rfl

/-- The answer leaves at once if the way back is known. -/
theorem exists_answer (hp : Answerable src dst packet) (ha : Answered rtable iface dst type) {rt : RtEntry}
    (hr : longestPrefixMatch rtable src = some rt) {mac : Mac} {s : Router}
    (hl : arpcacheLookup s.table src = some mac) (env : Env) :
    ∃ s' g, handlePacket rtable iface packet { s with env := env } = .ok s' ∧ s'.table = s.table ∧
      sentSince s s' = [(rt.iface, g)] ∧ Answerable rt.iface.ip src g := by
  have hlong : 42 ≤ packet.length := hp.long
  have hshort := hp.short
  have hown : OwnType type := by
    cases ha with
    | echo => exact Or.inl rfl
    | error => exact Or.inr (Or.inl rfl)
  have hb : Buildable type packet := by
    unfold Buildable payloadOffset
    split_ifs
    · exact ⟨Nat.le_of_eq hp.ihl.symm, by rw [hp.ihl]; exact hp.long⟩
    · exact hp.long
  obtain ⟨s', hs'⟩ : ∃ s', icmpSendPacket rtable packet type 0 { s with env := env } = .ok s' :=
    exists_icmpSendPacket hown (Nat.le_trans (by decide) hlong) (fun _ => by omega) (fun _ => hb)
      fun _ _ => hp.even
  rw [hp.handlePacket_eq ha]
  obtain ⟨hr', -⟩ | ⟨rt', q, hr', hb, h⟩ := icmpSendPacket_cases hown hs'
  · rw [hp.source, hr] at hr'
    cases hr'
  · obtain ⟨hlen, hq⟩ := builtMessage_ok hb
    rw [hp.source] at hr' hq h
    cases hr.symm.trans hr'
    have hlast : icmpHdr + icmphdrSize ≤ q.length ∧ q.length % 2 = 0 ∧ q.length < 65536 := by
      rw [hlen]
      split_ifs
      · exact ⟨hp.long, hp.even, hp.short⟩
      · decide
    obtain ⟨q', hf, ⟨mac', g, -, hw, rfl⟩ | ⟨hnone, -, -⟩ | ⟨hnone, -, -⟩⟩ := ifaceSendPacketByArp_cases h
    · obtain ⟨hsame, htype⟩ := hf.sent hw
      refine ⟨_, g, hs', rfl, ?_, hq.answerable hsame htype hlast.1 hlast.2.1 hlast.2.2⟩
      simp only [sentSince, Router.log, Router.drawn_trace, List.append_assoc, List.drop_left]
      rfl
    · exact absurd (hl.symm.trans hnone) (by simp)
    · exact absurd (hl.symm.trans hnone) (by simp)

end Answerable

namespace Sample

variable {out inn : Bool → Iface} {type : UInt8}

/-- A packet is on its way between the two routers, from the interface `out` of one to that of the other. -/
def Bouncing (out inn : Bool → Iface) (s : NetState Bool) : Prop :=
  (∀ b, (s.router b).table = knowing (out !b).ip (inn !b).mac) ∧
    ∃ b p, s.flight = {⟨b, inn b, p⟩} ∧ Answerable (out !b).ip (out b).ip p

/-- If each router knows the way to the other and answers what is addressed to itself, they go on
answering each other. -/
theorem Bouncing.exists_step
    (hroute : ∀ b, longestPrefixMatch ((pair out inn).rtable b) (out !b).ip =
      some ⟨(out !b).ip &&& 0xffffff00, 0xffffff00, 0, out b⟩)
    (ha : ∀ b, Answered ((pair out inn).rtable b) (inn b) (out b).ip type) {s : NetState Bool}
    (h : Bouncing out inn s) : ∃ x s', (pair out inn).Step x s s' ∧ Bouncing out inn s' ∧
      ∃ b p, x.1 = ⟨b, inn b, p⟩ ∧ destOf p = (out b).ip := by
  obtain ⟨htab, b, p, hflight, hp⟩ := h
  have hl : arpcacheLookup (s.router b).table (out !b).ip = some (inn !b).mac := by
    rw [htab]
    exact arpcacheLookup_tableInsert_self ..
  obtain ⟨r, g, hr, htable, hsent, hg⟩ := hp.exists_answer (ha b) (hroute b) hl (clockAt 0)
  have hknown : ∀ out' dst, nextHop ((pair out inn).rtable b) (inn b) p = some (out', dst) →
      arpcacheLookup (s.router b).table dst ≠ none := by
    intro out' dst hn
    rw [hp.nextHop_eq (ha b) (hroute b)] at hn
    cases hn
    rw [hl]
    simp
  refine ⟨_, _, .receive (a := ⟨b, inn b, p⟩) hflight hknown hr, ⟨fun c => ?_, !b, g, ?_, ?_⟩, b, p, rfl,
    hp.dest⟩
  · change (Function.update s.router b r c).table = _
    by_cases hc : c = b
    · rw [hc, Function.update_self, htable, htab]
    · rw [Function.update_of_ne hc, htab]
  · simp [hsent, Network.arrivals, pair]
  · rw [Bool.not_not]
    exact hg

/-- One frame suffices. -/
theorem pair_endless (out inn : Bool → Iface)
    (hroute : ∀ b, longestPrefixMatch ((pair out inn).rtable b) (out !b).ip =
      some ⟨(out !b).ip &&& 0xffffff00, 0xffffff00, 0, out b⟩)
    (ha : ∀ b, Answered ((pair out inn).rtable b) (inn b) (out b).ip type) {p : Frame}
    (hp : Answerable (out true).ip (out false).ip p) :
    ∃ f x, Runs.Endless (pair out inn).Step (start out inn p) f x ∧
      ∀ n, ∃ b q, (x n).1 = ⟨b, inn b, q⟩ ∧ destOf q = (out b).ip :=
  Runs.exists_endless (I := Bouncing out inn)
    (D := fun x _ => ∃ b q, x.1 = ⟨b, inn b, q⟩ ∧ destOf q = (out b).ip)
    (fun _ hs =>
      let ⟨x, s', hstep, hs', hx⟩ := Bouncing.exists_step hroute ha hs
      ⟨x, s', hx, hstep, hs'⟩)
    ⟨fun _ => rfl, false, p, rfl, hp⟩

/-- A UDP frame is answerable. -/
theorem answerable_udp (src dst : UInt32) : Answerable src dst (udp src dst 64) where
  type := rfl
  ihl := by
    rw [ihlOf, show (udp src dst 64).slice ipIhl 1 = [0x45] from rfl]
    rfl
  ttl := Nat.le_of_ble_eq_true rfl
  source := Buffer.ofNat_beNat_be32 src
  dest := Buffer.ofNat_beNat_be32 dst
  long := Nat.le_of_ble_eq_true rfl
  even := congrArg (· % 2) (show (udp src dst 64).length = 42 from rfl)
  short := Nat.le_of_ble_eq_true rfl

/-- What the router `false` sends to 10.0.2.2 comes back as an error, and an error about that goes out
again, though neither router has sent an echo reply. -/
theorem outward_endless : ∃ f x,
    Runs.Endless (pair outward inward).Step (start outward inward (udp 0x0a000202 0x0a000101 64)) f x ∧
      ∀ n, ¬ (pair outward inward).StrayReply (x n).1 := by
  obtain ⟨f, x, h, hx⟩ := pair_endless outward inward (by decide)
    (fun b => .error (by cases b <;> decide) (by cases b <;> decide)) (answerable_udp _ _)
  refine ⟨f, x, h, fun n => ?_⟩
  obtain ⟨b, q, hxn, hd⟩ := hx n
  rintro ⟨-, hr, -⟩
  rw [hxn] at hr
  cases hr with
  | toIface hown =>
    have hsame : (outward b).ip = (inward b).ip := hd.symm.trans hown
    cases b <;> exact absurd hsame (by decide)

end Sample

namespace Network

variable {ι : Type} [DecidableEq ι] {N : Network ι} {s s' : NetState ι}

/-- In every endless run, errors are answered with errors, or other packets than echo requests with echo
replies, again and again. -/
theorem endless_recurs {f : ℕ → NetState ι} {x : ℕ → Arrival ι × Env} (hwf : AllWellFormed s)
    (h : Runs.Endless N.Step s f x) (n : ℕ) :
    ∃ m, n ≤ m ∧ (N.ErrorAboutError (x m).1 ∨ N.StrayReply (x m).1) := by
  have hlife : WellFounded fun a b : Arrival ι => life a.frame < life b.frame :=
    (measure fun a : Arrival ι => life a.frame).wf
  refine h.recurs (D := fun x _ => N.ErrorAboutError x.1 ∨ N.StrayReply x.1) hlife.cutExpand
    NetState.flight (I := AllWellFormed) (fun x s s' hwf hs => ?_) (fun x s s' hwf hd hs => ?_) hwf n
  · obtain ⟨rest, new, hin, hout, hnew, -⟩ := hs.replaces hwf
    intro b hb
    rw [hout] at hb
    rcases Multiset.mem_add.mp hb with hb | hb
    · exact hwf b (by rw [hin]; exact Multiset.mem_cons_of_mem hb)
    · exact hnew b hb
  · obtain ⟨rest, new, hin, hout, -, hlt⟩ := hs.replaces hwf
    refine ⟨new, x.1, hlt hd, ?_⟩
    rw [hout, hin, ← Multiset.singleton_add, add_comm {x.1} rest, add_assoc, add_assoc, add_comm new]

/-- Errors answer each other between two routers. -/
theorem endless_recurs_errors : ∃ f x, Runs.Endless (Sample.pair Sample.outward Sample.inward).Step
      (Sample.start Sample.outward Sample.inward (Sample.udp 0x0a000202 0x0a000101 64)) f x ∧
    ∀ n, ∃ m, n ≤ m ∧ (Sample.pair Sample.outward Sample.inward).ErrorAboutError (x m).1 := by
  obtain ⟨f, x, h, hx⟩ := Sample.outward_endless
  refine ⟨f, x, h, fun n => ?_⟩
  have hwf : AllWellFormed (Sample.start Sample.outward Sample.inward (Sample.udp 0x0a000202 0x0a000101 64)) := by
    intro a ha
    rw [Multiset.mem_singleton.mp ha]
    exact ⟨rfl, Nat.le_refl 5⟩
  obtain ⟨m, hm, herr | hstray⟩ := endless_recurs hwf h n
  · exact ⟨m, hm, herr⟩
  · exact absurd hstray (hx m)

/-- One UDP frame can cause endless transmissions: two routers report errors about each other's errors,
or answer each other's echo replies. -/
theorem endless_chains :
    (∃ f x, Runs.Endless (Sample.pair Sample.outward Sample.inward).Step
        (Sample.start Sample.outward Sample.inward (Sample.udp 0x0a000202 0x0a000101 64)) f x ∧
      ∀ n, ¬ (Sample.pair Sample.outward Sample.inward).StrayReply (x n).1) ∧
    ∃ f x, Runs.Endless (Sample.pair Sample.oneLink Sample.oneLink).Step
        (Sample.start Sample.oneLink Sample.oneLink (Sample.udp 0x0a000102 0x0a000101 64)) f x ∧
      ∀ n, ¬ (Sample.pair Sample.oneLink Sample.oneLink).ErrorAboutError (x n).1 := by
  refine ⟨Sample.outward_endless, ?_⟩
  obtain ⟨f, x, h, hx⟩ := Sample.pair_endless Sample.oneLink Sample.oneLink (by decide)
    (fun b => .echo rfl) (Sample.answerable_udp _ _)
  refine ⟨f, x, h, fun n => ?_⟩
  obtain ⟨b, q, hxn, hd⟩ := hx n
  rintro ⟨-, type, h0, hr, -⟩
  rw [hxn] at hr
  cases hr with
  | toIface => exact h0 rfl
  | exceeded hown => exact hown hd
  | unrouted hown => exact hown hd

end Network

end StaticRouter
