import StaticRouter.Proofs.EchoProofs
import StaticRouter.Proofs.JourneyProofs
import StaticRouter.Proofs.NetworkProofs

/-!
# Proofs: answers and reports through a network

A packet travels to the router that answers or reports it, and the message that this router builds travels
back. What the host gets tells what it asked for.
-/

namespace StaticRouter

open CMem OnesComplement

variable {n : Nat} {p q g : Frame}

/-! ## Messages on their way -/

/-- Bytes whose checksum comes out as zero verify. -/
theorem verifies_of_checksum {bytes : List UInt8} (h : checksum bytes 0 = .ok 0) (hs : bytes.length ≤ 131070) :
    Verifies bytes := by
  have hle := wordSum_le bytes
  have hlt := fold_lt (wordSum bytes)
  rw [checksum_eq (checksum_even h) (by omega), Except.ok.injEq] at h
  have hnat := congrArg UInt16.toNat h
  rw [UInt16.toNat_ofNat', UInt16.toNat_zero] at hnat
  unfold Verifies
  omega

/-- The total length has two bytes. -/
theorem totLenOf_le (packet : Frame) : totLenOf packet ≤ 65535 := by
  have hlen := Buffer.length_slice_le packet ipTotLen 2
  unfold totLenOf
  generalize packet.slice ipTotLen 2 = bs at hlen ⊢
  rcases bs with _ | ⟨b, _ | ⟨b', _ | ⟨b'', bs⟩⟩⟩
  · simp [Buffer.beNat]
  · have hb := b.toNat_lt
    simp only [Buffer.beNat, List.foldl_cons, List.foldl_nil]
    omega
  · have hb := b.toNat_lt
    have hb' := b'.toNat_lt
    simp only [Buffer.beNat, List.foldl_cons, List.foldl_nil]
    omega
  · simp at hlen

theorem SameDatagram.relayed (h : SameDatagram p q) : Relayed 0 p q := by
  refine ⟨h.1, ?_, fun k hk _ _ _ => ?_, fun h0 => absurd h0 (Nat.lt_irrefl 0)⟩
  · rw [h.ttlOf]
    rfl
  · have hbyte : ∀ b : Frame, b[k]? = (b.slice k 1)[0]? := fun b => by rw [Buffer.getElem?_slice]; rfl
    rw [hbyte, hbyte, h.2 k 1 hk]

theorem SameDatagram.consistent (h : SameDatagram p q) (hc : Consistent p) : Consistent q where
  totLen := by
    rw [h.1, totLenOf, h.2 ipTotLen 2 (by decide)]
    exact hc.totLen
  ihl := by
    rw [h.ihlOf]
    exact hc.ihl
  protocol := by
    rw [h.2 ipProtocol 1 (by decide)]
    exact hc.protocol
  header := by
    rw [h.2 etherHdrSize iphdrSize (Nat.le_refl _)]
    exact hc.header
  icmp := by
    rw [totLenOf, h.2 ipTotLen 2 (by decide), h.2 icmpHdr _ (by decide)]
    exact hc.icmp

namespace Relayed

variable (h : Relayed n p g)
include h

theorem totLenOf : totLenOf g = totLenOf p := by
  rw [StaticRouter.totLenOf, h.slice_eq (by decide) (Or.inl (by decide))]
  rfl

theorem payloadOffset : payloadOffset g = payloadOffset p := by
  rw [StaticRouter.payloadOffset, h.ihlOf]
  rfl

/-- What follows the header. -/
theorem payload_eq (h5 : 5 ≤ StaticRouter.ihlOf p) {o w : Nat} (ho : StaticRouter.payloadOffset p ≤ o) :
    g.slice o w = p.slice o w := by
  have hle := header_le_payloadOffset h5
  have hoffsets : etherHdrSize = 14 ∧ iphdrSize = 20 ∧ ipTtl = 22 ∧ ipCheck = 24 := ⟨rfl, rfl, rfl, rfl⟩
  exact h.slice_eq (by omega) (Or.inr (Or.inr (by omega)))

theorem icmpData (h5 : 5 ≤ StaticRouter.ihlOf p) : icmpData g = icmpData p := by
  rw [StaticRouter.icmpData, h.payloadOffset, h.totLenOf, h.ihlOf, h.payload_eq h5 (Nat.le_add_right _ _)]
  rfl

theorem icmpTypeOf (h5 : 5 ≤ StaticRouter.ihlOf p) : icmpTypeOf g = icmpTypeOf p := by
  have hprot : g.slice ipProtocol 1 = p.slice ipProtocol 1 :=
    h.slice_eq (by decide) (Or.inr (Or.inl ⟨by decide, by decide⟩))
  have htype := h.payload_eq h5 (w := 1) (Nat.le_refl _)
  rw [StaticRouter.payloadOffset] at htype
  rw [StaticRouter.icmpTypeOf, StaticRouter.icmpTypeOf, hprot, h.ihlOf, htype]

/-- A receiver accepts a message that was forwarded. -/
theorem consistent (hc : Consistent p) (hn : 0 < n) : Consistent g := by
  have h5 : StaticRouter.ihlOf p = 5 := by
    have := hc.ihl
    simp only [iphdrSize] at this
    omega
  refine ⟨?_, ?_, ?_, ?_, ?_⟩
  · rw [h.length, h.totLenOf]
    exact hc.totLen
  · rw [h.ihlOf]
    exact hc.ihl
  · rw [h.slice_eq (by decide) (Or.inr (Or.inl ⟨by decide, by decide⟩))]
    exact hc.protocol
  · have hsum := h.checksum hn
    rw [hc.ihl] at hsum
    exact verifies_of_checksum hsum (Nat.le_trans (Buffer.length_slice_le _ _ _) (by decide))
  · rw [h.totLenOf, h.slice_eq (by decide) (Or.inr (Or.inr (by decide)))]
    exact hc.icmp

end Relayed

/-- An answer to a packet that was forwarded, and was forwarded itself. -/
theorem Echoes.relayed {p' : Frame} {k : Nat} (he : Echoes p' q) (hp : Relayed n p p') (hq : Relayed k q g)
    (h5 : 5 ≤ ihlOf p) (h5' : 5 ≤ ihlOf q) : Echoes p g where
  type := by
    rw [hq.icmpTypeOf h5']
    exact he.type
  dest := by
    rw [hq.destOf, ← hp.sourceOf]
    exact he.dest
  totLen := by
    rw [hq.totLenOf, ← hp.totLenOf, ← hp.ihlOf]
    exact he.totLen
  idSeq := by
    rw [hq.payloadOffset, hq.payload_eq h5' (Nat.le_add_right _ _), ← hp.payload_eq h5 (Nat.le_add_right _ _),
      ← hp.payloadOffset]
    exact he.idSeq
  data := by
    rw [hq.icmpData h5', ← hp.icmpData h5]
    exact he.data

/-! ## The message -/

section Router

variable {rtable : List RtEntry} {iface : Iface} {packet : Frame} {s s' : Router}

/-- What is submitted for a packet that is answered or reported. -/
theorem answered_submission (h : handlePacket rtable iface packet s = .ok s') {type : UInt8}
    (ha : answerType rtable iface packet = some type) {m : Nat} {out : Iface} {d : UInt32}
    (hm : (m, out, d, q) ∈ submittedSince s s') :
    ∃ rt, longestPrefixMatch rtable (sourceOf packet) = some rt ∧ builtMessage packet type 0 rt s = .ok q ∧
      out = rt.iface := by
  by_cases hip : packet.readU16 etherType = .ok ethPIp
  · rcases answered_cases hip h ha with ⟨-, hnone⟩ | ⟨rt, q', hr, hb, hsub⟩
    · rw [hnone] at hm
      cases hm
    · rw [hsub, List.mem_singleton] at hm
      cases hm
      exact ⟨rt, hr, hb, rfl⟩
  · have hnone : submittedSince s s' = [] := by
      rcases handlePacket_cases h with rfl | ⟨hip', -⟩ | ⟨-, h⟩
      · simp [submittedSince, submissions]
      · exact absurd hip' hip
      · exact handleArpPacket_submitted h
    rw [hnone] at hm
    cases hm

theorem Does.direct_new {act : Act} {st st' : Store} (hd : Does act st st') {out : Iface} {g : Frame} {m : Nat}
    (hs : .sent out g (.direct m) ∈ st'.router.trace) (hne : .sent out g (.direct m) ∉ st.router.trace) :
    ∃ d q, (m, out, d, q) ∈ submissions st'.router.trace := by
  have hone : ∀ e, .sent out g (.direct m) ∈ st.router.trace ++ [e] → .sent out g (.direct m) = e := fun e hm =>
    (List.mem_append.mp hm).elim (fun hm => absurd hm hne) List.mem_singleton.mp
  cases hd with
  | env => exact absurd hs hne
  | expire => exact absurd hs hne
  | retry => exact absurd hs hne
  | begin => exact absurd hs hne
  | originate => cases hone _ hs
  | giveUp => cases hone _ hs
  | unlink => cases hone _ hs
  | arp => cases hone _ hs
  | @submit s s' iface dst packet ph h =>
    obtain ⟨q, -, ⟨mac, frame, -, -, rfl⟩ | ⟨-, -, rfl⟩ | ⟨-, -, rfl⟩⟩ := ifaceSendPacketByArp_cases h
    · have hnew : out = iface ∧ g = frame ∧ m = s.next := by simpa [hne] using hs
      obtain ⟨rfl, rfl, rfl⟩ := hnew
      exact ⟨dst, packet, mem_submissions.mpr (by simp)⟩
    · simp [hne] at hs
    · simp [hne] at hs
  | @learn s s' ip4 mac h =>
    obtain ⟨-, rfl⟩ := arpcacheInsert_ok h
    obtain ⟨r, -, he⟩ := List.mem_flatMap.mp ((List.mem_append.mp hs).resolve_left hne)
    obtain ⟨p, -, he⟩ := List.mem_map.mp he
    cases he

/-- A packet that does not have to wait leaves on the interface that it was submitted for. -/
theorem RunOf.direct_on (h : Reachable rtable s) {m : Nat} {out out' : Iface} {d : UInt32} {g : Frame}
    (hm : (m, out, d, q) ∈ submissions s.trace) (hs : .sent out' g (.direct m) ∈ s.trace) : out' = out := by
  have hinv := h.invariant (G := fun _ _ => True)
    (I := fun st => ∀ out g m, .sent out g (.direct m) ∈ st.router.trace →
      ∃ d q, (m, out, d, q) ∈ submissions st.router.trace)
    (fun env _ _ _ hs => by cases hs) (fun _ _ _ _ _ _ _ => trivial) ?_
  · obtain ⟨d', q', hm'⟩ := hinv out' g m hs
    exact ((RunOf.recorded h).eq_of_tag hm' hm).1
  · rintro act st st' - - hall hd out g m hs
    obtain ⟨new, htr⟩ := hd.trace
    by_cases hold : .sent out g (.direct m) ∈ st.router.trace
    · obtain ⟨d, q, hm⟩ := hall out g m hold
      refine ⟨d, q, ?_⟩
      rw [htr, submissions_append]
      exact List.mem_append_left _ hm
    · exact hd.direct_new hs hold

end Router

/-! ## A line of two routers -/

namespace Sample

/-- 10.0.2.2. -/
def uplink : Iface := ⟨0, station 3, 0x0a000202⟩

/-- Router `false` joins 10.0.1.0/24 to 10.0.2.0/24, and router `true` is behind it. -/
def line : Network Bool where
  rtable b := if b then [⟨0, 0, 0x0a000201, uplink⟩] else connected ++ [⟨0x0a000300, 0xffffff00, 0x0a000202, eth1⟩]
  reach b _ _ := {(!b, if b then eth1 else uplink)}

/-- The frame that a router has sent last. -/
def lastSent (b : Bool) (S : RelayState Bool) : Frame :=
  ((transmissions (S.router b).trace).getLast?.map (·.2.1)).getD []

/-- A frame that router `b` receives on `iface`. -/
def receive (b : Bool) (iface : Iface) (frame : Frame) : RelayInput Bool := .receive ⟨b, iface, frame⟩ (clockAt 0)

/-- Router `false` forwards `p` after the next hop has answered, and router `true` receives it: the states before
and after that. Then the source's address is told to both routers, and the message travels back: the state after. -/
def thereAndBack (p : Frame) : Option (RelayState Bool × RelayState Bool × RelayState Bool) :=
  (Runs.replay (fun _ _ => True) (line.relayExec 8)
    [receive false eth0 p, receive false eth1 (arpReply 0x0a000202 (station 3))] idle).bind fun S₁ =>
  (line.relayExec 8 (receive true uplink (lastSent false S₁)) S₁).bind fun S₂ =>
  (line.relayExec 8 (receive true uplink (arpReply 0x0a000102 (station 2))) S₂).bind fun S₃ =>
  (line.relayExec 8 (receive false eth1 (lastSent true S₃)) S₃).bind fun S₄ =>
  (line.relayExec 8 (receive false eth0 (arpReply 0x0a000102 (station 9))) S₄).map fun S => (S₁, S₂, S)

/-- Router `b` has forwarded `p` under the number `n`, and sent it as `g`. -/
def Hops (S : RelayState Bool) (b : Bool) (p : Frame) (n : Nat) (g : Frame) : Prop :=
  (∃ x ∈ S.log, x.frame = p ∧ x.router = b ∧ x.forwarded = some n) ∧
    ∃ e ∈ transmissions (S.router b).trace, e.2.1 = g ∧ e.2.2.tag? = some n

instance (S : RelayState Bool) (b : Bool) (p : Frame) (n : Nat) (g : Frame) : Decidable (Hops S b p n g) :=
  inferInstanceAs (Decidable (_ ∧ _))

theorem Hops.travels {S : RelayState Bool} {b : Bool} {p g : Frame} {n : Nat} (h : Hops S b p n g) :
    S.Travels p 1 g := by
  obtain ⟨⟨x, hx, rfl, rfl, hn⟩, ⟨out, g, o⟩, hs, rfl, ho⟩ := h
  exact .hop hx hn (mem_transmissions.mp hs) ho (.here g)

/-- The packet `p` came to router `true`, whose message about it came back. -/
def Returned (p : Frame) (S₁ S₂ S : RelayState Bool) : Prop :=
  Hops S₁ false p 0 (lastSent false S₁) ∧
    (∃ e ∈ submittedSince (S₁.router true) (S₂.router true), e.1 = 0) ∧
    (∃ e ∈ transmissions (S.router true).trace, e.2.1 = lastSent true S ∧ e.2.2.tag? = some 0) ∧
    Hops S false (lastSent true S) 1 (lastSent false S)

instance (p : Frame) (S₁ S₂ S : RelayState Bool) : Decidable (Returned p S₁ S₂ S) :=
  inferInstanceAs (Decidable (_ ∧ _))

theorem exists_thereAndBack {p : Frame} (h : ∃ x ∈ thereAndBack p, Returned p x.1 x.2.1 x.2.2) :
    ∃ S₁ S₂ S : RelayState Bool, line.RelayRun S₁ ∧
      line.RelayStep (receive true uplink (lastSent false S₁)) S₁ S₂ ∧ Runs.Later line.RelayStep S₂ S ∧
      Returned p S₁ S₂ S := by
  obtain ⟨⟨S₁, S₂, S⟩, hrun, hp⟩ := h
  simp only [thereAndBack, Option.mem_def, Option.bind_eq_some_iff, Option.map_eq_some_iff] at hrun
  obtain ⟨S₁', h₁, S₂', h₂, S₃, h₃, S₄, h₄, S', h₅, he⟩ := hrun
  cases he
  refine ⟨S₁, S₂, S, ?_, .of_exec _ _ _ h₂, ?_, hp⟩
  · exact Runs.RunOf.replayed Network.RelayStep.of_exec (.init ⟨fun _ => ⟨_, rfl⟩, rfl⟩) h₁
  · exact ((Relation.ReflTransGen.single ⟨_, .of_exec _ _ _ h₃⟩).tail ⟨_, .of_exec _ _ _ h₄⟩).tail
      ⟨_, .of_exec _ _ _ h₅⟩

/-- An echo request for router `true`. -/
def echoRequest : Frame := ipv4 5 32 64 1 0x0a000102 0x0a000202 (ping [1, 2, 3, 4])

/-- A packet for a network behind router `true` that comes no farther. -/
def probe : Frame := udp 0x0a000102 0x0a000305 2

end Sample

/-! ## The network -/

section Network

variable {ι : Type} [DecidableEq ι] {N : Network ι} {S₁ S₂ S : RelayState ι} {a : Arrival ι} {env : Env}

/-- The histories only grow. -/
theorem Network.RelayRun.later (h : N.RelayRun S) (hl : Runs.Later N.RelayStep S S₂) :
    N.RelayRun S₂ ∧ ∀ i e, e ∈ (S.router i).trace → e ∈ (S₂.router i).trace := by
  induction hl with
  | refl => exact ⟨h, fun _ _ => id⟩
  | tail _ hstep ih =>
    obtain ⟨hrun, htrace⟩ := ih
    obtain ⟨x, hstep⟩ := hstep
    exact ⟨hrun.step trivial hstep, fun i e he => hstep.trace hrun (htrace i e he)⟩

/-- The message that a router builds about a packet, after it was sent and forwarded. -/
theorem Network.RelayRun.message (h : N.RelayRun S₁) (hstep : N.RelayStep (.receive a env) S₁ S₂)
    (hl : Runs.Later N.RelayStep S₂ S) {type : UInt8}
    (ha : answerType (N.rtable a.router) a.iface a.frame = some type) {m : Nat} {out : Iface} {d : UInt32}
    (hm : (m, out, d, q) ∈ submittedSince (S₁.router a.router) (S₂.router a.router)) {out' : Iface} {g₀ : Frame}
    {o : Origin} (hs : .sent out' g₀ o ∈ (S.router a.router).trace) (ho : o.tag? = some m) {k : Nat}
    (hback : S.Travels g₀ k g) :
    ∃ rt s, longestPrefixMatch (N.rtable a.router) (sourceOf a.frame) = some rt ∧
      builtMessage a.frame type 0 rt s = .ok q ∧ Relayed k q g ∧ (Consistent q → Consistent g) ∧
      out = rt.iface ∧ (o = .direct m → out' = rt.iface) := by
  obtain ⟨hrun, hgrow⟩ := RelayRun.later (h.step trivial hstep) hl
  have hsub : .submitted m out d q ∈ (S.router a.router).trace :=
    hgrow _ _ (List.mem_of_mem_drop (mem_submissions.mp hm))
  obtain ⟨rt, hr, hb, hout⟩ : ∃ rt, longestPrefixMatch (N.rtable a.router) (sourceOf a.frame) = some rt ∧
      builtMessage a.frame type 0 rt { S₁.router a.router with env := env } = .ok q ∧ out = rt.iface := by
    cases hstep with
    | @receive _ _ _ r hstep =>
      have hr : Function.update S₁.router a.router r a.router = r := Function.update_self ..
      have hm' : (m, out, d, q) ∈
          submittedSince (S₁.router a.router) (Function.update S₁.router a.router r a.router) := hm
      rw [hr] at hm'
      exact answered_submission hstep ha hm'
  have hsame := RunOf.carries (hrun.reachable a.router) (Or.inl ⟨out', o, hs, ho⟩) (mem_submissions.mpr hsub)
  have h5 : 5 ≤ ihlOf g₀ := by
    rw [hsame.ihlOf, (builtMessage_ok hb).2.ihlOf]
  obtain ⟨hrelayed, hhere⟩ := hback.relayed hrun h5
  have hdirect : o = .direct m → out' = rt.iface := by
    rintro rfl
    exact (RunOf.direct_on (hrun.reachable a.router) (mem_submissions.mpr hsub) hs).trans hout
  refine ⟨rt, _, hr, hb, ?_⟩
  rcases Nat.eq_zero_or_pos k with rfl | hk
  · rw [hhere rfl]
    exact ⟨hsame.relayed, hsame.consistent, hout, hdirect⟩
  · have hall := hsame.relayed.trans hrelayed hk
    rw [Nat.zero_add] at hall
    exact ⟨hall, fun hc => hall.consistent hc hk, hout, hdirect⟩

/-- **A ping is answered through the network.** In every run, with any frames and sweep passes in between: when a
ping without options or padding, which any number of routers have forwarded, is received on the interface that it
is addressed to, then what the router sends for it, at once or when the next hop has answered, and after any
number of routers have forwarded that, returns to the source of the ping exactly what the ping carried. A receiver
accepts it. It was submitted for the interface of the router's route to the source of the ping, and comes from the
address of that interface, on which it also leaves unless it has to wait for its next hop. -/
theorem Network.ping_answered (h : N.RelayRun S₁) (hstep : N.RelayStep (.receive a env) S₁ S₂)
    (hl : Runs.Later N.RelayStep S₂ S) {j : Nat} (hout : S₁.Travels p j a.frame) (hd : destOf p = a.iface.ip)
    (h5 : ihlOf p = 5) (h8 : iphdrSize + icmphdrSize ≤ totLenOf p) (hlen : p.length = etherHdrSize + totLenOf p)
    {m : Nat} {out : Iface} {d : UInt32}
    (hm : (m, out, d, q) ∈ submittedSince (S₁.router a.router) (S₂.router a.router)) {out' : Iface} {g₀ : Frame}
    {o : Origin} (hs : .sent out' g₀ o ∈ (S.router a.router).trace) (ho : o.tag? = some m) {k : Nat}
    (hback : S.Travels g₀ k g) :
    Echoes p g ∧ Consistent g ∧ (ttlOf g).toNat + k = 64 ∧
      ∃ rt, longestPrefixMatch (N.rtable a.router) (sourceOf p) = some rt ∧ out = rt.iface ∧
        sourceOf g = rt.iface.ip ∧ (o = .direct m → out' = rt.iface) := by
  obtain ⟨hway, -⟩ := hout.relayed h (Nat.le_of_eq h5.symm)
  have ha : answerType (N.rtable a.router) a.iface a.frame = some 0 :=
    answerType_eq_zero.mpr (hway.destOf.trans hd)
  obtain ⟨rt, s, hr, hb, hrelayed, hcons, hiface, hdirect⟩ := h.message hstep hl ha hm hs ho hback
  have hmsg := (builtMessage_ok hb).2
  have h5' : ihlOf a.frame = 5 := hway.ihlOf.trans h5
  have htot : totLenOf a.frame = totLenOf p := hway.totLenOf
  have hlen' : a.frame.length = etherHdrSize + totLenOf a.frame := by rw [hway.length, htot, hlen]
  have hmax : a.frame.length ≤ etherHdrSize + 65535 := by
    rw [hlen']
    exact Nat.add_le_add_left (totLenOf_le _) _
  have hechoes : Echoes a.frame q := by
    refine (echoes_iff_of_built hb (Nat.le_of_eq h5'.symm) ?_ (Nat.le_of_eq hlen'.symm) hmax).mpr ⟨h5', hlen'⟩
    rw [h5', htot]
    exact h8
  obtain ⟨n, hn⟩ : ∃ n, a.frame.length = payloadOffset a.frame + icmphdrSize + n := by
    refine Nat.exists_eq_add_of_le ?_
    rw [hlen', htot, payloadOffset, h5', Nat.add_assoc]
    exact Nat.add_le_add_left h8 _
  obtain ⟨hconsistent, -⟩ := builtMessage_echo hb (Nat.le_of_eq h5'.symm) hn hmax
  have hq5 : 5 ≤ ihlOf q := Nat.le_of_eq hmsg.ihlOf.symm
  refine ⟨hechoes.relayed hway hrelayed (Nat.le_of_eq h5.symm) hq5, hcons hconsistent, ?_, rt, ?_, hiface, ?_,
    hdirect⟩
  · rw [hrelayed.ttl, ttlOf, hmsg.ttl]
    rfl
  · rw [← hway.sourceOf]
    exact hr
  · rw [hrelayed.sourceOf]
    exact hmsg.source

/-- The echo request and its reply wait for an address at every router on their way. -/
theorem Network.ping_answered_line : ∃ (g : Frame) (out : Iface), Echoes Sample.echoRequest g ∧ Consistent g ∧
    (ttlOf g).toNat + 1 = 64 ∧ ∃ rt, longestPrefixMatch (Sample.line.rtable true) (sourceOf Sample.echoRequest) =
      some rt ∧ out = rt.iface ∧ sourceOf g = rt.iface.ip := by
  have hd : destOf Sample.echoRequest = Sample.uplink.ip := by decide
  obtain ⟨S₁, S₂, S, hrun, hstep, hl, hout, ⟨⟨m, out, d, q⟩, hm, rfl⟩, ⟨⟨out', g₀, o⟩, hs, rfl, ho⟩, hback⟩ :=
    Sample.exists_thereAndBack (p := Sample.echoRequest) (by decide +kernel)
  obtain ⟨hechoes, hcons, httl, rt, hr, hout, hsource, -⟩ :=
    Network.ping_answered hrun hstep hl hout.travels hd (by decide) (by decide) (by decide) hm
      (mem_transmissions.mp hs) ho hback.travels
  exact ⟨_, out, hechoes, hcons, httl, rt, hr, hout, hsource⟩

/-- **A probe is reported by the router at its distance.** When a packet has been forwarded by all the routers that
its time to live allows, and the next one on its way is not its destination, then what that router sends is, at
whatever router it is looked at on its way back, an accepted report to the packet's source. It was submitted for
the interface of the router's route to that source, comes from the address of that interface, on which it also
leaves unless it has to wait for its next hop, and quotes the packet as it was sent but for its time to live and
header checksum. -/
theorem Network.probe_reported (h : N.RelayRun S₁) (hstep : N.RelayStep (.receive a env) S₁ S₂)
    (hl : Runs.Later N.RelayStep S₂ S) {j : Nat} (hout : S₁.Travels p j a.frame) (hd : destOf p ≠ a.iface.ip)
    (h5 : 5 ≤ ihlOf p) (httl : (ttlOf p).toNat = j + 1) {m : Nat} {out : Iface} {d : UInt32}
    (hm : (m, out, d, q) ∈ submittedSince (S₁.router a.router) (S₂.router a.router)) {out' : Iface} {g₀ : Frame}
    {o : Origin} (hs : .sent out' g₀ o ∈ (S.router a.router).trace) (ho : o.tag? = some m) {k : Nat}
    (hback : S.Travels g₀ k g) :
    icmpTypeOf g = some 11 ∧ destOf g = sourceOf p ∧ Consistent g ∧
      (∃ rt, longestPrefixMatch (N.rtable a.router) (sourceOf p) = some rt ∧ out = rt.iface ∧
        sourceOf g = rt.iface.ip ∧ (o = .direct m → out' = rt.iface)) ∧
      ∀ b < iphdrSize + 8, b ≠ 8 → b ≠ 10 → b ≠ 11 → (icmpData g)[b]? = p[etherHdrSize + b]? := by
  obtain ⟨hway, -⟩ := hout.relayed h h5
  have ha : answerType (N.rtable a.router) a.iface a.frame = some 11 := by
    have hleft := hway.ttl
    rw [answerType, if_neg (by rw [hway.destOf]; exact hd), if_pos (by omega)]
  obtain ⟨rt, s, hr, hb, hrelayed, hcons, hiface, hdirect⟩ := h.message hstep hl ha hm hs ho hback
  have hmsg := (builtMessage_ok hb).2
  obtain ⟨hconsistent, -, hdata⟩ := builtMessage_error hb (by decide)
  have hq5 : 5 ≤ ihlOf q := Nat.le_of_eq hmsg.ihlOf.symm
  refine ⟨?_, ?_, hcons hconsistent, ⟨rt, ?_, hiface, ?_, hdirect⟩, fun b hb28 h8 h10 h11 => ?_⟩
  · rw [hrelayed.icmpTypeOf hq5]
    exact hmsg.icmpTypeOf
  · rw [hrelayed.destOf, hmsg.dest, hway.sourceOf]
  · rw [← hway.sourceOf]
    exact hr
  · rw [hrelayed.sourceOf]
    exact hmsg.source
  · have hoffsets : etherHdrSize = 14 ∧ ipTtl = 22 ∧ ipCheck = 24 := ⟨rfl, rfl, rfl⟩
    rw [hrelayed.icmpData hq5, hdata, Buffer.getElem?_slice, if_pos hb28]
    exact hway.same _ (Nat.le_add_right _ _) (by omega) (by omega) (by omega)

/-- The probe goes no farther than the second router. -/
theorem Network.probe_reported_line : ∃ (g : Frame) (out : Iface), icmpTypeOf g = some 11 ∧
    destOf g = sourceOf Sample.probe ∧ Consistent g ∧
    (∃ rt, longestPrefixMatch (Sample.line.rtable true) (sourceOf Sample.probe) = some rt ∧ out = rt.iface ∧
      sourceOf g = rt.iface.ip) ∧
    ∀ b < iphdrSize + 8, b ≠ 8 → b ≠ 10 → b ≠ 11 → (icmpData g)[b]? = Sample.probe[etherHdrSize + b]? := by
  have hd : destOf Sample.probe ≠ Sample.uplink.ip := by decide
  obtain ⟨S₁, S₂, S, hrun, hstep, hl, hout, ⟨⟨m, out, d, q⟩, hm, rfl⟩, ⟨⟨out', g₀, o⟩, hs, rfl, ho⟩, hback⟩ :=
    Sample.exists_thereAndBack (p := Sample.probe) (by decide +kernel)
  obtain ⟨htype, hdest, hcons, ⟨rt, hr, hout, hsource, -⟩, hquote⟩ :=
    Network.probe_reported hrun hstep hl hout.travels hd (by decide) (by decide) hm
      (mem_transmissions.mp hs) ho hback.travels
  exact ⟨_, out, htype, hdest, hcons, ⟨rt, hr, hout, hsource⟩, hquote⟩

end Network

end StaticRouter
