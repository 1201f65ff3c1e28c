import StaticRouter.Emission
import StaticRouter.Proofs.DatagramProofs
import StaticRouter.Proofs.MessageProofs

/-!
# Proofs: what leaves the router

A mapping is told in the step that learns it, so the table never answers with anything but what was told last.
Whatever is submitted comes from `icmp_send_packet` or `ip_forward_packet`, and each of them has made its header.
-/

namespace StaticRouter

open CMem

variable {rtable : List RtEntry} {is : List Input} {i : Input}

/-! ## What was told last -/

theorem lastTold_append (is : List Input) (i : Input) (ip4 : UInt32) : lastTold (is ++ [i]) ip4 =
    if (told i).any (·.1 = ip4) then (told i).map (·.2) else lastTold is ip4 := by
  unfold lastTold
  rw [List.filterMap_append, List.reverse_append]
  cases ht : told i with
  | none => simp [ht]
  | some x => by_cases hx : x.1 = ip4 <;> simp [ht, hx]

theorem lastTold_of_none (ht : told i = none) (ip4 : UInt32) : lastTold (is ++ [i]) ip4 = lastTold is ip4 := by
  rw [lastTold_append, ht]
  rfl

theorem lastTold_self {ip4 : UInt32} {mac : Mac} (ht : told i = some (ip4, mac)) :
    lastTold (is ++ [i]) ip4 = some mac := by
  rw [lastTold_append, ht]
  simp

theorem lastTold_other {ip4 ip4' : UInt32} {mac : Mac} (ht : told i = some (ip4, mac)) (hne : ip4' ≠ ip4) :
    lastTold (is ++ [i]) ip4' = lastTold is ip4' := by
  have hno : (told i).any (·.1 = ip4') = false := by simp [ht, hne.symm]
  rw [lastTold_append, hno]
  rfl

namespace ArpTable.FollowsTold

variable {t : ArpTable}

theorem zero : ArpTable.zero.FollowsTold [] := by
  intro e he hv
  rw [List.eq_of_mem_replicate he] at hv
  cases hv

theorem lookup (h : t.FollowsTold is) {ip4 : UInt32} {mac : Mac} (hl : arpcacheLookup t ip4 = some mac) :
    lastTold is ip4 = some mac := by
  obtain ⟨e, he, ⟨rfl, hv⟩, rfl⟩ := exists_of_arpcacheLookup hl
  exact h e he hv

theorem untold (h : t.FollowsTold is) (ht : told i = none) : t.FollowsTold (is ++ [i]) := by
  intro e he hv
  rw [lastTold_of_none ht]
  exact h e he hv

theorem insert (h : t.FollowsTold is) {ip4 : UInt32} {mac : Mac} (ht : told i = some (ip4, mac))
    (before : ArpCacheEntry) (c : Clock) : (tableInsert before ip4 mac t c).1.FollowsTold (is ++ [i]) := by
  intro e he hv
  rcases mem_tableInsert he with ⟨hold, hne⟩ | ⟨rfl, rfl, -⟩
  · rw [lastTold_other ht hne]
    exact h e hold hv
  · exact lastTold_self ht

theorem expire (h : t.FollowsTold is) (c : Clock) : (tableExpire t c).1.FollowsTold is := by
  intro e he hv
  obtain ⟨e', he', hip, hmac, hvalid⟩ := mem_expireLoop he
  rw [hip, hmac]
  exact h e' he' (hvalid hv)

end ArpTable.FollowsTold

/-! ## Where frames go -/

/-- What an action does to the table, unless it learns a mapping. -/
theorem ArpTable.FollowsTold.does {act : Act} {st st' : Store} (h : st.router.table.FollowsTold is)
    (hact : ∀ ip4 mac, act ≠ .learn ip4 mac) (hd : Does act st st') : st'.router.table.FollowsTold is := by
  cases hd with
  | submit ph hs =>
    obtain ⟨q, -, ⟨mac, frame, -, -, rfl⟩ | ⟨-, -, rfl⟩ | ⟨-, -, rfl⟩⟩ := ifaceSendPacketByArp_cases hs
    · exact h
    · exact h
    · exact h
  | learn => exact absurd rfl (hact _ _)
  | expire s => exact h.expire s.env.clock
  | _ => exact h

theorem slice_dhost {p g : Frame} {mac : Mac} (hw : p.write etherDhost mac.val = .ok g) :
    g.slice etherDhost ethAlen = mac.val := by
  have hs := Buffer.slice_write_self hw
  rwa [mac.property] at hs

/-- A packet that an action sends goes where the table answers after it. -/
theorem Does.sent_to {act : Act} {st st' : Store} (hrec : st.Recorded) (hd : Does act st st') {n : Nat}
    {out : Iface} {g : Frame} {o : Origin} (hs : .sent out g o ∈ st'.router.trace)
    (hne : .sent out g o ∉ st.router.trace) (ho : o.tag? = some n) :
    ∃ iface d q mac, (n, iface, d, q) ∈ submissions st'.router.trace ∧
      arpcacheLookup st'.router.table d = some mac ∧ g.slice etherDhost ethAlen = mac.val := by
  have hone : ∀ e, .sent out g o ∈ st.router.trace ++ [e] → .sent out g o = e := fun e hm =>
    (List.mem_append.mp hm).elim (fun hm => absurd hm hne) List.mem_singleton.mp
  cases hd with
  | env => exact absurd hs hne
  | expire => exact absurd hs hne
  | retry => exact absurd hs hne
  | begin => exact absurd hs hne
  | originate => cases hone _ hs
  | giveUp => cases hone _ hs
  | unlink => cases hone _ hs
  | arp =>
    cases hone _ hs
    cases ho
  | @submit s s' iface dst packet ph h =>
    obtain ⟨q, -, ⟨mac, frame, hl, hw, rfl⟩ | ⟨-, -, rfl⟩ | ⟨-, -, rfl⟩⟩ := ifaceSendPacketByArp_cases h
    · have hnew : out = iface ∧ g = frame ∧ o = .direct s.next := by simpa [hne] using hs
      obtain ⟨rfl, rfl, rfl⟩ := hnew
      obtain rfl : s.next = n := Option.some.inj ho
      exact ⟨out, dst, packet, mac, mem_submissions.mpr (by simp), hl, slice_dhost hw⟩
    · simp [hne] at hs
    · have hnew : o = .arp := by
        simp [hne] at hs
        exact hs.2.2
      rw [hnew] at ho
      cases ho
  | @learn s s' ip4 mac h =>
    obtain ⟨hlen, rfl⟩ := arpcacheInsert_ok h
    obtain ⟨r, hr, he⟩ := List.mem_flatMap.mp ((List.mem_append.mp hs).resolve_left hne)
    obtain ⟨p, hp, he⟩ := List.mem_map.mp he
    obtain ⟨rfl, rfl, rfl⟩ : r.iface = out ∧ p.packet.splice etherDhost mac.val = g ∧
        .flush p.tag ip4 = o := by simpa using he
    obtain ⟨hmem, hip⟩ := List.mem_filter.mp hr
    obtain rfl : r.ip4 = ip4 := by simpa using hip
    obtain ⟨iface, q, hx, -⟩ := hrec.waiting r hmem p hp
    obtain rfl : p.tag = n := by simpa [Origin.tag?] using ho
    have hw : p.packet.write etherDhost mac.val = .ok (p.packet.splice etherDhost mac.val) := by
      refine Buffer.write_ok.mpr ⟨?_, rfl⟩
      rw [mac.property]
      simpa using hlen r hmem rfl p hp
    refine ⟨iface, r.ip4, q, mac, ?_, arpcacheLookup_tableInsert_self _ _ _ _ _, slice_dhost hw⟩
    rw [submissions_append]
    exact List.mem_append_left _ hx

/-- A packet that is sent goes to the station that was told last for the next hop that it was submitted for. -/
def GoesWhereTold (is : List Input) (s s' : Router) : Prop :=
  ∀ out g o n, .sent out g o ∈ s'.trace → .sent out g o ∉ s.trace → o.tag? = some n →
    ∃ iface d q mac, (n, iface, d, q) ∈ submissions s'.trace ∧ lastTold is d = some mac ∧
      g.slice etherDhost ethAlen = mac.val

/-- Actions that learn nothing. -/
theorem Path.goesWhereTold {G : Act → Store → Prop} {st st' : Store} (hp : Path G st st')
    (hG : ∀ act st, G act st → ∀ ip4 mac, act ≠ .learn ip4 mac) (hw : st.Wf) (hrec : st.Recorded)
    (h : st.router.table.FollowsTold is) :
    st'.router.table.FollowsTold is ∧ GoesWhereTold is st.router st'.router := by
  have hinv := hp.invariant (I := fun st' => (st'.Wf ∧ st'.Recorded) ∧
    st'.router.table.FollowsTold is ∧ GoesWhereTold is st.router st'.router) ?_
    ⟨⟨hw, hrec⟩, h, fun _ _ _ _ hs hne => absurd hs hne⟩
  · exact hinv.2
  · rintro act st₁ st₂ hg ⟨⟨hw₁, hrec₁⟩, h₁, hgo₁⟩ hd
    have h₂ := h₁.does (hG act st₁ hg) hd
    refine ⟨⟨hw₁.does hd, hrec₁.does hw₁ hd⟩, h₂, fun out g o n hs hne ho => ?_⟩
    by_cases hold : .sent out g o ∈ st₁.router.trace
    · obtain ⟨iface, d, q, mac, hx, hrest⟩ := hgo₁ out g o n hold hne ho
      obtain ⟨new, htr⟩ := hd.trace
      refine ⟨iface, d, q, mac, ?_, hrest⟩
      rw [htr, submissions_append]
      exact List.mem_append_left _ hx
    · obtain ⟨iface, d, q, mac, hx, hl, hg⟩ := hd.sent_to hrec₁ hs hold ho
      exact ⟨iface, d, q, mac, hx, h₂.lookup hl, hg⟩

/-- One step. -/
theorem Step.goesWhereTold {s s' : Router} (hstep : Step rtable i s s') (hw : Store.Wf ⟨s, none⟩)
    (hrec : Store.Recorded ⟨s, none⟩) (h : s.table.FollowsTold is) :
    s'.table.FollowsTold (is ++ [i]) ∧ GoesWhereTold (is ++ [i]) s s' := by
  rcases hstep.learns hw with ⟨ht, hpath⟩ | ⟨iface, packet, env, ip4, mac, s₁, rfl, ht, h₁, hlast⟩
  · exact hpath.goesWhereTold (fun _ _ hact => hact) hw hrec (h.untold ht)
  · have hd : Does (.learn ip4 mac) ⟨{ s with env := env }, none⟩ ⟨s₁, none⟩ := .learn h₁
    have htable : s₁.table.FollowsTold (is ++ [.frame iface packet env]) := by
      obtain ⟨-, rfl⟩ := arpcacheInsert_ok h₁
      exact h.insert ht _ _
    have hrec' : Store.Recorded ⟨{ s with env := env }, none⟩ := hrec.does hw (.env s none env)
    have hgo : GoesWhereTold (is ++ [.frame iface packet env]) s s₁ := by
      intro out g o n hs hne ho
      obtain ⟨iface', d, q, mac', hx, hl, hg⟩ := hd.sent_to hrec' hs hne ho
      exact ⟨iface', d, q, mac', hx, htable.lookup hl, hg⟩
    rcases hlast with rfl | ⟨frame, rfl⟩
    · exact ⟨htable, hgo⟩
    · -- the reply that follows is no packet from a queue
      refine ⟨htable, fun out g o n hs hne ho => ?_⟩
      rcases List.mem_append.mp hs with hs | hs
      · obtain ⟨iface', d, q, mac', hx, hrest⟩ := hgo out g o n hs hne ho
        refine ⟨iface', d, q, mac', ?_, hrest⟩
        rw [ifaceSendPacket, Router.log, submissions_append]
        exact List.mem_append_left _ hx
      · cases List.mem_singleton.mp hs
        cases ho

/-- **Frames go to the station that was told last.** After any run, a packet that the next step sends, at once or
from a queue, goes to the hardware address that the latest ARP packet from the packet's next hop told, this
step's frame included: to no address that was not told for that hop, and to no address told before the latest. -/
theorem frames_go_where_told {env : Env} {s s' : Router}
    (hrun : Runs.Steps (Step rtable) (fun _ _ => True) is (arpcacheInit env) s) (hstep : Step rtable i s s') :
    ∀ out g o n, .sent out g o ∈ s'.trace → .sent out g o ∉ s.trace → o.tag? = some n →
      ∃ iface d q mac, .submitted n iface d q ∈ s'.trace ∧ lastTold (is ++ [i]) d = some mac ∧
        g.slice etherDhost ethAlen = mac.val := by
  have hreach : Reachable rtable s := hrun.runOf (.init ⟨env, rfl⟩)
  have htable : s.table.FollowsTold is := by
    clear hstep hreach
    generalize hs₀ : arpcacheInit env = s₀ at hrun
    induction hrun with
    | refl =>
      subst hs₀
      exact .zero
    | @step is j s₀ s₁ s₂ hsteps hc hj ih =>
      subst hs₀
      have hreach : Reachable rtable s₁ := hsteps.runOf (.init ⟨env, rfl⟩)
      exact (hj.goesWhereTold hreach.wf hreach.recorded (ih rfl)).1
  intro out g o n hs hne ho
  obtain ⟨iface, d, q, mac, hx, hrest⟩ :=
    (hstep.goesWhereTold hreach.wf hreach.recorded htable).2 out g o n hs hne ho
  exact ⟨iface, d, q, mac, mem_submissions.mp hx, hrest⟩

/-- The station 10.0.2.2 has answered twice, with another address the second time; the packet after that goes
there. -/
theorem frames_go_where_told_moved : ∃ s s' : Router, ∃ g, sentTags s.trace = [0] ∧
    .sent Sample.eth1 g (.direct 1) ∈ s'.trace ∧ g.slice etherDhost ethAlen = (Sample.station 8).val := by
  let last : Input := .frame Sample.eth0 (Sample.udp 0x0a000102 0x0a000202 64) (Sample.clockAt 1)
  let is : List Input := [last,
    .frame Sample.eth1 (Sample.arpReply 0x0a000202 (Sample.station 9)) (Sample.clockAt 1),
    .frame Sample.eth1 (Sample.arpReply 0x0a000202 (Sample.station 8)) (Sample.clockAt 1)]
  have hrun : ((Runs.replay (fun _ (_ : Router) => True) (exec Sample.connected 8) is
      (arpcacheInit (Sample.clockAt 0))).any fun s : Router => decide (sentTags s.trace = [0] ∧
        (exec Sample.connected 8 last s).any (fun s' : Router => decide (submittedTo 0x0a000202 s'.trace = [0, 1] ∧
          ∃ x ∈ transmissions s'.trace, x.1 = Sample.eth1 ∧ x.2.2 = .direct 1)) = true)) = true := by
    decide +kernel
  obtain ⟨s, hs, hold, hlast⟩ := Runs.Steps.of_replay Step.of_exec hrun
  cases hs' : exec Sample.connected 8 last s with
  | none =>
    rw [hs'] at hlast
    cases hlast
  | some s' =>
  rw [hs'] at hlast
  obtain ⟨hto, ⟨out, g, o⟩, hx, rfl, rfl⟩ := of_decide_eq_true hlast
  have hsent : .sent Sample.eth1 g (.direct 1) ∈ s'.trace := mem_transmissions.mp hx
  have hne : .sent Sample.eth1 g (.direct 1) ∉ s.trace := by
    intro hm
    have hmem := mem_sentTags.mpr ⟨_, _, _, hm, rfl⟩
    rw [hold] at hmem
    exact absurd (List.mem_singleton.mp hmem) (by decide)
  have hstep : Step Sample.connected last s s' := Step.of_exec _ _ _ hs'
  have hreach : Reachable Sample.connected s' := (hs.runOf (.init ⟨_, rfl⟩)).step trivial hstep
  obtain ⟨iface, d, q, mac, hsub, htold, hg⟩ := frames_go_where_told hs hstep _ _ _ 1 hsent hne rfl
  obtain ⟨iface', q', hsub'⟩ := mem_submittedTo.mp (show 1 ∈ submittedTo 0x0a000202 s'.trace by simp [hto])
  obtain ⟨-, rfl, -⟩ := hreach.recorded.eq_of_tag (mem_submissions.mpr hsub) hsub'
  have hmac : lastTold (is ++ [last]) 0x0a000202 = some (Sample.station 8) := by decide
  cases htold.symm.trans hmac
  exact ⟨s, s', g, hold, hsent, hg⟩

/-! ## What is submitted -/

variable {iface : Iface} {dst : UInt32} {packet inPkt q g : Frame} {s s' : Router}

/-- The datagram does not change on the way. -/
theorem Outgoing.of_same (h : Outgoing rtable iface dst q) (hs : SameDatagram q g) :
    Outgoing rtable iface dst g where
  long := by
    rw [hs.1]
    exact h.long
  alive := by
    rw [hs.ttlOf]
    exact h.alive
  header h5 := by
    rw [hs.ihlOf] at h5 ⊢
    rw [hs.2 _ _ (Nat.le_refl _)]
    exact h.header h5
  route := by
    rw [hs.destOf]
    exact h.route

/-- A header that `ip_init_hdr` has made verifies. -/
theorem checksum_of_checked {len id : UInt16} {src dst : UInt32}
    (h : Checked (headerStart len id 1) (Buffer.be32 src ++ Buffer.be32 dst) (q.slice etherHdrSize iphdrSize)) :
    ihlOf q = 5 ∧ checksum (q.slice etherHdrSize iphdrSize) 0 = .ok 0 := by
  refine ⟨ihlOf_checked h, ?_⟩
  have hlen : (q.slice etherHdrSize iphdrSize).length = 20 := by
    obtain ⟨c, -, he⟩ := h
    rw [he]
    rfl
  exact checksum_eq_zero (by rw [hlen]) (by rw [hlen]; decide) (h.verifies (by rw [length_headerStart])
    (by simp [length_headerStart]))

theorem icmpEchoReply_header {buf : Frame} {ihl : Nat} {src dst : UInt32} {code : UInt8} {id : UInt16}
    (h : icmpEchoReply buf inPkt ihl src dst code id = .ok q) : ∃ len : UInt16,
      Checked (headerStart len id 1) (Buffer.be32 src ++ Buffer.be32 dst) (q.slice etherHdrSize iphdrSize) := by
  simp only [icmpEchoReply, bind_ok] at h
  obtain ⟨p₁, h₁, p₂, h₂, idSeq, -, p₃, h₃, data, -, p₄, h₄, sum, -, h₅⟩ := h
  refine ⟨.ofNat (sizeSub inPkt.length etherHdrSize), ?_⟩
  rw [Buffer.slice_write h₅ (Or.inl (by decide)), Buffer.slice_write h₄ (Or.inl (by decide)),
    Buffer.slice_write h₃ (Or.inl (by decide)), Buffer.slice_write h₂ (Or.inl (by decide))]
  exact (ipInitHdr_layout h₁).1

/-- The router's own message. -/
theorem outgoing_builtMessage {type code : UInt8} {rt : RtEntry}
    (hr : longestPrefixMatch rtable (sourceOf inPkt) = some rt) (h : builtMessage inPkt type code rt s = .ok q) :
    Outgoing rtable rt.iface (sourceOf inPkt) q := by
  obtain ⟨-, hmsg⟩ := builtMessage_ok h
  obtain ⟨h5, hsum⟩ : ihlOf q = 5 ∧ checksum (q.slice etherHdrSize iphdrSize) 0 = .ok 0 := by
    unfold builtMessage at h
    split_ifs at h
    · obtain ⟨len, hh⟩ := icmpEchoReply_header h
      exact checksum_of_checked hh
    · exact checksum_of_checked (icmpError_layout h).1
  refine ⟨?_, ?_, fun _ => ?_, rt, ?_, rfl, Or.inl hmsg.dest.symm⟩
  · have hlen := congrArg List.length hmsg.type
    simp only [Buffer.slice, List.length_take, List.length_drop, List.length_singleton] at hlen
    have : icmpHdr = 34 ∧ etherHdrSize + iphdrSize = 34 := ⟨rfl, rfl⟩
    omega
  · rw [ttlOf, hmsg.ttl]
    decide
  · rw [h5]
    exact hsum
  · rw [hmsg.dest]
    exact hr

/-- The forwarded packet. -/
theorem outgoing_forwarded {ttl : UInt8} {rt : RtEntry} (hl : etherHdrSize + iphdrSize ≤ packet.length)
    (h2 : 2 ≤ ttl.toNat) (hr : longestPrefixMatch rtable (destOf packet) = some rt)
    (hq : forwardedPacket packet ttl = .ok q) :
    Outgoing rtable rt.iface (if rt.gw = 0 then destOf packet else rt.gw) q where
  long := by
    rw [forwardedPacket_length hq]
    exact hl
  alive := by
    have hhops := forwardedPacket_hops hq h2
    omega
  header h5 := by
    have hsame : ihlOf q = ihlOf packet := by
      obtain ⟨p, sum, hp, -, hq⟩ := forwardedPacket_ok hq
      rw [ihlOf, Buffer.slice_write hq (Or.inl (by decide)), Buffer.slice_write hp (Or.inl (by decide))]
      rfl
    rw [hsame] at h5 ⊢
    exact forwardedPacket_checksum hq (readIhl_eq (Nat.le_trans (by decide) hl)) h5
  route := by
    rw [forwardedPacket_destOf hq]
    refine ⟨rt, hr, rfl, ?_⟩
    split_ifs with hgw
    · exact Or.inl rfl
    · exact Or.inr ⟨hgw, rfl⟩

/-- Every packet that was submitted goes out as it should, and so does every ARP frame. -/
structure AllOutgoing (rtable : List RtEntry) (s : Router) : Prop where
  submitted : ∀ n iface d q, .submitted n iface d q ∈ s.trace → Outgoing rtable iface d q
  arp : ∀ out g, .sent out g .arp ∈ s.trace → ArpOf out g

namespace AllOutgoing

theorem of_trace {new : List Event} (h : AllOutgoing rtable s) (htr : s'.trace = s.trace ++ new)
    (hsub : ∀ n iface d q, .submitted n iface d q ∈ new → Outgoing rtable iface d q)
    (harp : ∀ out g, .sent out g .arp ∈ new → ArpOf out g) : AllOutgoing rtable s' where
  submitted n iface d q hm := by
    rw [htr] at hm
    exact (List.mem_append.mp hm).elim (h.submitted n iface d q) (hsub n iface d q)
  arp out g hm := by
    rw [htr] at hm
    exact (List.mem_append.mp hm).elim (h.arp out g) (harp out g)

/-- An event that is neither a submission nor an ARP frame. -/
theorem log {e : Event} (h : AllOutgoing rtable s) (hsub : ∀ n iface d q, e ≠ .submitted n iface d q)
    (harp : ∀ out g, e ≠ .sent out g .arp) : AllOutgoing rtable (s.log e) :=
  h.of_trace rfl (fun n i d q hm => absurd (List.mem_singleton.mp hm).symm (hsub n i d q))
    fun out g hm => absurd (List.mem_singleton.mp hm).symm (harp out g)

theorem logArp {out : Iface} (h : AllOutgoing rtable s) (hg : ArpOf out g) :
    AllOutgoing rtable (ifaceSendPacket out g .arp s) := by
  refine h.of_trace rfl (by simp) fun out' g' hm => ?_
  cases List.mem_singleton.mp hm
  exact hg

theorem submit (h : AllOutgoing rtable s) (hq : Outgoing rtable iface dst q)
    (hs : ifaceSendPacketByArp iface dst q s = .ok s') : AllOutgoing rtable s' where
  submitted n i d p hm := by
    rcases (ifaceSendPacketByArp_submitted hs n i d p).mp hm with hm | ⟨-, rfl, rfl, rfl⟩
    · exact h.submitted n i d p hm
    · exact hq
  arp out g hm := by
    obtain ⟨_, -, ⟨mac, frame, -, -, rfl⟩ | ⟨-, -, rfl⟩ | ⟨-, -, rfl⟩⟩ := ifaceSendPacketByArp_cases hs
    · exact h.arp out g (by simpa using hm)
    · exact h.arp out g (by simpa using hm)
    · rcases List.mem_append.mp hm with hm | hm
      · exact h.arp out g (by simpa using hm)
      · cases List.mem_singleton.mp hm
        exact Or.inl ⟨dst, rfl⟩

theorem icmpSendPacket {type code : UInt8} (h : AllOutgoing rtable s) (ht : OwnType type)
    (hs : icmpSendPacket rtable inPkt type code s = .ok s') : AllOutgoing rtable s' := by
  rcases icmpSendPacket_cases ht hs with ⟨-, rfl⟩ | ⟨rt, q, hr, hq, hs⟩
  · exact h
  · have hdrawn : AllOutgoing rtable s.drawn := ⟨h.submitted, h.arp⟩
    exact (hdrawn.log (by simp) (by simp)).submit (outgoing_builtMessage hr hq) hs

theorem handlePacket (h : AllOutgoing rtable s) (hs : handlePacket rtable iface packet s = .ok s') :
    AllOutgoing rtable s' := by
  simp only [StaticRouter.handlePacket, bind_ok] at hs
  obtain ⟨type, ht, hs⟩ := hs
  split_ifs at hs
  · rcases handleIpPacket_cases hs with ⟨type', -, hreason, hs'⟩ | ⟨rt, q, ha, -, hr, hq, hs'⟩
    · exact h.icmpSendPacket hreason.ownType hs'
    · have h2 := (answerType_eq_none.mp ha).2.1
      exact h.submit (outgoing_forwarded (handleIpPacket_length hs) h2 hr hq) hs'
  · obtain ⟨ea, s₁, -, h₁, rfl⟩ := handleArpPacket_cases hs
    have hflush : AllOutgoing rtable s₁ := by
      refine h.of_trace (congrArg Router.trace (arpcacheInsert_ok h₁).2) (fun n i d p hm => ?_)
        fun out g hm => ?_
      · have hx := mem_submissions.mpr hm
        rw [submissions_flush] at hx
        cases hx
      · obtain ⟨r, -, he⟩ := List.mem_flatMap.mp hm
        obtain ⟨p, -, he⟩ := List.mem_map.mp he
        cases he
    split_ifs
    · rcases arpSendReply_cases iface ea s₁ with he | ⟨sha, he⟩
      · rw [he]
        exact hflush
      · rw [he]
        exact hflush.logArp (Or.inr ⟨sha, _, _, _, rfl⟩)
    · exact hflush
  · exact Except.ok.inj hs ▸ h

theorem sweepPacket {node tag : Nat} (h : AllOutgoing rtable s)
    (hs : sweepPacket rtable node tag s = .ok s') : AllOutgoing rtable s' := by
  obtain ⟨-, -, -, pkt, -, -, -, s₁, h₁, rfl⟩ := sweepPacket_cases hs
  have hall : AllOutgoing rtable s₁ := h.icmpSendPacket (Or.inr (Or.inl rfl)) h₁
  refine log ⟨hall.submitted, hall.arp⟩ ?_ ?_
  · simp
  · simp

theorem sweepReq {fuel node : Nat} (h : AllOutgoing rtable s) (hs : sweepReq rtable fuel node s = .ok s') :
    AllOutgoing rtable s' := by
  obtain ⟨req, -, -, ⟨-, s₁, h₁, rfl⟩ | ⟨-, -, rfl⟩ | ⟨-, -, rfl⟩⟩ := sweepReq_cases hs
  · have hall : AllOutgoing rtable s₁ :=
      safeLoop_invariant (I := AllOutgoing rtable) (fun _ _ _ h hb => h.sweepPacket hb) h h₁
    refine log ⟨hall.submitted, hall.arp⟩ ?_ ?_
    · simp
    · simp
  · exact logArp ⟨h.submitted, h.arp⟩ (Or.inl ⟨req.ip4, rfl⟩)
  · exact ⟨h.submitted, h.arp⟩

theorem step {i : Input} (h : AllOutgoing rtable s) (hs : Step rtable i s s') : AllOutgoing rtable s' := by
  cases hs with
  | @frame iface packet env _ _ hs =>
    have henv : AllOutgoing rtable { s with env := env } := ⟨h.submitted, h.arp⟩
    exact henv.handlePacket hs
  | @sweep fuel env _ _ hs =>
    have henv : AllOutgoing rtable (sweepTable { s with env := env }) := ⟨h.submitted, h.arp⟩
    exact safeLoop_invariant (I := AllOutgoing rtable) (fun _ _ _ h hb => h.sweepReq hb) henv hs

end AllOutgoing

theorem RunOf.allOutgoing (h : Reachable rtable s) : AllOutgoing rtable s := by
  refine Runs.RunOf.invariant (I := AllOutgoing rtable) ?_ (fun i s s' _ _ h hs => h.step hs) h
  rintro s ⟨env, rfl⟩
  exact ⟨by simp [arpcacheInit], by simp [arpcacheInit]⟩

/-- A packet that was submitted leaves in an Ethernet frame of IPv4. -/
theorem RunOf.sent_ip (h : Reachable rtable s) {out : Iface} {o : Origin} {n : Nat}
    (hs : .sent out g o ∈ s.trace) (ho : o.tag? = some n) : g.readU16 etherType = .ok ethPIp := by
  have hinv := h.invariant (G := fun _ _ => True)
    (I := fun st => st.Recorded ∧ ∀ out g o n, .sent out g o ∈ st.router.trace → o.tag? = some n →
      g.readU16 etherType = .ok ethPIp)
    (fun env => ⟨Store.Recorded.init env, fun _ _ _ _ hs => by cases hs⟩)
    (fun _ _ _ _ _ _ _ => trivial) ?_
  · exact hinv.2 out g o n hs ho
  · rintro act st st' hw - ⟨hrec, hall⟩ hd
    refine ⟨hrec.does hw hd, fun out g o n hs ho => ?_⟩
    by_cases hold : .sent out g o ∈ st.router.trace
    · exact hall out g o n hold ho
    · obtain ⟨iface, d, q, q', mac, hf, hwrite, -⟩ := hd.sent_new hrec hs hold ho
      exact (hf.sent hwrite).2

/-- **Everything that the router sends is in order.** In every run, each frame that it sends is an ARP frame with
the interface's own hardware address, which asks all stations for one address or answers one station, or it is
an IPv4 packet that was submitted: for the interface of the route to its destination and for that route's
gateway or the destination itself, with some time left to live. The header of such a packet verifies if its length
field says five words or more; a packet with a shorter one is forwarded with whatever checksum came out. -/
theorem sends_in_order (h : Reachable rtable s) :
    ∀ out g o, .sent out g o ∈ s.trace → Emitted rtable s.trace out g o := by
  have hall := RunOf.allOutgoing h
  have htagged : ∀ out g o n, .sent out g o ∈ s.trace → o.tag? = some n →
      g.readU16 etherType = .ok ethPIp ∧
        ∃ iface d q, .submitted n iface d q ∈ s.trace ∧ Outgoing rtable iface d g := by
    intro out g o n hs ho
    obtain ⟨iface, d, q, hx, hsame⟩ := h.sent_sameDatagram hs ho
    have hsub := mem_submissions.mp hx
    exact ⟨RunOf.sent_ip h hs ho, iface, d, q, hsub, (hall.submitted n iface d q hsub).of_same hsame⟩
  intro out g o hs
  cases o with
  | arp => exact hall.arp out g hs
  | direct n => exact htagged out g _ n hs rfl
  | flush n ip4 => exact htagged out g _ n hs rfl

/-- A packet waits, is asked for twice and leaves; the next one is out of time and is answered. -/
theorem sends_in_order_answered : ∃ s : Router, (transmissions s.trace).map (·.2.2) =
      [.arp, .arp, .flush 0 0x0a000202, .arp] ∧
    ∀ out g o, .sent out g o ∈ s.trace → Emitted Sample.connected s.trace out g o := by
  obtain ⟨s, hs, hp⟩ := RunOf.of_replay Sample.connected (fun _ _ => True) 8
    [.frame Sample.eth0 (Sample.udp 0x0a000102 0x0a000202 64) (Sample.clockAt 0), .sweep (Sample.clockAt 1),
      .frame Sample.eth1 (Sample.arpReply 0x0a000202 (Sample.station 9)) (Sample.clockAt 1),
      .frame Sample.eth0 (Sample.udp 0x0a000102 0x0a000202 1) (Sample.clockAt 1)]
    (Sample.clockAt 0) (fun s => (transmissions s.trace).map (·.2.2) =
      [.arp, .arp, .flush 0 0x0a000202, .arp]) (by decide +kernel)
  exact ⟨s, hp, sends_in_order hs⟩

end StaticRouter
