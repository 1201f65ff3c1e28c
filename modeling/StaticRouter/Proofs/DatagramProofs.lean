import StaticRouter.Proofs.HistoryProofs

/-!
# Proofs: forwarding preserves the datagram

A forwarded packet keeps its bytes but for the Ethernet header, the time to live and the checksum,
whether it leaves at once or after any time in a queue.
-/

namespace StaticRouter

open CMem

variable {rtable : List RtEntry}

/-! ## The forwarded packet -/

/-- The checksum that forwarding writes verifies. -/
theorem forwardedPacket_checksum {packet q : Frame} {ttl : UInt8} {ihl : Nat}
    (h : forwardedPacket packet ttl = .ok q) (hihl : readIhl packet = .ok ihl) (h5 : 5 ≤ ihl) :
    checksum (q.slice etherHdrSize (ihl * 4)) 0 = .ok 0 := by
  obtain ⟨p, sum, hp, hs, hq⟩ := forwardedPacket_ok h
  have hihl' : readIhl p = .ok ihl := by
    rw [readIhl_ok] at hihl ⊢
    obtain ⟨b, hb, he⟩ := hihl
    obtain ⟨hlen, rfl⟩ := Buffer.readU8_ok.mp hb
    refine ⟨_, Buffer.readU8_ok.mpr ⟨by rw [Buffer.length_write hp]; exact hlen, ?_⟩, he⟩
    rw [Buffer.slice_write hp (Or.inl (by decide))]
  have h15 : ihl < 16 := by
    obtain ⟨b, -, rfl⟩ := readIhl_ok.mp hihl
    omega
  simp only [ipChecksum, hihl', ok_bind, bind_ok] at hs
  obtain ⟨hdr, hhdr, bytes, hbytes, hsum⟩ := hs
  have hread := (Buffer.read_ok.mp hbytes).1
  rw [Buffer.length_write hhdr] at hread
  have hall : (q.slice etherHdrSize (ihl * 4)).length = ihl * 4 := by
    rw [← Buffer.length_write hq] at hread
    exact Buffer.length_slice hread
  have hpre : (p.slice etherHdrSize (ipCheck - etherHdrSize)).length = 10 :=
    Buffer.length_slice (by simp [ipCheck, etherHdrSize] at *; omega)
  have hpost : (p.slice (ipCheck + 2) (etherHdrSize + ihl * 4 - (ipCheck + 2))).length = ihl * 4 - 12 := by
    rw [Buffer.length_slice]
    · simp [ipCheck, etherHdrSize]; omega
    · simp [ipCheck, etherHdrSize] at *; omega
  have hv := (Checked.of_write hhdr hbytes hsum hq (by decide)
    (by simp [ipCheck, etherHdrSize]; omega)).verifies (by rw [hpre]) (by rw [hpre, hpost]; omega)
  exact checksum_eq_zero (by rw [hall]; omega) (by rw [hall]; omega) hv

/-- What leaves is the received frame, forwarded. -/
theorem Forwarded.of_filled {packet q q' g : Frame} {ttl : UInt8} {ihl : Nat} {out : Iface} {mac : Mac}
    (ht : packet.readU8 ipTtl = .ok ttl) (h2 : 2 ≤ ttl.toNat) (hihl : readIhl packet = .ok ihl)
    (h5 : 5 ≤ ihl) (hq : forwardedPacket packet ttl = .ok q) (hf : Filled out q q')
    (hg : q'.write etherDhost mac.val = .ok g) : Forwarded packet ihl out mac g := by
  obtain ⟨p₁, sum, hp₁, -, hq₁⟩ := forwardedPacket_ok hq
  obtain ⟨p₂, hp₂, hp₃⟩ := id hf
  have hmac := mac.property
  have hout := out.mac.property
  have hgq : SameDatagram q g := (hf.sent hg).1
  refine ⟨?_, ?_, hf.shost hg, ?_, ?_, ?_, ?_⟩
  · rw [hgq.1, Buffer.length_write hq₁, Buffer.length_write hp₁]
  · have := Buffer.slice_write_self hg
    rwa [hmac] at this
  · rw [Buffer.slice_write hg (Or.inr (by rw [hmac]; decide))]
    exact Buffer.slice_write_self hp₃
  · rw [hgq.ttlOf, forwardedPacket_hops hq h2, ttlOf_eq ht]
  · rw [hgq.2 _ _ (Nat.le_refl _)]
    exact forwardedPacket_checksum hq hihl h5
  · intro k hk httl hc hc'
    rw [Buffer.getElem?_write hg (Or.inr (by rw [hmac]; exact Nat.le_trans (by decide) hk)),
      Buffer.getElem?_write hp₃ (Or.inr hk),
      Buffer.getElem?_write hp₂ (Or.inr (by rw [hout]; exact Nat.le_trans (by decide) hk)),
      Buffer.getElem?_write hq₁ ?_, Buffer.getElem?_write hp₁ ?_]
    · simp only [List.length_singleton]; omega
    · simp only [Buffer.length_le16]; omega

/-! ## The step that forwards -/

/-- A packet with a route is submitted for the route's interface and next hop. -/
theorem handlePacket_forward {iface : Iface} {packet : Frame} {s s' : Router} {rt : RtEntry}
    (hip : packet.readU16 etherType = .ok ethPIp) (h2 : 2 ≤ (ttlOf packet).toNat)
    (hd : destOf packet ≠ iface.ip) (hr : longestPrefixMatch rtable (destOf packet) = some rt)
    (h : handlePacket rtable iface packet s = .ok s') :
    ∃ q, packet.readU8 ipTtl = .ok (ttlOf packet) ∧ forwardedPacket packet (ttlOf packet) = .ok q ∧
      ifaceSendPacketByArp rt.iface (if rt.gw = 0 then destOf packet else rt.gw) q s = .ok s' := by
  simp only [handlePacket, hip, ok_bind, if_true, handleIpPacket, bind_ok] at h
  obtain ⟨daddr, hda, h⟩ := h
  obtain rfl := readU32_daddr hda
  rw [if_neg hd] at h
  simp only [ipForwardPacket, bind_ok] at h
  obtain ⟨ttl, ht, h⟩ := h
  obtain rfl := ttlOf_eq ht
  rw [if_neg (by omega)] at h
  simp only [hr, bind_ok] at h
  obtain ⟨q, hq, daddr, hda', h⟩ := h
  rw [← readU32_daddr hda', forwardedPacket_destOf hq] at h
  exact ⟨q, ht, hq, h⟩

/-! ## The step that transmits -/

/-- An action sends the packet that it submits, or one that has waited for the address that it learns. -/
theorem Does.sent_new {act : Act} {st st' : Store} (hrec : st.Recorded) (hd : Does act st st')
    {n : Nat} {out : Iface} {g : Frame} {o : Origin} (hs : .sent out g o ∈ st'.router.trace)
    (hne : .sent out g o ∉ st.router.trace) (ho : o.tag? = some n) :
    ∃ iface d q q' mac, Filled iface q q' ∧ q'.write etherDhost mac.val = .ok g ∧
      (n = st.router.next ∧ (n, iface, d, q) ∈ submissions st'.router.trace ∨
        act = .learn d mac ∧ (n, iface, d, q) ∈ submissions st.router.trace) := by
  cases hd with
  | env => exact absurd hs hne
  | originate =>
    rcases List.mem_append.mp hs with hs | hs
    · exact absurd hs hne
    · cases List.mem_singleton.mp hs
  | arp =>
    rcases List.mem_append.mp hs with hs | hs
    · exact absurd hs hne
    · cases List.mem_singleton.mp hs
      cases ho
  | @submit s s' iface dst packet ph h =>
    obtain ⟨q, hf, ⟨mac, frame, -, hw, rfl⟩ | ⟨-, -, rfl⟩ | ⟨-, -, rfl⟩⟩ := ifaceSendPacketByArp_cases h
    · have hnew : out = iface ∧ g = frame ∧ o = .direct s.next := by simpa [hne] using hs
      obtain ⟨rfl, rfl, rfl⟩ := hnew
      obtain rfl : s.next = n := Option.some.inj ho
      exact ⟨out, dst, packet, q, mac, hf, hw, Or.inl ⟨rfl, mem_submissions.mpr (by simp)⟩⟩
    · simp [hne] at hs
    · have hnew : o = .arp := by simp [hne] at hs; exact hs.2.2
      rw [hnew] at ho
      cases ho
  | @learn s s' ip4 mac h =>
    obtain ⟨hlen, rfl⟩ := arpcacheInsert_ok h
    rcases List.mem_append.mp hs with hs | hs
    · exact absurd hs hne
    · obtain ⟨r, hr, hs⟩ := List.mem_flatMap.mp hs
      obtain ⟨p, hp, he⟩ := List.mem_map.mp hs
      obtain ⟨rfl, rfl, rfl⟩ : r.iface = out ∧ p.packet.splice etherDhost mac.val = g ∧
          .flush p.tag ip4 = o := by simpa using he
      obtain ⟨hr, hip⟩ := List.mem_filter.mp hr
      have hip' : r.ip4 = ip4 := by simpa using hip
      obtain ⟨i, pk, hx, hfill⟩ := hrec.waiting r hr p hp
      obtain rfl : p.tag = n := by simpa [Origin.tag?] using ho
      have hw : p.packet.write etherDhost mac.val = .ok (p.packet.splice etherDhost mac.val) := by
        refine Buffer.write_ok.mpr ⟨?_, rfl⟩
        rw [mac.property]
        simpa using hlen r hr hip' p hp
      exact ⟨i, r.ip4, pk, p.packet, mac, hfill, hw, Or.inr ⟨by rw [hip'], hx⟩⟩
  | expire => exact absurd hs hne
  | retry => exact absurd hs hne
  | begin => exact absurd hs hne
  | giveUp =>
    rcases List.mem_append.mp hs with hs | hs
    · exact absurd hs hne
    · cases List.mem_singleton.mp hs
  | unlink =>
    rcases List.mem_append.mp hs with hs | hs
    · exact absurd hs hne
    · cases List.mem_singleton.mp hs

/-- A packet that was submitted before is only sent when its next hop is learned. -/
theorem Does.sent_later {act : Act} {st st' : Store} (hrec : st.Recorded) (hd : Does act st st')
    {n : Nat} {iface : Iface} {d : UInt32} {q : Frame}
    (hsub : (n, iface, d, q) ∈ submissions st.router.trace) {out : Iface} {g : Frame} {o : Origin}
    (hs : .sent out g o ∈ st'.router.trace) (hne : .sent out g o ∉ st.router.trace)
    (ho : o.tag? = some n) :
    ∃ mac q', act = .learn d mac ∧ Filled iface q q' ∧ q'.write etherDhost mac.val = .ok g := by
  obtain ⟨i, d', q₀, q', mac, hf, hw, ⟨hnext, -⟩ | ⟨hact, hx⟩⟩ := hd.sent_new hrec hs hne ho
  · exact absurd (hrec.old _ hsub) (by rw [hnext]; exact Nat.lt_irrefl _)
  · obtain ⟨rfl, rfl, rfl⟩ := hrec.eq_of_tag hx hsub
    exact ⟨mac, q', hact, hf, hw⟩

/-- What is sent is the packet that was submitted, but for the Ethernet header. -/
theorem RunOf.sent_sameDatagram {C : Input → Router → Prop} {s : Router} (h : RunOf rtable C s)
    {out : Iface} {g : Frame} {o : Origin} {n : Nat} (hs : .sent out g o ∈ s.trace)
    (ho : o.tag? = some n) :
    ∃ iface d q, (n, iface, d, q) ∈ submissions s.trace ∧ SameDatagram q g := by
  have hinv := h.invariant (G := fun _ _ => True)
    (I := fun st => st.Recorded ∧ ∀ out g o n, .sent out g o ∈ st.router.trace → o.tag? = some n →
      ∃ iface d q, (n, iface, d, q) ∈ submissions st.router.trace ∧ SameDatagram q g)
    (fun env => ⟨Store.Recorded.init env, fun _ _ _ _ hs => by cases hs⟩)
    (fun _ _ _ _ _ _ _ => trivial) ?_
  · exact hinv.2 out g o n hs ho
  · rintro act st st' hw - ⟨hrec, hall⟩ hd
    refine ⟨hrec.does hw hd, fun out g o n hs ho => ?_⟩
    obtain ⟨new, htr⟩ := hd.trace
    by_cases hold : .sent out g o ∈ st.router.trace
    · obtain ⟨iface, d, q, hq, hsame⟩ := hall out g o n hold ho
      exact ⟨iface, d, q, by rw [htr, submissions_append]; exact List.mem_append_left _ hq, hsame⟩
    · obtain ⟨iface, d, q, q', mac, hf, hwrite, hcase⟩ := hd.sent_new hrec hs hold ho
      have hmem : (n, iface, d, q) ∈ submissions st'.router.trace := by
        rcases hcase with ⟨-, hq⟩ | ⟨-, hq⟩
        · exact hq
        · rw [htr, submissions_append]
          exact List.mem_append_left _ hq
      exact ⟨iface, d, q, hmem, (hf.sent hwrite).1⟩

/-- A later history contains an earlier one. -/
theorem Later.trace {s s' : Router} (hs : Reachable rtable s) (h : Later rtable s s') {e : Event}
    (he : e ∈ s.trace) : e ∈ s'.trace := by
  induction h with
  | refl => exact he
  | @tail b c hb h ih =>
    obtain ⟨i, h⟩ := h
    have hpath := h.path (RunOf.wf (Runs.Later.runOf hs hb))
    refine hpath.invariant (I := fun st => e ∈ st.router.trace) (fun act st st' _ he hd => ?_) ih
    obtain ⟨new, htr⟩ := hd.trace
    rw [htr]
    exact List.mem_append_left _ he

/-- **Forwarding preserves the datagram.** When a frame with a route is received, what is sent for it, in
that step or in any later one, is the frame as forwarded to the station that the cache, or the ARP packet
of that later step, names for the next hop. -/
theorem forwarding_preserves_datagram {s s₁ : Router} {iface : Iface} {packet : Frame} {env : Env}
    {rt : RtEntry} {ihl : Nat} (hs : Reachable rtable s) (h₁ : Step rtable (.frame iface packet env) s s₁)
    (hip : packet.readU16 etherType = .ok ethPIp) (hihl : readIhl packet = .ok ihl) (h5 : 5 ≤ ihl)
    (h2 : 2 ≤ (ttlOf packet).toNat) (hd : destOf packet ≠ iface.ip)
    (hr : longestPrefixMatch rtable (destOf packet) = some rt) :
    (∃ q, .submitted s.next rt.iface (if rt.gw = 0 then destOf packet else rt.gw) q ∈ s₁.trace) ∧
      (∀ out g o, .sent out g o ∈ s₁.trace → o.tag? = some s.next →
        ∃ mac, arpcacheLookup s.table (if rt.gw = 0 then destOf packet else rt.gw) = some mac ∧
          Forwarded packet ihl rt.iface mac g) ∧
      ∀ s₂ i s₃, Later rtable s₁ s₂ → Step rtable i s₂ s₃ → ∀ out g o, .sent out g o ∈ s₃.trace →
        .sent out g o ∉ s₂.trace → o.tag? = some s.next →
        ∃ inIface arp env' mac, i = .frame inIface arp env' ∧ arp.readU16 etherType = .ok ethPArp ∧
          arp.readU32 arpSpa = .ok (if rt.gw = 0 then destOf packet else rt.gw) ∧
          readMac arp arpSha = .ok mac ∧ Forwarded packet ihl rt.iface mac g := by
  have hs₁ : Reachable rtable s₁ := hs.step trivial h₁
  have hrec := hs.recorded
  cases h₁ with
  | frame h =>
    obtain ⟨q, ht, hq, hsend⟩ := handlePacket_forward hip h2 hd hr h
    have hsub : .submitted s.next rt.iface (if rt.gw = 0 then destOf packet else rt.gw) q ∈ s₁.trace :=
      (ifaceSendPacketByArp_submitted hsend _ _ _ _).mpr (Or.inr ⟨rfl, rfl, rfl, rfl⟩)
    have hold : ∀ out g o, .sent out g o ∈ s.trace → o.tag? ≠ some s.next := fun out g o hm ho =>
      Nat.lt_irrefl _ (hrec.sent _ (mem_sentTags.mpr ⟨out, g, o, hm, ho⟩))
    refine ⟨⟨q, hsub⟩, fun out g o hm ho => ?_, fun s₂ i s₃ h₂ h₃ out g o hm hne ho => ?_⟩
    · obtain ⟨q', hf, ⟨mac, frame, hl, hw, rfl⟩ | ⟨-, -, rfl⟩ | ⟨-, -, rfl⟩⟩ :=
        ifaceSendPacketByArp_cases hsend
      · have hnot : .sent out g o ∉ s.trace := fun hm => hold out g o hm ho
        have hnew : out = rt.iface ∧ g = frame ∧ o = .direct s.next := by simpa [hnot] using hm
        rw [hnew.2.1]
        exact ⟨mac, hl, .of_filled ht h2 hihl h5 hq hf hw⟩
      · exact absurd ho (hold out g o (by simpa using hm))
      · rcases List.mem_append.mp hm with hm | hm
        · exact absurd ho (hold out g o (by simpa using hm))
        · cases List.mem_singleton.mp hm
          cases ho
    · have hs₂ : Reachable rtable s₂ := Runs.Later.runOf hs₁ h₂
      have hpath := h₃.path hs₂.wf
      obtain ⟨act, c, c', hc, hg, hdoes, hm', hne'⟩ := hpath.exists_new hm hne
      have hinv := hc.invariant
        (I := fun st => st.Wf ∧ st.Recorded ∧
          .submitted s.next rt.iface (if rt.gw = 0 then destOf packet else rt.gw) q ∈ st.router.trace)
        (fun act st st' _ hi hd => ?_) ⟨hs₂.wf, hs₂.recorded, Later.trace hs₁ h₂ hsub⟩
      · obtain ⟨mac, q', rfl, hf, hw⟩ :=
          hdoes.sent_later hinv.2.1 (mem_submissions.mpr hinv.2.2) hm' hne' ho
        cases i with
        | sweep env' => exact hg.elim
        | frame inIface arp env' =>
          exact ⟨inIface, arp, env', mac, rfl, hg.1, hg.2.1, hg.2.2, .of_filled ht h2 hihl h5 hq hf hw⟩
      · obtain ⟨new, htr⟩ := hd.trace
        exact ⟨hi.1.does hd, hi.2.1.does hi.1 hd, by rw [htr]; exact List.mem_append_left _ hi.2.2⟩

/-- A packet for an unknown station is queued, and leaves when the station answers. -/
theorem forwarding_preserves_datagram_queued :
    ∃ (s₁ s₂ : Router) (g : Frame) (mac : Mac), sentTags s₁.trace = [] ∧ Later Sample.connected s₁ s₂ ∧
      .sent Sample.eth1 g (.flush 0 0x0a000202) ∈ s₂.trace ∧
      Forwarded (Sample.udp 0x0a000102 0x0a000202 64) 5 Sample.eth1 mac g := by
  let first : Input := .frame Sample.eth0 (Sample.udp 0x0a000102 0x0a000202 64) (Sample.clockAt 0)
  let second : Input := .frame Sample.eth1 (Sample.arpReply 0x0a000202 (Sample.station 9)) (Sample.clockAt 1)
  have hrun : (doInput Sample.connected 8 (arpcacheInit (Sample.clockAt 0)) first >>= fun s₁ =>
      (doInput Sample.connected 8 s₁ second).map fun s₂ : Router =>
        decide (sentTags s₁.trace = [] ∧
          ∃ x ∈ transmissions s₂.trace, x.1 = Sample.eth1 ∧ x.2.2 = .flush 0 0x0a000202)) = .ok true := by
    decide +kernel
  obtain ⟨s₁, h₁, hrun⟩ := bind_ok.mp hrun
  obtain ⟨s₂, h₂, hrun⟩ := Buffer.map_ok.mp hrun
  obtain ⟨hnone, ⟨out, g, o⟩, hx, rfl, rfl⟩ := of_decide_eq_true hrun
  have he : .sent Sample.eth1 g (.flush 0 0x0a000202) ∈ s₂.trace := mem_transmissions.mp hx
  have hnot : .sent Sample.eth1 g (.flush 0 0x0a000202) ∉ s₁.trace := by
    intro hm
    have := mem_sentTags.mpr ⟨_, _, _, hm, rfl⟩
    rw [hnone] at this
    cases this
  obtain ⟨-, -, -, mac, -, -, -, -, hf⟩ := (forwarding_preserves_datagram (.init ⟨_, rfl⟩)
    (Step.of_doInput h₁) (by decide) (by decide : readIhl _ = .ok 5) (by decide) (by decide) (by decide)
    (by decide : _ = some ⟨0x0a000200, 0xffffff00, 0, Sample.eth1⟩)).2.2 s₁ second s₂ .refl
    (Step.of_doInput h₂) Sample.eth1 g _ he hnot rfl
  exact ⟨s₁, s₂, g, mac, hnone, .single ⟨second, Step.of_doInput h₂⟩, he, hf⟩

end StaticRouter
