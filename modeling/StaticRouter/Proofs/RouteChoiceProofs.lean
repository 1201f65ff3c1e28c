import StaticRouter.Proofs.DatagramProofs
import StaticRouter.Proofs.PrefixMatchProofs
import StaticRouter.Proofs.RouteReadProofs

/-!
# Proofs: packets take the kernel's routes

From the bytes that the kernel hands out to the interface that a packet leaves through. A comparison under a
mask of `n` ones compares the first `n` bits, so the entry that is found is the message with the longest prefix.
-/

namespace StaticRouter

open CMem

/-- A mask of `n` ones keeps the first `n` bits. -/
theorem and_prefixMask_eq_iff {a b : UInt32} {n : Nat} :
    a &&& prefixMask n = b &&& prefixMask n ↔ a.toNat / 2 ^ (32 - n) = b.toNat / 2 ^ (32 - n) := by
  have hpos : 0 < 2 ^ (32 - n) := Nat.two_pow_pos _
  have hle : 2 ^ (32 - n) ≤ 2 ^ 32 := Nat.pow_le_pow_right (by decide) (Nat.sub_le 32 n)
  have hmask : ∀ i, (prefixMask n).toNat.testBit i = (decide (i < 32) && !decide (i < 32 - n)) := by
    intro i
    have hsucc : 2 ^ 32 - 2 ^ (32 - n) = 2 ^ 32 - (2 ^ (32 - n) - 1 + 1) := by omega
    rw [prefixMask_toNat, hsucc, Nat.testBit_two_pow_sub_succ (by omega), Nat.testBit_two_pow_sub_one]
  have hbit : ∀ (x : UInt32) (i : Nat), (x &&& prefixMask n).toNat.testBit i =
      (x.toNat.testBit i && (decide (i < 32) && !decide (i < 32 - n))) := by
    intro x i
    rw [UInt32.toNat_and, Nat.testBit_and, hmask]
  rw [← UInt32.toNat_inj]
  constructor
  · intro h
    refine Nat.eq_of_testBit_eq fun i => ?_
    rw [Nat.testBit_div_two_pow, Nat.testBit_div_two_pow]
    by_cases hi : i + (32 - n) < 32
    · have hi' := congrArg (·.testBit (i + (32 - n))) h
      have hge : ¬ i + (32 - n) < 32 - n := by omega
      simp only [hbit] at hi'
      simpa [hi, hge] using hi'
    · have hbig : ∀ x : UInt32, x.toNat.testBit (i + (32 - n)) = false := fun x =>
        Nat.testBit_lt_two_pow (Nat.lt_of_lt_of_le x.toNat_lt (Nat.pow_le_pow_right (by decide) (Nat.not_lt.mp hi)))
      rw [hbig, hbig]
  · intro h
    refine Nat.eq_of_testBit_eq fun i => ?_
    rw [hbit, hbit]
    by_cases hi : i < 32 - n
    · simp [hi]
    · have hi' := congrArg (·.testBit (i - (32 - n))) h
      simp only [Nat.testBit_div_two_pow, Nat.sub_add_cancel (Nat.not_lt.mp hi)] at hi'
      rw [hi']

variable {ifIndexToName : Int32 → IfName} {ifaces : List NamedIface} {ms : List RouteMsg} {m : RouteMsg}
  {e : RtEntry} {dst : UInt32}

theorem routeEntry_some (h : routeEntry ifIndexToName ifaces m = some e) :
    e.dest = m.address rtaDst ∧ e.mask = prefixMask m.dstLen.toNat ∧ e.gw = m.address rtaGateway := by
  unfold routeEntry at h
  split_ifs at h
  obtain ⟨oif, -, h⟩ := Option.bind_eq_some_iff.mp h
  obtain ⟨named, -, h⟩ := Option.bind_eq_some_iff.mp h
  cases h
  exact ⟨rfl, rfl, rfl⟩

/-- The entry of a message matches the addresses of its network, and is as long as its prefix. -/
theorem RouteMsg.WellFormed.entry (hm : m.WellFormed) (h : routeEntry ifIndexToName ifaces m = some e)
    (dst : UInt32) : (e.Matches dst ↔ m.Covers dst) ∧ prefixLength e.mask = m.dstLen.toNat ∧ IsPrefixMask e.mask := by
  obtain ⟨hd, hmask, -⟩ := routeEntry_some h
  refine ⟨?_, ?_, m.dstLen.toNat, hm.dstLen_le, hmask⟩
  · unfold RtEntry.Matches
    rw [hd, hmask]
    exact and_prefixMask_eq_iff
  · rw [hmask]
    exact prefixLength_prefixMask _ hm.dstLen_le

variable (ifIndexToName ifaces dst) in
/-- The search among the entries of the messages is a search among the messages. -/
theorem longestPrefixMatch_routes (hwf : ∀ m ∈ ms, m.WellFormed) :
    (longestPrefixMatch (ms.filterMap (routeEntry ifIndexToName ifaces)) dst = none ↔
      ∀ m ∈ ms, m.Covers dst → routeEntry ifIndexToName ifaces m = none) ∧
    ∀ rt, longestPrefixMatch (ms.filterMap (routeEntry ifIndexToName ifaces)) dst = some rt →
      ∃ m, routeEntry ifIndexToName ifaces m = some rt ∧ m.Wins ifIndexToName ifaces ms dst := by
  refine ⟨?_, fun rt hrt => ?_⟩
  · rw [longestPrefixMatch_eq_none]
    constructor
    · intro hnone m hm hcov
      cases he : routeEntry ifIndexToName ifaces m with
      | none => rfl
      | some e =>
        have hmatch := ((hwf m hm).entry he dst).1.mpr hcov
        exact absurd hmatch (hnone e (List.mem_filterMap.mpr ⟨m, hm, he⟩))
    · intro hnone e he hmatch
      obtain ⟨m, hm, hme⟩ := List.mem_filterMap.mp he
      rw [hnone m hm (((hwf m hm).entry hme dst).1.mp hmatch)] at hme
      cases hme
  · have hmask : ∀ e ∈ ms.filterMap (routeEntry ifIndexToName ifaces), IsPrefixMask e.mask := by
      intro e he
      obtain ⟨m, hm, hme⟩ := List.mem_filterMap.mp he
      exact ((hwf m hm).entry hme dst).2.2
    obtain ⟨pre, post, heq, hmatch, hpre, hpost⟩ := longestPrefixMatch_eq_some hmask hrt
    obtain ⟨A, B, rfl, rfl, hB⟩ := List.filterMap_eq_append_iff.mp heq
    obtain ⟨A', m, B', rfl, hA', hm, rfl⟩ := List.filterMap_eq_cons_iff.mp hB
    have hwfm : m.WellFormed := hwf m (by simp)
    have hlen := (hwfm.entry hm dst).2.1
    refine ⟨m, hm, A ++ A', B', (List.append_assoc _ _ _).symm, (hwfm.entry hm dst).1.mp hmatch,
      fun m' hm' hsome hcov => ?_, fun m' hm' hsome hcov => ?_⟩
    · obtain ⟨e', he'⟩ := Option.isSome_iff_exists.mp hsome
      rcases List.mem_append.mp hm' with hm' | hm'
      · obtain ⟨hmat, hlen', -⟩ := (hwf m' (by simp [hm'])).entry he' dst
        have hle := hpre e' (List.mem_filterMap.mpr ⟨m', hm', he'⟩) (hmat.mpr hcov)
        omega
      · rw [hA' m' hm'] at he'
        cases he'
    · obtain ⟨e', he'⟩ := Option.isSome_iff_exists.mp hsome
      obtain ⟨hmat, hlen', -⟩ := (hwf m' (by simp [hm'])).entry he' dst
      have hlt := hpost e' (List.mem_filterMap.mpr ⟨m', hm', he'⟩) (hmat.mpr hcov)
      omega

theorem DumpStream.wellFormed (s : DumpStream) : ∀ m ∈ s.routes, m.WellFormed := by
  intro m hm
  rcases List.mem_append.mp hm with hm | hm
  · obtain ⟨d, hd, hm⟩ := List.mem_flatMap.mp hm
    exact (s.before_dump d hd).1.wellFormed m hm
  · exact s.last_dump.1.wellFormed m hm

/-- **Packets take the kernel's routes.** The table is loaded from a dump whose `NLMSG_DONE` is alone in its
datagram and whose routes of the main table name an interface. Then a lookup finds nothing only where no route
of the main table through the router's interfaces contains the address, and else the route with the longest
prefix, the last of them in the dump; and `handle_packet` submits a packet for that address on that route's
interface, for its gateway or, without one, the address itself. -/
theorem kernel_routes_followed (s : DumpStream) (stack : Nat → NameBuf) (buf : Buffer) (halone : s.last = [])
    (hoif : ∀ m ∈ s.routes, m.table = rtTableMain → m.attr rtaOif ≠ none) {n : Nat} {rtable : List RtEntry}
    (hload : loadRtableFromKernel ifIndexToName ifaces stack (s.datagrams.map some) buf = .ok (some (n, rtable)))
    (dst : UInt32) :
    (longestPrefixMatch rtable dst = none ↔
      ∀ m ∈ s.routes, m.Covers dst → routeEntry ifIndexToName ifaces m = none) ∧
    ∀ rt, longestPrefixMatch rtable dst = some rt →
      ∃ m, routeEntry ifIndexToName ifaces m = some rt ∧ m.Wins ifIndexToName ifaces s.routes dst ∧
        ∀ (iface : Iface) (packet : Frame) (st st' : Router), packet.readU16 etherType = .ok ethPIp →
          2 ≤ (ttlOf packet).toNat → destOf packet = dst → dst ≠ iface.ip →
          handlePacket rtable iface packet st = .ok st' → ∃ q,
            .submitted st.next rt.iface
              (if m.address rtaGateway = 0 then dst else m.address rtaGateway) q ∈ st'.trace := by
  have hrt : rtable = s.routes.filterMap (routeEntry ifIndexToName ifaces) := by
    rcases s.loadRtableFromKernel_of_alone stack buf halone hoif with h | h
    · rw [h] at hload
      cases hload
    · rw [h] at hload
      cases hload
      rfl
  rw [hrt]
  obtain ⟨hnone, hsome⟩ := longestPrefixMatch_routes ifIndexToName ifaces dst s.wellFormed
  refine ⟨hnone, fun rt hfound => ?_⟩
  obtain ⟨m, hm, hwins⟩ := hsome rt hfound
  refine ⟨m, hm, hwins, fun iface packet st st' hip h2 hd hne h => ?_⟩
  subst hd
  obtain ⟨q, -, -, hsend⟩ := handlePacket_forward hip h2 hne hfound h
  rw [(routeEntry_some hm).2.2] at hsend
  exact ⟨q, (ifaceSendPacketByArp_submitted hsend _ _ _ _).mpr (Or.inr ⟨rfl, rfl, rfl, rfl⟩)⟩

section Sample

open Sample

theorem Sample.isDump_three : IsDump [defaultRoute, connectedRoute, localRoute]
    ([defaultRoute, connectedRoute, localRoute].flatMap RouteMsg.encode) ∧
    4 ∣ ([defaultRoute, connectedRoute, localRoute].flatMap RouteMsg.encode).length :=
  ⟨isDump_flatMap_encode fun m hm => Sample.wellFormed m (List.mem_append_left [unreachable] hm), by decide +kernel⟩

theorem Sample.isDump_nil : IsDump [] [] ∧ 4 ∣ ([] : Buffer).length := by
  refine ⟨⟨.nil, ?_⟩, by decide⟩
  intro m hm
  cases hm

theorem Sample.isDone_done : IsDone Sample.done := ⟨⟨by decide, by decide⟩, by decide⟩

/-- A dump of three routes, with `NLMSG_DONE` in a datagram of its own. -/
def Sample.alone : DumpStream where
  before := [([defaultRoute, connectedRoute, localRoute],
    [defaultRoute, connectedRoute, localRoute].flatMap RouteMsg.encode)]
  last := []
  lastBytes := []
  done := Sample.done
  before_nonempty := List.forall_mem_singleton.mpr (List.cons_ne_nil _ _)
  before_dump := List.forall_mem_singleton.mpr Sample.isDump_three
  last_dump := Sample.isDump_nil
  isDone := Sample.isDone_done

/-- An address of the connected network takes its route, not the default route. -/
theorem kernel_routes_followed_connected : ∃ n rtable rt,
    loadRtableFromKernel Sample.ifIndexToName managed (fun _ => holding eth0Name) (alone.datagrams.map some)
      (List.replicate 256 0) = .ok (some (n, rtable)) ∧
    longestPrefixMatch rtable 0x0a000207 = some rt ∧ rt.iface.ip = 0x0a000201 ∧
    ∃ m, routeEntry Sample.ifIndexToName managed m = some rt ∧
      m.Wins Sample.ifIndexToName managed alone.routes 0x0a000207 := by
  let toNet2 : RtEntry := ⟨0x0a000200, 0xffffff00, 0, ⟨1, ⟨[2, 0, 0, 0, 0, 2], rfl⟩, 0x0a000201⟩⟩
  have hload : loadRtableFromKernel Sample.ifIndexToName managed (fun _ => holding eth0Name)
      (alone.datagrams.map some) (List.replicate 256 0) =
        .ok (some (2, [⟨0, 0, 0x0a0001fe, ⟨0, ⟨[2, 0, 0, 0, 0, 1], rfl⟩, 0x0a000101⟩⟩, toNet2])) := by
    decide +kernel
  obtain ⟨-, hsome⟩ := kernel_routes_followed alone _ _ rfl (by decide) hload 0x0a000207
  obtain ⟨m, hm, hwins, -⟩ := hsome toNet2 (by decide)
  exact ⟨_, _, _, hload, by decide, rfl, m, hm, hwins⟩

end Sample

end StaticRouter
