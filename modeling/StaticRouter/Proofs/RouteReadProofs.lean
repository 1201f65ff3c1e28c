import StaticRouter.Proofs.RouteParseProofs

/-!
# Reading the route dump

`get_unparsed_route_info` puts the datagrams one behind the other. It looks for `NLMSG_DONE` at the beginning
of a datagram only, so that whether it ends depends on how the messages are packed.
-/

namespace StaticRouter

open CMem

/-! ## What a datagram begins with -/

/-- The datagram begins with the header of a message of type `type`. -/
structure Begins (type : UInt16) (d : Buffer) : Prop where
  size_le : nlmsgHdrSize ≤ d.length
  type_eq : d.readLe16 nlmsgType = .ok type

theorem Begins.append {type : UInt16} {d : Buffer} (h : Begins type d) (post : Buffer) :
    Begins type (d ++ post) where
  size_le := by
    rw [List.length_append]
    exact Nat.le_trans h.size_le (Nat.le_add_right _ _)
  type_eq := by
    have hwithin : nlmsgType + 2 ≤ d.length := Nat.le_trans (by decide) h.size_le
    rw [Buffer.readLe16_prefix hwithin, h.type_eq]

theorem IsDone.begins {c : Buffer} (h : IsDone c) : Begins nlmsgDone c := ⟨h.chunk.size_le, h.type_eq⟩

theorem RouteMsg.Encodes.begins {m : RouteMsg} {c : Buffer} (h : m.Encodes c) : Begins rtmNewRoute c := by
  have hsize : nlmsgHdrSize ≤ c.length := Nat.le_trans (by decide) h.size_le
  obtain ⟨bs, -, rfl, -⟩ := h
  refine ⟨hsize, ?_⟩
  have hsplit : ∀ len, m.nlmsghdr len ++ (m.rtmsg ++ bs) = Buffer.le32 (.ofNat len) ++
      (Buffer.le16 rtmNewRoute ++ (Buffer.le16 m.nlmsgFlags ++ Buffer.le32 m.nlmsgSeq ++
        Buffer.le32 m.nlmsgPid ++ (m.rtmsg ++ bs))) := fun len => rfl
  rw [hsplit]
  exact Buffer.readLe16_field rfl

theorem IsDump.begins {ms : List RouteMsg} {d : Buffer} (h : IsDump ms d) (hne : ms ≠ []) :
    Begins rtmNewRoute d := by
  cases h.laid with
  | nil => exact absurd rfl hne
  | last hx _ => exact hx.begins
  | cons hx _ _ _ => exact hx.begins.append _

/-! ## One round -/

variable {buf d : Buffer} {len left : Nat} {type : UInt16}

theorem getUnparsedLoop_tooLarge {ds : List (Option Buffer)} (h : left < nlmsgHdrSize) :
    getUnparsedLoop ds buf len left = .ok .tooLarge := by
  unfold getUnparsedLoop
  rw [if_pos h]
  rfl

/-- What is left of a datagram still has its first header. -/
theorem Begins.take (hd : Begins type d) (hleft : nlmsgHdrSize ≤ left) : Begins type (d.take left) := by
  have hsize : nlmsgHdrSize ≤ (d.take left).length := by
    rw [List.length_take]
    exact Nat.le_min.mpr ⟨hleft, hd.size_le⟩
  refine ⟨hsize, ?_⟩
  have hwithin : nlmsgType + 2 ≤ (d.take left).length := Nat.le_trans (by decide) hsize
  have hread : Buffer.readLe16 (d.take left ++ d.drop left) nlmsgType = Buffer.readLe16 (d.take left) nlmsgType :=
    Buffer.readLe16_prefix hwithin
  rw [List.take_append_drop] at hread
  rw [← hread, hd.type_eq]

/-- A datagram is put behind the ones before it, as far as it fits. -/
theorem getUnparsedLoop_round (ds : List (Option Buffer)) (hleft : nlmsgHdrSize ≤ left)
    (hlen : len + left = buf.length) (hd : Begins type d) : ∃ buf', buf'.length = buf.length ∧
      buf'.take (len + (d.take left).length) = buf.take len ++ d.take left ∧
      getUnparsedLoop (some d :: ds) buf len left =
        if type = nlmsgDone then .ok (.returned buf' len)
        else if type = nlmsgError then .ok .netlinkError
        else getUnparsedLoop ds buf' (len + (d.take left).length) (left - (d.take left).length) := by
  have hgot := hd.take hleft
  have hcut : (d.take left).length ≤ left := List.length_take_le left d
  obtain ⟨buf', hwrite, hlen'⟩ := Buffer.exists_write len (d.take left) (by omega : _ ≤ buf.length)
  obtain ⟨-, rfl⟩ := Buffer.write_ok.mp hwrite
  have hpre : (buf.take len).length = len := List.length_take_of_le (by omega)
  have htype : (buf.splice len (d.take left)).readLe16 (len + nlmsgType) = .ok type := by
    have hwithin : nlmsgType + 2 ≤ (d.take left).length := Nat.le_trans (by decide) hgot.size_le
    have hread : Buffer.readLe16 (buf.take len ++ (d.take left ++ buf.drop (len + (d.take left).length)))
        ((buf.take len).length + nlmsgType) = Buffer.readLe16 (d.take left) nlmsgType :=
      Buffer.readLe16_within hwithin
    rw [hpre] at hread
    rw [Buffer.splice, List.append_assoc, hread, hgot.type_eq]
  have hne : (d.take left).length ≠ 0 := Nat.ne_of_gt (Nat.lt_of_lt_of_le (by decide) hgot.size_le)
  refine ⟨_, hlen', ?_, ?_⟩
  · rw [Buffer.splice]
    exact List.take_left' (by rw [List.length_append, hpre])
  · rw [getUnparsedLoop, if_neg (Nat.not_lt.mpr hleft)]
    simp only [hne, if_false, hwrite, htype, ok_bind]
    rfl

/-! ## A run -/

/-- The datagrams of route messages before the rest of the stream: either the buffer gets too small, or they
stand in it one behind the other. -/
theorem getUnparsedLoop_routes (ds : List (Option Buffer)) {bs : List Buffer}
    (hbs : ∀ d ∈ bs, Begins rtmNewRoute d) (hlen : len + left = buf.length) :
    (left < (bs.map List.length).sum + nlmsgHdrSize →
      getUnparsedLoop (bs.map some ++ ds) buf len left = .ok .tooLarge) ∧
    ((bs.map List.length).sum + nlmsgHdrSize ≤ left → ∃ buf', buf'.length = buf.length ∧
      buf'.take (len + (bs.map List.length).sum) = buf.take len ++ bs.flatten ∧
      getUnparsedLoop (bs.map some ++ ds) buf len left =
        getUnparsedLoop ds buf' (len + (bs.map List.length).sum) (left - (bs.map List.length).sum)) := by
  induction bs generalizing buf len left with
  | nil =>
    refine ⟨fun h => getUnparsedLoop_tooLarge (by simpa using h), fun _ => ⟨buf, rfl, ?_, rfl⟩⟩
    simp
  | cons d bs ih =>
    have hrest : ∀ d' ∈ bs, Begins rtmNewRoute d' := fun d' hd' => hbs d' (List.mem_cons_of_mem d hd')
    simp only [List.map_cons, List.sum_cons, List.cons_append, List.flatten_cons]
    by_cases hleft : left < nlmsgHdrSize
    · exact ⟨fun _ => getUnparsedLoop_tooLarge hleft, fun h => absurd hleft (by omega)⟩
    · obtain ⟨buf', hlen', htake, hround⟩ := getUnparsedLoop_round (bs.map some ++ ds)
        (Nat.not_lt.mp hleft) hlen (hbs d List.mem_cons_self)
      rw [if_neg (by decide), if_neg (by decide)] at hround
      rw [hround]
      by_cases hfits : d.length ≤ left
      · rw [List.take_of_length_le hfits] at htake ⊢
        have hnext : (len + d.length) + (left - d.length) = buf'.length := by omega
        obtain ⟨hsmall, hlarge⟩ := ih hrest hnext
        refine ⟨fun h => hsmall (by omega), fun h => ?_⟩
        obtain ⟨buf'', hlen'', htake', hloop⟩ := hlarge (by omega)
        refine ⟨buf'', hlen''.trans hlen', ?_, ?_⟩
        · rw [← Nat.add_assoc, htake', htake, List.append_assoc]
        · rw [hloop, Nat.add_assoc, Nat.sub_sub]
      · have hcut : (d.take left).length = left := by
          rw [List.length_take]
          omega
        rw [hcut, Nat.sub_self]
        exact ⟨fun _ => getUnparsedLoop_tooLarge (by decide), fun h => absurd hfits (by omega)⟩

/-- Dumps one behind the other. -/
theorem isDump_flatten {ps : List (List RouteMsg × Buffer)}
    (h : ∀ p ∈ ps, IsDump p.1 p.2 ∧ 4 ∣ p.2.length) : IsDump (ps.flatMap (·.1)) (ps.map (·.2)).flatten := by
  induction ps with
  | nil => exact ⟨.nil, fun m hm => (nomatch hm)⟩
  | cons p ps ih =>
    obtain ⟨⟨hlaid, hwf⟩, hdvd⟩ := h p List.mem_cons_self
    obtain ⟨hlaid', hwf'⟩ := ih fun p' hp' => h p' (List.mem_cons_of_mem p hp')
    simp only [List.flatMap_cons, List.map_cons, List.flatten_cons]
    refine ⟨hlaid.append hdvd hlaid', fun m hm => ?_⟩
    rcases List.mem_append.mp hm with hm | hm
    · exact hwf m hm
    · exact hwf' m hm

namespace DumpStream

variable (s : DumpStream)

theorem before_begins : ∀ d ∈ s.before.map (·.2), Begins rtmNewRoute d := by
  intro d hd
  obtain ⟨p, hp, rfl⟩ := List.mem_map.mp hd
  exact (s.before_dump p hp).1.begins (s.before_nonempty p hp)

/-- With `NLMSG_DONE` in a datagram of its own, the reader ends. -/
theorem readsWhole_of_alone (buf : Buffer) (halone : s.last = []) :
    ReadsWhole s.routes (getUnparsedRouteInfo (s.datagrams.map some) buf) := by
  have hempty : s.lastBytes = [] := s.last_dump.1.laid.eq_nil halone
  have hds : s.datagrams.map some = (s.before.map (·.2)).map some ++ [some s.done] := by
    simp [datagrams, hempty]
  have hroutes : s.routes = s.before.flatMap (·.1) := by rw [routes, halone, List.append_nil]
  obtain ⟨hsmall, hlarge⟩ := getUnparsedLoop_routes [some s.done] s.before_begins (Nat.zero_add buf.length)
  unfold getUnparsedRouteInfo
  rw [hds, hroutes]
  by_cases hsize : buf.length < ((s.before.map (·.2)).map List.length).sum + nlmsgHdrSize
  · exact Or.inl (hsmall hsize)
  · obtain ⟨buf', hlen', htake, hloop⟩ := hlarge (Nat.not_lt.mp hsize)
    have hnext : (0 + ((s.before.map (·.2)).map List.length).sum) +
        (buf.length - ((s.before.map (·.2)).map List.length).sum) = buf'.length := by omega
    obtain ⟨buf'', hlen'', htake', hround⟩ := getUnparsedLoop_round [] (by omega) hnext s.isDone.begins
    rw [if_pos rfl] at hround
    refine Or.inr ⟨buf'', _, hloop.trans hround, by omega, ?_⟩
    have hcut := congrArg (List.take (0 + ((s.before.map (·.2)).map List.length).sum)) htake'
    rw [List.take_take, Nat.min_eq_left (Nat.le_add_right _ _), List.take_left' (by
      rw [List.length_take]
      omega), htake, List.take_zero, List.nil_append] at hcut
    rw [hcut]
    exact isDump_flatten s.before_dump

/-- Loading the routes: the reader and the parser together. -/
theorem loadRtableFromKernel_of_alone {ifIndexToName : Int32 → IfName} {ifaces : List NamedIface}
    (stack : Nat → NameBuf) (buf : Buffer) (halone : s.last = [])
    (hoif : ∀ m ∈ s.routes, m.table = rtTableMain → m.attr rtaOif ≠ none) :
    loadRtableFromKernel ifIndexToName ifaces stack (s.datagrams.map some) buf = .ok none ∨
    loadRtableFromKernel ifIndexToName ifaces stack (s.datagrams.map some) buf =
      .ok (some ((s.routes.filterMap (routeEntry ifIndexToName ifaces)).length,
        s.routes.filterMap (routeEntry ifIndexToName ifaces))) := by
  unfold loadRtableFromKernel
  rcases s.readsWhole_of_alone buf halone with h | ⟨buf', len, h, hle, hdump⟩
  · rw [h]
    exact Or.inl rfl
  · have hload : LoadsRoutes ifIndexToName ifaces s.routes (parseRoutingInfo ifIndexToName ifaces stack
        (buf'.take len ++ buf'.drop len) (buf'.take len).length) :=
      parseRoutingInfo_of_oif hdump (buf'.drop len) stack hoif
    rw [List.take_append_drop, List.length_take_of_le hle, LoadsRoutes] at hload
    rw [h]
    refine Or.inr ?_
    rw [ok_bind]
    dsimp only
    rw [hload]
    rfl

/-- With `NLMSG_DONE` behind route messages, the reader does not see it: it ends if the buffer gets too small,
or waits. -/
theorem getUnparsedRouteInfo_of_packed (buf : Buffer) (hpacked : s.last ≠ []) :
    getUnparsedRouteInfo (s.datagrams.map some) buf =
      if buf.length < s.size + nlmsgHdrSize then .ok .tooLarge else .ok .waiting := by
  have hbegins : ∀ d ∈ s.datagrams, Begins rtmNewRoute d := by
    intro d hd
    rcases List.mem_append.mp hd with hd | hd
    · exact s.before_begins d hd
    · rw [List.mem_singleton.mp hd]
      exact (s.last_dump.1.begins hpacked).append s.done
  obtain ⟨hsmall, hlarge⟩ := getUnparsedLoop_routes [] hbegins (Nat.zero_add buf.length)
  rw [List.append_nil] at hsmall hlarge
  unfold getUnparsedRouteInfo
  split_ifs with hsize
  · exact hsmall hsize
  · obtain ⟨buf', -, -, hloop⟩ := hlarge (Nat.not_lt.mp hsize)
    have hleft : ¬ buf.length - (s.datagrams.map List.length).sum < nlmsgHdrSize := by
      have hs : s.size = (s.datagrams.map List.length).sum := rfl
      omega
    rw [hloop, getUnparsedLoop, if_neg hleft]
    rfl

end DumpStream

/-- **Which dumps are read to their end.** Whatever the kernel's messages and the size of the buffer: the
reader calls `recv` for the datagrams of the dump only, and reports that the table is too large or returns a
buffer with the whole dump, if and only if `NLMSG_DONE` is alone in the last datagram or the buffer has no room
for all that is sent and one more header. -/
theorem getUnparsedRouteInfo_readsWhole_iff (s : DumpStream) (buf : Buffer) :
    ReadsWhole s.routes (getUnparsedRouteInfo (s.datagrams.map some) buf) ↔
      s.last = [] ∨ buf.length < s.size + nlmsgHdrSize := by
  constructor
  · intro h
    by_contra hnot
    obtain ⟨hpacked, hsize⟩ := not_or.mp hnot
    rw [s.getUnparsedRouteInfo_of_packed buf hpacked, if_neg hsize] at h
    rcases h with h | ⟨buf', len, h, -⟩
    · cases h
    · cases h
  · rintro (halone | hsize)
    · exact s.readsWhole_of_alone buf halone
    · by_cases halone : s.last = []
      · exact s.readsWhole_of_alone buf halone
      · rw [s.getUnparsedRouteInfo_of_packed buf halone, if_pos hsize]
        exact Or.inl rfl

section Sample

open Sample

/-- `NLMSG_DONE` with its error code. -/
def Sample.done : Buffer := Buffer.le32 20 ++ (Buffer.le16 nlmsgDone ++ (Buffer.le16 2 ++ List.replicate 12 0))

/-- A dump of one route, sent with `NLMSG_DONE` behind it. -/
def Sample.packed : DumpStream where
  before := []
  last := [defaultRoute]
  lastBytes := [defaultRoute].flatMap RouteMsg.encode
  done := Sample.done
  before_nonempty := fun d hd => (nomatch hd)
  before_dump := fun d hd => (nomatch hd)
  last_dump := by
    refine ⟨isDump_flatMap_encode fun m hm => Sample.wellFormed m ?_, by decide⟩
    simp only [List.mem_cons] at hm ⊢
    tauto
  isDone := ⟨⟨by decide, by decide⟩, by decide⟩

/-- The reader waits for a datagram that does not come. -/
theorem getUnparsedRouteInfo_waits :
    getUnparsedRouteInfo (packed.datagrams.map some) (List.replicate 10240 0) = .ok .waiting ∧
    ¬ ReadsWhole packed.routes (getUnparsedRouteInfo (packed.datagrams.map some) (List.replicate 10240 0)) := by
  have hwaiting : getUnparsedRouteInfo (packed.datagrams.map some) (List.replicate 10240 0) = .ok .waiting := by
    rw [packed.getUnparsedRouteInfo_of_packed _ (List.cons_ne_nil _ _), List.length_replicate]
    rfl
  refine ⟨hwaiting, ?_⟩
  rw [hwaiting]
  rintro (h | ⟨buf, len, h, -⟩)
  · cases h
  · cases h

end Sample

end StaticRouter
