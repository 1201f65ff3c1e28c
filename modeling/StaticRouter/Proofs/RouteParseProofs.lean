import StaticRouter.RouteDump

/-!
# The routes of a dump

`parse_routing_info` walks through the messages and the attributes of a well-formed dump. What a message
does to the table is fixed by the message, but for the name that the stack holds when no attribute gives one.
-/

namespace StaticRouter

open CMem

/-! ## Names -/

theorem strcmpEq_eq {name b : Buffer} (hname : 0 ∉ name) (hlen : name.length < b.length) :
    strcmpEq (name ++ [0]) b = .ok (decide (b.takeWhile (· ≠ 0) = name)) := by
  induction name generalizing b with
  | nil =>
    cases b with
    | nil => cases hlen
    | cons x b =>
      by_cases hx : x = 0
      · subst hx
        rfl
      · have hx' : (0 : UInt8) ≠ x := fun he => hx he.symm
        simp [strcmpEq, hx, hx']
  | cons a name ih =>
    cases b with
    | nil => cases hlen
    | cons x b =>
      have ha : a ≠ 0 := fun he => hname (he ▸ List.mem_cons_self)
      have hrest : 0 ∉ name := fun hm => hname (List.mem_cons_of_mem a hm)
      show strcmpEq (a :: (name ++ [0])) (x :: b) = _
      unfold strcmpEq
      by_cases hax : a = x
      · subst hax
        rw [if_neg (by simp), if_neg ha, ih hrest (by simpa using hlen)]
        simp [ha]
      · rw [if_pos hax]
        by_cases hx : x = 0
        · simp [hx]
        · simp [hx, Ne.symm hax]

/-- `if_name_to_iface` finds the first interface of that name, and needs a terminator if there is none. -/
theorem ifNameToIface_eq (buf : NameBuf) (ifaces : List NamedIface) : ifNameToIface buf ifaces =
    match ifaces.find? fun i => i.name.bytes = buf.text with
    | some i => .ok (some i.iface)
    | none => if 0 ∈ buf.bytes then .ok none else .error .outOfBounds := by
  induction ifaces with
  | nil => rfl
  | cons i ifaces ih =>
    have hlen : i.name.bytes.length < buf.bytes.length := buf.length_eq ▸ i.name.short
    rw [ifNameToIface, IfName.str, strcmpEq_eq i.name.noNul hlen, ok_bind]
    by_cases hi : buf.text = i.name.bytes
    · have hi' : buf.bytes.takeWhile (· ≠ 0) = i.name.bytes := hi
      rw [List.find?_cons_of_pos (by simp [hi]), hi']
      simp
    · have hi' : decide (buf.bytes.takeWhile (· ≠ 0) = i.name.bytes) = false := decide_eq_false hi
      rw [List.find?_cons_of_neg (by simpa using Ne.symm hi), ← ih, hi']
      rfl

/-- The buffer after `strcpy`. -/
theorem NameBuf.strcpy_bytes (buf : NameBuf) (name : IfName) :
    (buf.strcpy name).bytes = name.bytes ++ 0 :: buf.bytes.drop (name.bytes.length + 1) := by
  show buf.bytes.splice 0 name.str = _
  simp [Buffer.splice, IfName.str]

@[simp] theorem NameBuf.strcpy_text (buf : NameBuf) (name : IfName) : (buf.strcpy name).text = name.bytes := by
  have hall : ∀ x ∈ name.bytes, decide (x ≠ 0) = true := by
    intro x hx
    simp only [decide_eq_true_eq]
    exact fun he => name.noNul (he ▸ hx)
  rw [NameBuf.text, NameBuf.strcpy_bytes, List.takeWhile_append_of_pos hall]
  simp

@[simp] theorem NameBuf.zero_mem_strcpy (buf : NameBuf) (name : IfName) : 0 ∈ (buf.strcpy name).bytes := by
  rw [NameBuf.strcpy_bytes]
  simp

/-! ## Attributes -/

theorem nlmsg_lengthAt (b : Buffer) (nlp : Nat) :
    nlmsg.lengthAt b nlp = (b.readLe32 nlp).map UInt32.toNat := rfl

theorem rtattr_lengthAt (b : Buffer) (rtap : Nat) :
    rtattr.lengthAt b rtap = (b.readLe16 rtap).map UInt16.toNat := rfl

theorem RtAttr.length_bytes (a : RtAttr) : a.bytes.length = rtattrSize + a.data.length := by
  simp [RtAttr.bytes, rtattrSize]
  omega

section Attr

variable {pre post : Buffer} {a : RtAttr}

theorem RtAttr.read_type : (pre ++ (a.bytes ++ post)).readLe16 (pre.length + rtaType) = .ok a.type := by
  have hlen : rtaType + 2 ≤ a.bytes.length := by
    rw [a.length_bytes]
    exact Nat.le_add_right rtattrSize _
  rw [Buffer.readLe16_within hlen]
  exact Buffer.readLe16_field rfl

theorem RtAttr.read_data (h : a.data.length = 4) : a.bytes.read rtattrSize 4 = .ok a.data := by
  have hbytes : a.bytes = (Buffer.le16 (.ofNat (rtattrSize + a.data.length)) ++ Buffer.le16 a.type) ++
      (a.data ++ []) := by simp [RtAttr.bytes]
  rw [hbytes]
  exact Buffer.read_field rfl h

theorem RtAttr.readU32 (h : a.data.length = 4) :
    (pre ++ (a.bytes ++ post)).readU32 (pre.length + rtattrSize) = .ok (.ofNat (Buffer.beNat a.data)) := by
  have hlen : rtattrSize + 4 ≤ a.bytes.length := Nat.le_of_eq (by rw [a.length_bytes, h])
  rw [Buffer.readU32_within hlen, Buffer.readU32, RtAttr.read_data h]
  rfl

theorem RtAttr.readLe32 (h : a.data.length = 4) :
    (pre ++ (a.bytes ++ post)).readLe32 (pre.length + rtattrSize) = .ok (.ofNat (Buffer.leNat a.data)) := by
  have hlen : rtattrSize + 4 ≤ a.bytes.length := Nat.le_of_eq (by rw [a.length_bytes, h])
  rw [Buffer.readLe32_within hlen, Buffer.readLe32, RtAttr.read_data h]
  rfl

end Attr

theorem RtAttr.isChunk (a : RtAttr) : rtattr.IsChunk a.bytes := by
  have hlen : a.bytes.length = rtattrSize + a.data.length := a.length_bytes
  refine ⟨Nat.le_trans (Nat.le_add_right rtattrSize _) (Nat.le_of_eq hlen.symm), ?_⟩
  have hsplit : a.bytes = [] ++ (Buffer.le16 (.ofNat (rtattrSize + a.data.length)) ++
      (Buffer.le16 a.type ++ a.data)) := rfl
  rw [hlen, rtattr_lengthAt, hsplit, Buffer.readLe16_field List.length_nil, Except.map,
    UInt16.toNat_ofNat_of_lt' a.short]

theorem RtAttr.length_padded (a : RtAttr) : a.padded.length = Tlv.align a.bytes.length := by
  have hle := Tlv.le_align a.bytes.length
  rw [RtAttr.padded, List.length_append, List.length_replicate]
  omega

section Parse

variable {ifIndexToName : Int32 → IfName} {ifaces : List NamedIface}

/-- The body of the inner loop. -/
theorem parseAttr_eq {buf pre post : Buffer} {a : RtAttr} (hbuf : buf = pre ++ (a.bytes ++ post))
    (hfour : a.type = rtaDst ∨ a.type = rtaGateway ∨ a.type = rtaOif → a.data.length = 4) {rtp : Nat}
    {dstLen : UInt8} (hdst : buf.readU8 (rtp + rtmDstLen) = .ok dstLen) (v : RouteVars) :
    parseAttr ifIndexToName buf rtp pre.length v = .ok (attrStep ifIndexToName dstLen v a) := by
  unfold parseAttr attrStep
  rw [hdst, hbuf, RtAttr.read_type, ok_bind]
  by_cases h₁ : a.type = rtaDst
  · rw [if_pos h₁, if_pos h₁, RtAttr.readU32 (hfour (Or.inl h₁))]
    rfl
  · rw [if_neg h₁, if_neg h₁]
    by_cases h₂ : a.type = rtaGateway
    · rw [if_pos h₂, if_pos h₂, RtAttr.readU32 (hfour (Or.inr (Or.inl h₂)))]
      rfl
    · rw [if_neg h₂, if_neg h₂]
      by_cases h₃ : a.type = rtaOif
      · rw [if_pos h₃, if_pos h₃, RtAttr.readLe32 (hfour (Or.inr (Or.inr h₃)))]
        rfl
      · rw [if_neg h₃, if_neg h₃]
        rfl

/-! ## Messages -/

/-- The mask of a prefix that is not empty. -/
theorem shift_eq_prefixMask {d : UInt8} (h₁ : 1 ≤ d.toNat) (h₃₂ : d.toNat ≤ 32) :
    (0xFFFFFFFF : UInt32) <<< (32 - d.toUInt32) = prefixMask d.toNat := by
  have hall : ∀ n : Fin 33, 1 ≤ n.val →
      (0xFFFFFFFF : UInt32) <<< (32 - (UInt8.ofNat n.val).toUInt32) = prefixMask n.val := by decide
  have hd : UInt8.ofNat d.toNat = d := UInt8.ofNat_toNat
  have hn := hall ⟨d.toNat, by omega⟩ h₁
  rwa [hd] at hn

section Fields

variable {dstLen : UInt8} {v : RouteVars} {a : RtAttr}

theorem attrStep_dst (h : a.type = rtaDst) : attrStep ifIndexToName dstLen v a =
    { v with dest := .ofNat (Buffer.beNat a.data), mask := 0xFFFFFFFF <<< (32 - dstLen.toUInt32) } := if_pos h

theorem attrStep_gateway (h : a.type = rtaGateway) : attrStep ifIndexToName dstLen v a =
    { v with gw := .ofNat (Buffer.beNat a.data) } := by
  rw [attrStep, h]
  rfl

theorem attrStep_oif (h : a.type = rtaOif) : attrStep ifIndexToName dstLen v a =
    { v with ifName := v.ifName.strcpy (oifName ifIndexToName a.data) } := by
  rw [attrStep, h]
  rfl

theorem attrStep_keeps_dst (h : a.type ≠ rtaDst) :
    (attrStep ifIndexToName dstLen v a).dest = v.dest ∧ (attrStep ifIndexToName dstLen v a).mask = v.mask := by
  rw [attrStep, if_neg h]
  split_ifs <;> exact ⟨rfl, rfl⟩

theorem attrStep_keeps_gateway (h : a.type ≠ rtaGateway) :
    (attrStep ifIndexToName dstLen v a).gw = v.gw := by
  rw [attrStep, if_neg h]
  split_ifs <;> rfl

theorem attrStep_keeps_oif (h : a.type ≠ rtaOif) :
    (attrStep ifIndexToName dstLen v a).ifName = v.ifName := by
  rw [attrStep, if_neg h]
  split_ifs <;> rfl

end Fields

/-! ### The variables after the attributes of a well-formed message -/

section Vars

variable {m : RouteMsg} (hm : m.WellFormed) (v : RouteVars)
include hm

theorem RouteMsg.WellFormed.dest (hv : v.dest = 0) :
    (m.attrs.foldl (attrStep ifIndexToName m.dstLen) v).dest = m.address rtaDst := by
  rw [Tlv.foldl_keyed (f := attrStep ifIndexToName m.dstLen) (g := RouteVars.dest)
    (v := fun a _ => .ofNat (Buffer.beNat a.data)) (fun v a h => by rw [attrStep_dst h])
    (fun v a h => (attrStep_keeps_dst h).1) hm.nodup, hv, RouteMsg.address, RouteMsg.attr]
  cases m.attrs.find? (·.type = rtaDst) <;> rfl

/-- Without an `RTA_DST` the prefix is empty. -/
theorem RouteMsg.WellFormed.mask (hv : v.mask = 0) :
    (m.attrs.foldl (attrStep ifIndexToName m.dstLen) v).mask = prefixMask m.dstLen.toNat := by
  rw [Tlv.foldl_keyed (f := attrStep ifIndexToName m.dstLen) (g := RouteVars.mask)
    (v := fun _ _ => 0xFFFFFFFF <<< (32 - m.dstLen.toUInt32)) (fun v a h => by rw [attrStep_dst h])
    (fun v a h => (attrStep_keeps_dst h).2) hm.nodup]
  have hiff := hm.dst_iff
  unfold RouteMsg.attr at hiff
  cases hfind : m.attrs.find? (·.type = rtaDst) with
  | some a =>
    rw [hfind] at hiff
    exact shift_eq_prefixMask (hiff.mp rfl) hm.dstLen_le
  | none =>
    rw [hfind] at hiff
    have hzero : m.dstLen.toNat = 0 := by
      by_contra hne
      cases hiff.mpr (Nat.one_le_iff_ne_zero.mpr hne)
    show v.mask = _
    rw [hv, hzero]
    rfl

theorem RouteMsg.WellFormed.gateway (hv : v.gw = 0) :
    (m.attrs.foldl (attrStep ifIndexToName m.dstLen) v).gw = m.address rtaGateway := by
  rw [Tlv.foldl_keyed (f := attrStep ifIndexToName m.dstLen) (g := RouteVars.gw)
    (v := fun a _ => .ofNat (Buffer.beNat a.data)) (fun v a h => by rw [attrStep_gateway h])
    (fun v a h => attrStep_keeps_gateway h) hm.nodup, hv, RouteMsg.address, RouteMsg.attr]
  cases m.attrs.find? (·.type = rtaGateway) <;> rfl

theorem RouteMsg.WellFormed.oif : (m.attrs.foldl (attrStep ifIndexToName m.dstLen) v).ifName =
    ((m.attr rtaOif).map fun d => v.ifName.strcpy (oifName ifIndexToName d)).getD v.ifName := by
  rw [Tlv.foldl_keyed (f := attrStep ifIndexToName m.dstLen) (g := RouteVars.ifName)
    (v := fun a n => n.strcpy (oifName ifIndexToName a.data)) (fun v a h => by rw [attrStep_oif h])
    (fun v a h => attrStep_keeps_oif h) hm.nodup, RouteMsg.attr]
  cases m.attrs.find? (·.type = rtaOif) <;> rfl

end Vars

theorem RouteMsg.vars_eq {m : RouteMsg} (hm : m.WellFormed) (left : NameBuf) :
    m.attrs.foldl (attrStep ifIndexToName m.dstLen) ⟨0, 0, 0, left⟩ =
      ⟨m.address rtaDst, prefixMask m.dstLen.toNat, m.address rtaGateway,
        ((m.attr rtaOif).map fun d => left.strcpy (oifName ifIndexToName d)).getD left⟩ := by
  let start : RouteVars := ⟨0, 0, 0, left⟩
  calc m.attrs.foldl (attrStep ifIndexToName m.dstLen) start
      = ⟨(m.attrs.foldl (attrStep ifIndexToName m.dstLen) start).dest,
          (m.attrs.foldl (attrStep ifIndexToName m.dstLen) start).mask,
          (m.attrs.foldl (attrStep ifIndexToName m.dstLen) start).gw,
          (m.attrs.foldl (attrStep ifIndexToName m.dstLen) start).ifName⟩ := rfl
    _ = _ := by rw [hm.dest start rfl, hm.mask start rfl, hm.gateway start rfl, hm.oif start]

section Encoded

variable {m : RouteMsg} {c : Buffer}

/-- The headers have a fixed size. -/
theorem RouteMsg.length_headers (m : RouteMsg) (len : Nat) :
    (m.nlmsghdr len ++ m.rtmsg).length = nlmsgHdrSize + rtmsgSize := rfl

theorem RouteMsg.Encodes.size_le (h : m.Encodes c) : nlmsgHdrSize + rtmsgSize ≤ c.length := by
  obtain ⟨bs, -, rfl, -⟩ := h
  rw [← List.append_assoc, List.length_append, RouteMsg.length_headers]
  exact Nat.le_add_right _ _

/-- The headers say the length, so the message can be walked over. -/
theorem RouteMsg.Encodes.isChunk (h : m.Encodes c) : nlmsg.IsChunk c := by
  obtain ⟨bs, -, rfl, hlt⟩ := h
  have hlen : (m.nlmsghdr (nlmsgHdrSize + rtmsgSize + bs.length) ++ (m.rtmsg ++ bs)).length =
      nlmsgHdrSize + rtmsgSize + bs.length := by
    rw [← List.append_assoc, List.length_append, RouteMsg.length_headers]
  refine ⟨?_, ?_⟩
  · rw [hlen, Nat.add_assoc]
    exact Nat.le_add_right nlmsgHdrSize _
  · have hsplit : ∀ len, m.nlmsghdr len ++ (m.rtmsg ++ bs) = [] ++ (Buffer.le32 (.ofNat len) ++
        (Buffer.le16 rtmNewRoute ++ Buffer.le16 m.nlmsgFlags ++ Buffer.le32 m.nlmsgSeq ++
          Buffer.le32 m.nlmsgPid ++ (m.rtmsg ++ bs))) := fun len => rfl
    rw [hlen, hsplit, nlmsg_lengthAt, Buffer.readLe32_field List.length_nil, Except.map,
      UInt32.toNat_ofNat_of_lt' hlt]

/-- The fields of `struct rtmsg` that are read. -/
theorem RouteMsg.Encodes.fields (h : m.Encodes c) :
    c.readU8 (nlmsgHdrSize + rtmTable) = .ok m.table ∧ c.readU8 (nlmsgHdrSize + rtmDstLen) = .ok m.dstLen := by
  obtain ⟨bs, -, rfl, -⟩ := h
  have htable : ∀ len, m.nlmsghdr len ++ (m.rtmsg ++ bs) = (m.nlmsghdr len ++
      [m.family, m.dstLen, m.srcLen, m.tos]) ++ ([m.table] ++
        ([m.protocol, m.scope, m.kind] ++ (Buffer.le32 m.flags ++ bs))) := fun len => rfl
  have hdst : ∀ len, m.nlmsghdr len ++ (m.rtmsg ++ bs) = (m.nlmsghdr len ++ [m.family]) ++ ([m.dstLen] ++
      ([m.srcLen, m.tos, m.table, m.protocol, m.scope, m.kind] ++ (Buffer.le32 m.flags ++ bs))) :=
    fun len => rfl
  constructor
  · rw [htable]
    exact Buffer.readU8_field rfl
  · rw [hdst]
    exact Buffer.readU8_field rfl

end Encoded

/-- The inner loop. -/
theorem walk_attrs {buf pre c post : Buffer} {m : RouteMsg} (hbuf : buf = pre ++ (c ++ post))
    (henc : m.Encodes c) (hm : m.WellFormed) (v : RouteVars) :
    rtattr.walk buf (parseAttr ifIndexToName buf (pre.length + nlmsgHdrSize)) c.length
      (pre.length + nlmsgHdrSize + rtmsgSize) (c.length - (nlmsgHdrSize + rtmsgSize : Nat)) v =
        .ok (m.attrs.foldl (attrStep ifIndexToName m.dstLen) v) := by
  have hdst : buf.readU8 (pre.length + nlmsgHdrSize + rtmDstLen) = .ok m.dstLen := by
    have hsize : nlmsgHdrSize + rtmDstLen + 1 ≤ c.length := Nat.le_trans (by decide) henc.size_le
    rw [hbuf, Nat.add_assoc, Buffer.readU8_within hsize, henc.fields.2]
  obtain ⟨bs, hlaid, hc, -⟩ := henc
  have hlen : c.length = nlmsgHdrSize + rtmsgSize + bs.length := by
    rw [hc, ← List.append_assoc, List.length_append, RouteMsg.length_headers]
  have hsplit : buf = (pre ++ (m.nlmsghdr (nlmsgHdrSize + rtmsgSize + bs.length) ++ m.rtmsg)) ++ (bs ++ post) := by
    rw [hbuf, hc]
    simp only [List.append_assoc]
  have hoff : pre.length + nlmsgHdrSize + rtmsgSize =
      (pre ++ (m.nlmsghdr (nlmsgHdrSize + rtmsgSize + bs.length) ++ m.rtmsg)).length := by
    rw [List.length_append, RouteMsg.length_headers, Nat.add_assoc]
  have hleft : (c.length : Int) - (nlmsgHdrSize + rtmsgSize : Nat) = bs.length := by
    rw [hlen]
    omega
  have hfuel : m.attrs.length ≤ c.length := Nat.le_trans hlaid.length_le (by omega)
  have hbody : ∀ a ∈ m.attrs, ∀ pre' c' post', buf = pre' ++ (c' ++ post') → c' = a.bytes → ∀ v,
      parseAttr ifIndexToName buf (pre.length + nlmsgHdrSize) pre'.length v =
        pure (attrStep ifIndexToName m.dstLen v a) := by
    intro a ha pre' c' post' hb hc' v
    subst hc'
    exact parseAttr_eq hb (hm.four a ha) hdst v
  rw [hoff, hleft, hlaid.walk_eq hbody hsplit hfuel v]
  exact List.foldlM_pure

/-- The body of the outer loop. -/
theorem parseMsg_eq {buf pre c post : Buffer} {m : RouteMsg} (hbuf : buf = pre ++ (c ++ post))
    (henc : m.Encodes c) (hm : m.WellFormed) (stack : Nat → NameBuf) (s : Nat × List RtEntry) :
    parseMsg ifIndexToName ifaces stack buf pre.length s =
      msgStep ifIndexToName ifaces (stack pre.length) m s := by
  have hchunk := henc.isChunk
  have htable : buf.readU8 (pre.length + nlmsgHdrSize + rtmTable) = .ok m.table := by
    have hsize : nlmsgHdrSize + rtmTable + 1 ≤ c.length := Nat.le_trans (by decide) henc.size_le
    rw [hbuf, Nat.add_assoc, Buffer.readU8_within hsize, henc.fields.1]
  have hlength : nlmsg.lengthAt buf pre.length = .ok c.length := by
    rw [hbuf, nlmsg.within pre c post hchunk.size_le, hchunk.length_eq]
  unfold parseMsg msgStep
  dsimp only
  rw [htable, ok_bind]
  by_cases ht : m.table ≠ rtTableMain
  · rw [if_pos ht, if_pos ht]
    rfl
  · rw [if_neg ht, if_neg ht, hlength, ok_bind, walk_attrs hbuf henc hm, ok_bind]

/-! ## What a message adds -/

theorem IfName.eq_iff {n n' : IfName} : n = n' ↔ n.bytes = n'.bytes := by
  cases n
  cases n'
  simp

/-- The table and its size with the entry, if there is one. -/
def addRoute (e : Option RtEntry) (s : Nat × List RtEntry) : Nat × List RtEntry :=
  e.elim s fun e => (s.1 + 1, addRtEntry e s.2)

/-- Messages that add what `entry` says. -/
theorem foldlM_addRoute {f : Nat × List RtEntry → RouteMsg → Except Fault (Nat × List RtEntry)}
    {entry : RouteMsg → Option RtEntry} {ms : List RouteMsg}
    (hf : ∀ m ∈ ms, ∀ s, f s m = .ok (addRoute (entry m) s)) (s : Nat × List RtEntry) :
    ms.foldlM f s = .ok (s.1 + (ms.filterMap entry).length, s.2 ++ ms.filterMap entry) := by
  induction ms generalizing s with
  | nil => simp
  | cons m ms ih =>
    rw [List.foldlM_cons, hf m List.mem_cons_self, ok_bind, ih fun m' hm' => hf m' (List.mem_cons_of_mem m hm')]
    cases he : entry m with
    | none => rw [List.filterMap_cons_none he]; rfl
    | some e =>
      rw [List.filterMap_cons_some he]
      simp [addRoute, addRtEntry]
      omega

/-- A message of another table, or one with an `RTA_OIF`, says what it adds whatever the stack holds. -/
theorem msgStep_of_oif {m : RouteMsg} (hm : m.WellFormed) (left : NameBuf)
    (hoif : m.table = rtTableMain → m.attr rtaOif ≠ none) (s : Nat × List RtEntry) :
    msgStep ifIndexToName ifaces left m s = .ok (addRoute (routeEntry ifIndexToName ifaces m) s) := by
  unfold msgStep routeEntry
  by_cases ht : m.table = rtTableMain
  · rw [if_neg (not_not_intro ht), if_pos ht]
    obtain ⟨d, hd⟩ := Option.ne_none_iff_exists'.mp (hoif ht)
    have hfind : (ifaces.find? fun i => i.name.bytes = (oifName ifIndexToName d).bytes) =
        ifaces.find? fun i => i.name = oifName ifIndexToName d := by simp only [IfName.eq_iff]
    dsimp only
    rw [RouteMsg.vars_eq hm, hd, Option.map_some, Option.getD_some, ifNameToIface_eq,
      NameBuf.strcpy_text, hfind]
    cases hi : ifaces.find? fun i => i.name = oifName ifIndexToName d with
    | none => simp [addRoute, hi]
    | some i => simp [addRoute, hi, newRtEntry]
  · rw [if_pos ht, if_neg ht]
    rfl

/-- A message of the main table without `RTA_OIF` adds an entry for the interface that the stack names. -/
theorem msgStep_of_noOif {m : RouteMsg} (hm : m.WellFormed) (left : NameBuf) (ht : m.table = rtTableMain)
    (hoif : m.attr rtaOif = none) (s : Nat × List RtEntry) : msgStep ifIndexToName ifaces left m s =
      match ifaces.find? fun i => i.name.bytes = left.text with
      | some i => .ok (s.1 + 1, addRtEntry (newRtEntry (m.address rtaDst) (prefixMask m.dstLen.toNat)
          (m.address rtaGateway) i.iface) s.2)
      | none => if 0 ∈ left.bytes then .ok s else .error .outOfBounds := by
  unfold msgStep
  rw [if_neg (not_not_intro ht)]
  dsimp only
  rw [RouteMsg.vars_eq hm, hoif, Option.map_none, Option.getD_none, ifNameToIface_eq]
  cases ifaces.find? fun i => i.name.bytes = left.text with
  | some i => rfl
  | none =>
    dsimp only
    split_ifs <;> rfl

end Parse

/-! ## Dumps -/

/-- Attributes with their padding. -/
theorem laid_flatMap_padded (as : List RtAttr) :
    rtattr.Laid (fun a c => c = a.bytes) as (as.flatMap RtAttr.padded) ∧
      4 ∣ (as.flatMap RtAttr.padded).length := by
  induction as with
  | nil => exact ⟨.nil, Nat.dvd_zero 4⟩
  | cons a as ih =>
    have hpad : a.bytes.length + (List.replicate (Tlv.align a.bytes.length - a.bytes.length) (0 : UInt8)).length =
        Tlv.align a.bytes.length := by
      have hle := Tlv.le_align a.bytes.length
      rw [List.length_replicate]
      omega
    rw [List.flatMap_cons]
    refine ⟨?_, ?_⟩
    · rw [RtAttr.padded, List.append_assoc]
      exact .cons rfl a.isChunk hpad ih.1
    · rw [List.length_append, a.length_padded]
      exact Nat.dvd_add (Tlv.dvd_align _) ih.2

theorem RouteMsg.length_encode (m : RouteMsg) :
    m.encode.length = nlmsgHdrSize + rtmsgSize + (m.attrs.flatMap RtAttr.padded).length := by
  rw [RouteMsg.encode, ← List.append_assoc, List.length_append, RouteMsg.length_headers]

theorem RouteMsg.dvd_length_encode (m : RouteMsg) : 4 ∣ m.encode.length := by
  rw [m.length_encode]
  exact Nat.dvd_add (by decide) (laid_flatMap_padded m.attrs).2

theorem RouteMsg.encodes_encode {m : RouteMsg} (hlt : m.encode.length < 2 ^ 32) : m.Encodes m.encode :=
  ⟨_, (laid_flatMap_padded m.attrs).1, rfl, by rwa [m.length_encode] at hlt⟩

/-- Well-formed messages that fit their length fields make a dump. -/
theorem isDump_flatMap_encode {ms : List RouteMsg} (h : ∀ m ∈ ms, m.WellFormed ∧ m.encode.length < 2 ^ 32) :
    IsDump ms (ms.flatMap RouteMsg.encode) where
  laid := by
    induction ms with
    | nil => exact .nil
    | cons m ms ih =>
      have henc := RouteMsg.encodes_encode (h m List.mem_cons_self).2
      have hpad : m.encode.length + ([] : Buffer).length = Tlv.align m.encode.length :=
        (Tlv.align_of_dvd m.dvd_length_encode).symm
      exact .cons henc henc.isChunk hpad (ih fun m' hm' => h m' (List.mem_cons_of_mem m hm'))
  wellFormed m hm := (h m hm).1

section Dump

variable {ifIndexToName : Int32 → IfName} {ifaces : List NamedIface} {ms : List RouteMsg} {bs : Buffer}

/-- The outer loop, if the stack holds the same bytes whenever a message is reached. -/
theorem parseRoutingInfo_const (hdump : IsDump ms bs) (rest : Buffer) (left : NameBuf) :
    parseRoutingInfo ifIndexToName ifaces (fun _ => left) (bs ++ rest) bs.length =
      ms.foldlM (fun s m => msgStep ifIndexToName ifaces left m s) (0, []) := by
  refine hdump.laid.walk_start ?_ (0, [])
  intro m hm pre c post hb hc s
  exact parseMsg_eq hb hc (hdump.wellFormed m hm) _ s

/-- The outer loop, if every message of the main table has an `RTA_OIF`. -/
theorem parseRoutingInfo_of_oif (hdump : IsDump ms bs) (rest : Buffer) (stack : Nat → NameBuf)
    (hoif : ∀ m ∈ ms, m.table = rtTableMain → m.attr rtaOif ≠ none) : LoadsRoutes ifIndexToName ifaces ms
      (parseRoutingInfo ifIndexToName ifaces stack (bs ++ rest) bs.length) := by
  have hbody : ∀ m ∈ ms, ∀ pre c post, bs ++ rest = pre ++ (c ++ post) → m.Encodes c → ∀ s,
      parseMsg ifIndexToName ifaces stack (bs ++ rest) pre.length s =
        .ok (addRoute (routeEntry ifIndexToName ifaces m) s) := by
    intro m hm pre c post hb hc s
    rw [parseMsg_eq hb hc (hdump.wellFormed m hm), msgStep_of_oif (hdump.wellFormed m hm) _ (hoif m hm)]
  have hwalk := hdump.laid.walk_start hbody (0, [])
  rw [LoadsRoutes, parseRoutingInfo]
  refine hwalk.trans ((foldlM_addRoute (fun m _ s => rfl) (0, [])).trans ?_)
  rw [Nat.zero_add, List.nil_append]

/-- More messages that add an entry. -/
theorem length_filterMap_lt {f g : RouteMsg → Option RtEntry} (hle : ∀ m ∈ ms, (f m).isSome → (g m).isSome)
    {m : RouteMsg} (hm : m ∈ ms) (hf : f m = none) (hg : (g m).isSome) :
    (ms.filterMap f).length < (ms.filterMap g).length := by
  obtain ⟨A, B, rfl⟩ := List.append_of_mem hm
  have hA : A.countP (fun m => (f m).isSome) ≤ A.countP fun m => (g m).isSome :=
    List.countP_mono_left fun m hm => hle m (List.mem_append_left _ hm)
  have hB : B.countP (fun m => (f m).isSome) ≤ B.countP fun m => (g m).isSome :=
    List.countP_mono_left fun m hm => hle m (List.mem_append_right _ (List.mem_cons_of_mem _ hm))
  rw [List.length_filterMap_eq_countP, List.length_filterMap_eq_countP, List.countP_append, List.countP_append,
    List.countP_cons_of_neg (by simp [hf]), List.countP_cons_of_pos (by simpa using hg)]
  omega

/-- If the stack spells the name of the first interface, a message without `RTA_OIF` adds an entry. -/
theorem parseRoutingInfo_of_noOif (hdump : IsDump ms bs) (rest : Buffer) (i : NamedIface)
    {m : RouteMsg} (hm : m ∈ ms) (ht : m.table = rtTableMain) (hoif : m.attr rtaOif = none) (left : NameBuf)
    (hleft : left.text = i.name.bytes) : ¬ LoadsRoutes ifIndexToName (i :: ifaces) ms
      (parseRoutingInfo ifIndexToName (i :: ifaces) (fun _ => left) (bs ++ rest) bs.length) := by
  let added (m : RouteMsg) : Option RtEntry :=
    if m.table = rtTableMain ∧ m.attr rtaOif = none then
      some (newRtEntry (m.address rtaDst) (prefixMask m.dstLen.toNat) (m.address rtaGateway) i.iface)
    else routeEntry ifIndexToName (i :: ifaces) m
  have hstep : ∀ m ∈ ms, ∀ s, msgStep ifIndexToName (i :: ifaces) left m s = .ok (addRoute (added m) s) := by
    intro m hm s
    by_cases h : m.table = rtTableMain ∧ m.attr rtaOif = none
    · rw [msgStep_of_noOif (hdump.wellFormed m hm) left h.1 h.2, List.find?_cons_of_pos (by simp [hleft])]
      simp [added, h, addRoute]
    · rw [msgStep_of_oif (hdump.wellFormed m hm) left (not_and.mp h)]
      simp [added, h]
  rw [LoadsRoutes, parseRoutingInfo_const hdump, foldlM_addRoute hstep]
  intro he
  have hlen := congrArg Prod.fst (Except.ok.inj he)
  have hlt := length_filterMap_lt (f := routeEntry ifIndexToName (i :: ifaces)) (g := added) (fun m _ h => ?_) hm
    (by simp [routeEntry, hoif]) (by simp [added, ht, hoif])
  · simp only [Nat.zero_add] at hlen
    omega
  · simp only [added]
    split_ifs with hc
    · rfl
    · exact h

/-- **Which dumps are loaded faithfully.** For every well-formed dump, the table consists of the routes of the
main table through the router's interfaces, in the order of the messages and whatever the stack holds, if and
only if every message of the main table has an `RTA_OIF`. Unless there is no interface at all, it is the same
if the stack holds nothing but strings that end within their 16 bytes. -/
theorem parseRoutingInfo_faithful_iff (hdump : IsDump ms bs) (rest : Buffer) :
    ((∀ stack, LoadsRoutes ifIndexToName ifaces ms
      (parseRoutingInfo ifIndexToName ifaces stack (bs ++ rest) bs.length)) ↔
        ∀ m ∈ ms, m.table = rtTableMain → m.attr rtaOif ≠ none) ∧
    (ifaces ≠ [] → ((∀ stack, (∀ nlp, 0 ∈ (stack nlp).bytes) → LoadsRoutes ifIndexToName ifaces ms
      (parseRoutingInfo ifIndexToName ifaces stack (bs ++ rest) bs.length)) ↔
        ∀ m ∈ ms, m.table = rtTableMain → m.attr rtaOif ≠ none)) := by
  refine ⟨⟨fun hall m hm ht hoif => ?_, fun hoif stack => parseRoutingInfo_of_oif hdump rest stack hoif⟩,
    fun hne => ⟨fun hall m hm ht hoif => ?_, fun hoif stack _ => parseRoutingInfo_of_oif hdump rest stack hoif⟩⟩
  · -- sixteen bytes without a terminator are no interface's name
    let left : NameBuf := ⟨List.replicate 16 1, rfl⟩
    have hparse := hall fun _ => left
    rw [LoadsRoutes, parseRoutingInfo_const hdump] at hparse
    obtain ⟨s, s', hs⟩ := foldlM_ok_mem hparse hm
    have hnone : (ifaces.find? fun i => i.name.bytes = left.text) = none := by
      refine List.find?_eq_none.mpr fun i _ hi => ?_
      have hlen : i.name.bytes.length = 16 := congrArg List.length (of_decide_eq_true hi)
      have hshort := i.name.short
      omega
    have hnul : (0 : UInt8) ∉ left.bytes := by decide
    rw [msgStep_of_noOif (hdump.wellFormed m hm) left ht hoif, hnone] at hs
    dsimp only at hs
    rw [if_neg hnul] at hs
    cases hs
  · obtain ⟨i, rest', rfl⟩ := List.exists_cons_of_ne_nil hne
    let left : NameBuf := NameBuf.strcpy ⟨List.replicate 16 0, rfl⟩ i.name
    exact parseRoutingInfo_of_noOif hdump rest i hm ht hoif left (NameBuf.strcpy_text _ _)
      (hall (fun _ => left) fun _ => NameBuf.zero_mem_strcpy _ _)

end Dump

section Sample

open Sample

theorem Sample.wellFormed : ∀ m ∈ [defaultRoute, connectedRoute, localRoute, unreachable],
    m.WellFormed ∧ m.encode.length < 2 ^ 32 := by
  have hall : ∀ m ∈ [defaultRoute, connectedRoute, localRoute, unreachable],
      (m.attrs.map (·.type)).Nodup ∧ ((m.attr rtaDst).isSome ↔ 1 ≤ m.dstLen.toNat) ∧ m.dstLen.toNat ≤ 32 ∧
        (∀ a ∈ m.attrs, a.type = rtaDst ∨ a.type = rtaGateway ∨ a.type = rtaOif → a.data.length = 4) ∧
          m.encode.length < 2 ^ 32 := by decide
  intro m hm
  obtain ⟨hnd, hdst, hle, hfour, hlt⟩ := hall m hm
  exact ⟨⟨hnd, hdst, hle, hfour⟩, hlt⟩

/-- Attributes in different orders, and a message of another table. -/
theorem parseRoutingInfo_faithful_iff_sample : LoadsRoutes ifIndexToName managed
    [defaultRoute, localRoute, connectedRoute] (parseRoutingInfo ifIndexToName managed
      (fun _ => holding eth0Name) ([defaultRoute, localRoute, connectedRoute].flatMap RouteMsg.encode ++ [])
      ([defaultRoute, localRoute, connectedRoute].flatMap RouteMsg.encode).length) := by
  have hdump : IsDump [defaultRoute, localRoute, connectedRoute] _ :=
    isDump_flatMap_encode fun m hm => Sample.wellFormed m (by simp only [List.mem_cons] at hm ⊢; tauto)
  exact (parseRoutingInfo_faithful_iff hdump []).1.mpr (by decide) fun _ => holding eth0Name

/-- The network is unreachable, and the stack still holds the name from the message before. -/
theorem parseRoutingInfo_addsUnreachable :
    IsDump [defaultRoute, unreachable] ([defaultRoute, unreachable].flatMap RouteMsg.encode) ∧
    parseRoutingInfo ifIndexToName managed (fun _ => holding eth0Name)
      ([defaultRoute, unreachable].flatMap RouteMsg.encode)
      ([defaultRoute, unreachable].flatMap RouteMsg.encode).length =
        .ok (2, [⟨0, 0, 0x0a0001fe, ⟨0, ⟨[2, 0, 0, 0, 0, 1], rfl⟩, 0x0a000101⟩⟩,
          ⟨0x0a090000, 0xffff0000, 0, ⟨0, ⟨[2, 0, 0, 0, 0, 1], rfl⟩, 0x0a000101⟩⟩]) ∧
    ¬ LoadsRoutes ifIndexToName managed [defaultRoute, unreachable]
      (parseRoutingInfo ifIndexToName managed (fun _ => holding eth0Name)
        ([defaultRoute, unreachable].flatMap RouteMsg.encode)
        ([defaultRoute, unreachable].flatMap RouteMsg.encode).length) := by
  refine ⟨isDump_flatMap_encode fun m hm => Sample.wellFormed m ?_, by decide, ?_⟩
  · simp only [List.mem_cons] at hm ⊢
    tauto
  · unfold LoadsRoutes
    decide

end Sample

end StaticRouter
