import StaticRouter.Proofs.LoopProofs
import StaticRouter.Proofs.RouteParseProofs
import StaticRouter.Proofs.RunProofs

/-!
# Proofs: the whole program

What holds from `init_ustack` on.
-/

namespace StaticRouter

open CMem

/-! ## The interfaces of the routes -/

theorem ifNameToIface_mem {buf : NameBuf} {ifaces : List NamedIface} {iface : Iface}
    (h : ifNameToIface buf ifaces = .ok (some iface)) : ∃ i ∈ ifaces, i.iface = iface := by
  induction ifaces with
  | nil =>
    rw [ifNameToIface] at h
    split_ifs at h
    cases h
  | cons i rest ih =>
    rw [ifNameToIface, bind_ok] at h
    obtain ⟨same, -, h⟩ := h
    cases same with
    | true => exact ⟨i, List.mem_cons_self, Option.some.inj (Except.ok.inj h)⟩
    | false =>
      obtain ⟨j, hj, hiface⟩ := ih h
      exact ⟨j, List.mem_cons_of_mem i hj, hiface⟩

variable {ifIndexToName : Int32 → IfName} {ifaces : List NamedIface} {stack : Nat → NameBuf} {buf : Buffer}

/-- Whatever the buffer holds, a route goes through one of the interfaces. -/
theorem parseRoutingInfo_ifaces {len : Nat} {r : Nat × List RtEntry}
    (h : parseRoutingInfo ifIndexToName ifaces stack buf len = .ok r) :
    ∀ rt ∈ r.2, ∃ i ∈ ifaces, i.iface = rt.iface := by
  refine Tlv.Format.walk_invariant (I := fun r : Nat × List RtEntry => ∀ rt ∈ r.2, ∃ i ∈ ifaces, i.iface = rt.iface)
    (fun nlp s s' hs hbody => ?_) (by simp) h
  unfold parseMsg at hbody
  rw [bind_ok] at hbody
  obtain ⟨table, -, hbody⟩ := hbody
  by_cases ht : table ≠ rtTableMain
  · rw [if_pos ht] at hbody
    exact Except.ok.inj hbody ▸ hs
  · rw [if_neg ht, bind_ok] at hbody
    obtain ⟨n, -, hbody⟩ := hbody
    rw [bind_ok] at hbody
    obtain ⟨v, -, hbody⟩ := hbody
    rw [bind_ok] at hbody
    obtain ⟨found, hfound, hbody⟩ := hbody
    cases found with
    | none => exact Except.ok.inj hbody ▸ hs
    | some iface =>
      rw [← Except.ok.inj hbody]
      intro rt hrt
      rcases List.mem_append.mp hrt with hrt | hrt
      · exact hs rt hrt
      · rw [List.mem_singleton.mp hrt]
        exact ifNameToIface_mem hfound

theorem initUstack_ok {k : Kernel} {addrs : Option (List IfAddrs)} {opened : List Int}
    {ds : List (Option Buffer)} {env : Env} {u : UStack} {rtable : List RtEntry} {router : Router}
    (h : initUstack k addrs opened ifIndexToName stack ds buf env = .ok (u, rtable, router)) :
    k.initAllIfaces addrs opened = .ok u ∧ router = arpcacheInit env ∧
      ∀ rt ∈ rtable, ∃ info ∈ u.ifaceList, info.iface = rt.iface := by
  unfold initUstack at h
  rw [bind_ok] at h
  obtain ⟨-, -, h⟩ := h
  rw [bind_ok] at h
  obtain ⟨u', hu, h⟩ := h
  dsimp only at h
  rw [bind_ok] at h
  obtain ⟨loaded, hl, h⟩ := h
  cases loaded with
  | none => cases h
  | some loaded =>
    cases Except.ok.inj h
    refine ⟨hu, rfl, fun rt hrt => ?_⟩
    have hload : loadRtableFromKernel ifIndexToName (u.ifaceList.map (·.named)) stack ds buf =
        .ok (some loaded) := by
      cases hres : loadRtableFromKernel ifIndexToName (u.ifaceList.map (·.named)) stack ds buf with
      | error f =>
        rw [hres] at hl
        cases hl
      | ok x =>
        rw [hres] at hl
        rw [Except.ok.inj hl]
    unfold loadRtableFromKernel at hload
    rw [bind_ok] at hload
    obtain ⟨e, -, hload⟩ := hload
    cases e with
    | returned buf' len =>
      dsimp only at hload
      rw [bind_ok] at hload
      obtain ⟨r, hr, hload⟩ := hload
      obtain rfl := Option.some.inj (Except.ok.inj hload)
      obtain ⟨i, hi, hiface⟩ := parseRoutingInfo_ifaces hr rt hrt
      obtain ⟨info, hinfo, rfl⟩ := List.mem_map.mp hi
      exact ⟨info, hinfo, hiface⟩
    | tooLarge => cases hload
    | netlinkError => cases hload
    | waiting => cases hload

/-! ## Where frames are sent -/

/-- What has been sent, and what is waited for, is on the interfaces with `P`. -/
structure Store.Stays (P : Iface → Prop) (st : Store) : Prop where
  sent : ∀ iface frame o, .sent iface frame o ∈ st.router.trace → P iface
  waiting : ∀ r ∈ st.router.reqList, P r.iface

/-- The action uses an interface with `P`, or that of a request. -/
def UsesOnly (P : Iface → Prop) : Act → Store → Prop
  | .submit iface _ _, _ => P iface
  | .arp iface _, st => P iface ∨ ∃ r ∈ st.router.reqList, r.iface = iface
  | _, _ => True

namespace Store.Stays

variable {P : Iface → Prop} {st st' : Store}

theorem append (h : st.Stays P) {new : List Event} (htr : st'.router.trace = st.router.trace ++ new)
    (hnew : ∀ iface frame o, .sent iface frame o ∈ new → P iface)
    (hreq : ∀ r ∈ st'.router.reqList, P r.iface) : st'.Stays P where
  sent iface frame o hs := by
    rw [htr] at hs
    rcases List.mem_append.mp hs with hs | hs
    · exact h.sent iface frame o hs
    · exact hnew iface frame o hs
  waiting := hreq

theorem does {act : Act} (h : st.Stays P) (hg : UsesOnly P act st) (hd : Does act st st') : st'.Stays P := by
  cases hd with
  | env => exact ⟨h.sent, h.waiting⟩
  | originate => exact h.append rfl (by simp) h.waiting
  | @arp s ph iface frame =>
    have hP : P iface := by
      rcases hg with hg | ⟨r, hr, rfl⟩
      · exact hg
      · exact h.waiting r hr
    refine h.append rfl (fun i f o hm => ?_) h.waiting
    cases List.mem_singleton.mp hm
    exact hP
  | @submit s s' iface dst packet ph hs =>
    have hP : P iface := hg
    obtain ⟨q, -, ⟨mac, frame, -, -, rfl⟩ | ⟨-, -, rfl⟩ | ⟨-, -, rfl⟩⟩ := ifaceSendPacketByArp_cases hs
    · refine h.append (List.append_assoc _ _ _) (fun i f o hm => ?_) h.waiting
      have hm : Event.sent i f o = .sent iface frame (.direct s.next) := by simpa using hm
      cases hm
      exact hP
    · refine h.append (List.append_assoc _ _ _) (fun i f o hm => by simp at hm) fun r hr => ?_
      obtain ⟨r₀, hr₀, rfl⟩ := List.mem_map.mp hr
      have hold := h.waiting r₀ hr₀
      split_ifs <;> exact hold
    · refine h.append (by rw [List.append_assoc, List.append_assoc, List.append_assoc]) (fun i f o hm => ?_)
        fun r hr => ?_
      · simp only [List.cons_append, List.nil_append, List.mem_cons, List.not_mem_nil, or_false,
          reduceCtorEq, false_or, Event.sent.injEq] at hm
        rw [hm.1]
        exact hP
      · rcases List.mem_append.mp hr with hr | hr
        · exact h.waiting r hr
        · rw [List.mem_singleton.mp hr]
          exact hP
  | @learn s s' ip4 mac hi =>
    obtain ⟨-, rfl⟩ := arpcacheInsert_ok hi
    refine h.append rfl (fun i f o hm => ?_) fun r hr => h.waiting r (List.mem_of_mem_filter hr)
    obtain ⟨r, hr, hm⟩ := List.mem_flatMap.mp hm
    obtain ⟨p, -, he⟩ := List.mem_map.mp hm
    cases he
    exact h.waiting r (List.mem_of_mem_filter hr)
  | expire => exact ⟨h.sent, h.waiting⟩
  | retry =>
    refine ⟨h.sent, fun r hr => ?_⟩
    obtain ⟨r₀, hr₀, rfl⟩ := List.mem_map.mp hr
    have hold := h.waiting r₀ hr₀
    split_ifs <;> exact hold
  | begin => exact ⟨h.sent, h.waiting⟩
  | giveUp =>
    refine h.append rfl (by simp) fun r hr => ?_
    obtain ⟨r₀, hr₀, rfl⟩ := List.mem_map.mp hr
    have hold := h.waiting r₀ hr₀
    split_ifs <;> exact hold
  | unlink => exact h.append rfl (by simp) fun r hr => h.waiting r (List.mem_of_mem_filter hr)

end Store.Stays

/-- A lookup finds an entry of the table. -/
theorem longestPrefixMatch_mem {rtable : List RtEntry} {dst : UInt32} {rt : RtEntry}
    (h : longestPrefixMatch rtable dst = some rt) : rt ∈ rtable := by
  suffices hloop : ∀ (l : List RtEntry) (m : Int32) (result : Option RtEntry),
      longestPrefixMatchLoop dst l m result = some rt → rt ∈ l ∨ result = some rt by
    exact (hloop rtable 0 none h).resolve_right (by simp)
  intro l
  induction l with
  | nil => exact fun m result h => Or.inr h
  | cons e rest ih =>
    intro m result h
    rw [longestPrefixMatchLoop] at h
    split_ifs at h
    · rcases ih _ _ h with hm | he
      · exact Or.inl (List.mem_cons_of_mem e hm)
      · exact Or.inl (Option.some.inj he ▸ List.mem_cons_self)
    · exact (ih _ _ h).imp_left (List.mem_cons_of_mem e)
    · exact (ih _ _ h).imp_left (List.mem_cons_of_mem e)

/-- The frame arrives on an interface with `P`. -/
def ArrivesOn (P : Iface → Prop) : Input → Router → Prop
  | .frame iface _ _, _ => P iface
  | .sweep _, _ => True

theorem RunOf.stays {P : Iface → Prop} {rtable : List RtEntry} (hr : ∀ rt ∈ rtable, P rt.iface) {s : Router}
    (h : RunOf rtable (ArrivesOn P) s) : Store.Stays P ⟨s, none⟩ := by
  refine RunOf.invariant (I := Store.Stays P) (G := UsesOnly P) (fun env => ⟨by simp [arpcacheInit], by
    simp [arpcacheInit]⟩) (fun i s hc _ act st ha => ?_) (fun act st st' _ hg hi hd => hi.does hg hd) h
  cases act with
  | submit iface dst packet =>
    cases i with
    | frame iface' packet' env =>
      obtain ⟨-, hsub, -⟩ := ha
      cases hsub with
      | forward _ _ _ hrt => exact hr _ (longestPrefixMatch_mem hrt)
      | reply _ hrt => exact hr _ (longestPrefixMatch_mem hrt)
    | sweep env =>
      obtain ⟨td, -, -, -, -, rt, hrt, rfl⟩ := ha
      exact hr rt (longestPrefixMatch_mem hrt)
  | arp iface frame =>
    cases i with
    | frame iface' packet' env =>
      obtain ⟨-, rfl, -⟩ := ha
      exact Or.inl hc
    | sweep env =>
      obtain ⟨r, hr, rfl, -⟩ := ha
      exact Or.inr ⟨r, hr, rfl⟩
  | _ => trivial

end StaticRouter
