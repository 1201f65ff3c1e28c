import StaticRouter.Proofs.HistoryProofs
import StaticRouter.Proofs.MessageProofs
import StaticRouter.Proofs.VisitProofs

/-!
# Proofs: what is reported about the packets that are given up

A sweep that gives a packet up has called `icmp_send_packet` about it right before. What this call did is part of
the history.
-/

namespace StaticRouter

open CMem

variable {rtable : List RtEntry} {tr new : List Event} {s s' : Router} {st st' : Store}

/-- Each packet that was given up. -/
def AllReported (rtable : List RtEntry) (tr : List Event) : Prop := ∀ n ∈ givenUp tr, Reported rtable tr n

theorem Reported.append {n : Nat} (h : Reported rtable tr n) (new : List Event) : Reported rtable (tr ++ new) n := by
  obtain ⟨before, call, rest, rfl, hcall⟩ := h
  exact ⟨before, call, rest ++ new, by rw [List.append_assoc, List.cons_append], hcall⟩

/-- A submission gives nothing up. -/
theorem givenUp_ifaceSendPacketByArp {iface : Iface} {dst : UInt32} {packet : Frame}
    (h : ifaceSendPacketByArp iface dst packet s = .ok s') : givenUp s'.trace = givenUp s.trace := by
  obtain ⟨q, -, ⟨mac, frame, -, -, rfl⟩ | ⟨-, -, rfl⟩ | ⟨-, -, rfl⟩⟩ := ifaceSendPacketByArp_cases h
  · simp [givenUp]
  · simp [givenUp]
  · simp [givenUp]

/-- The type and the code of an error message. -/
theorem builtMessage_code {inPkt q : Frame} {type code : UInt8} {rt : RtEntry}
    (h : builtMessage inPkt type code rt s = .ok q) (h0 : type ≠ 0) : q.slice icmpHdr 2 = [type, code] := by
  rw [builtMessage, if_neg h0] at h
  obtain ⟨-, c, -, he⟩ := icmpError_layout h
  have hcode : q.slice (icmpHdr + 0) 2 = _ := Buffer.slice_of_slice he 0 (by decide)
  exact hcode

namespace AllReported

/-- Nothing else is given up. -/
theorem append (h : AllReported rtable tr) (hnew : givenUp new = []) : AllReported rtable (tr ++ new) := by
  intro n hn
  rw [givenUp_append, hnew, List.append_nil] at hn
  exact (h n hn).append new

theorem of_trace (h : AllReported rtable s.trace) (htr : s'.trace = s.trace ++ new)
    (hg : givenUp s'.trace = givenUp s.trace) : AllReported rtable s'.trace := by
  rw [htr, givenUp_append] at hg
  rw [htr]
  exact h.append (List.append_right_eq_self.mp hg)

/-- Of the actions only one gives a packet up. -/
theorem does {act : Act} (h : AllReported rtable st.router.trace) (hact : ∀ tag, act ≠ .giveUp tag)
    (hd : Does act st st') : AllReported rtable st'.router.trace := by
  cases hd with
  | env => exact h
  | originate => exact h.append rfl
  | arp => exact h.append rfl
  | submit ph hs =>
    obtain ⟨es, htr, -, -⟩ := ifaceSendPacketByArp_trace hs
    exact h.of_trace htr (givenUp_ifaceSendPacketByArp hs)
  | learn hi =>
    obtain ⟨-, rfl⟩ := arpcacheInsert_ok hi
    exact h.append (givenUp_flush _ _ _)
  | expire => exact h
  | retry => exact h
  | begin => exact h
  | giveUp => exact absurd rfl (hact _)
  | unlink => exact h.append rfl

/-! ## The sweep -/

/-- What the history tells of the call about a packet that waits. -/
theorem reportOf_call {p q : Frame} (hsame : SameDatagram p q) (h : icmpSendPacket rtable q 3 1 s = .ok s') :
    ∃ call, s'.trace = s.trace ++ call ∧ givenUp call = [] ∧ ReportOf rtable p call := by
  have hsource := hsame.sourceOf
  rcases icmpSendPacket_cases (Or.inr (Or.inl rfl)) h with ⟨hr, rfl⟩ | ⟨rt, m, hr, hb, h⟩
  · rw [hsource] at hr
    exact ⟨[], (List.append_nil _).symm, rfl, fun _ => rfl, fun rt hrt => by rw [hr] at hrt; cases hrt⟩
  · rw [hsource] at hr
    obtain ⟨es, htr, hsub, hor⟩ := ifaceSendPacketByArp_trace h
    have hgiven := givenUp_ifaceSendPacketByArp h
    rw [htr, givenUp_append] at hgiven
    obtain ⟨hcons, -, hdata⟩ := builtMessage_error hb (by decide)
    have hmsg := (builtMessage_ok hb).2
    rw [hsource] at hmsg hsub htr
    refine ⟨.originated 3 1 (sourceOf p) :: es, ?_, List.append_right_eq_self.mp hgiven, fun hnone => ?_,
      fun rt' hrt' => ?_⟩
    · rw [htr, Router.log, Router.drawn_trace, List.append_assoc]
      rfl
    · rw [hr] at hnone
      cases hnone
    · obtain rfl := Option.some.inj (hr.symm.trans hrt')
      refine ⟨_, m, ?_, hsub, hmsg, builtMessage_code hb (by decide), hcons, ?_⟩
      · show (3, 1, sourceOf p) :: originations es = _
        rw [hor]
      · rw [hdata]
        exact hsame.2 _ _ (Nat.le_refl _)

/-- A round of the inner loop. -/
theorem sweepPacket {node tag : Nat} (h : AllReported rtable s.trace) (hrec : Store.Recorded ⟨s, some node⟩)
    (hs : sweepPacket rtable node tag s = .ok s') : AllReported rtable s'.trace := by
  obtain ⟨r, hr, -, pkt, hp, rfl, -, s₁, h₁, rfl⟩ := sweepPacket_cases hs
  obtain ⟨iface, p, hsub, hfilled⟩ := hrec.waiting r hr pkt hp
  obtain ⟨call, htr, hcall, hreport⟩ := reportOf_call hfilled.sameDatagram h₁
  show AllReported rtable (s₁.trace ++ [.unreachable pkt.tag])
  rw [htr]
  intro n hn
  rw [givenUp_append, givenUp_append, hcall, List.append_nil] at hn
  rcases List.mem_append.mp hn with hn | hn
  · rw [List.append_assoc]
    exact (h n hn).append _
  · rw [List.mem_singleton.mp hn]
    exact ⟨s.trace, call, [], rfl, iface, r.ip4, p, hsub, hreport⟩

/-- A visit of a request. -/
theorem sweepReq {fuel node : Nat} (h : AllReported rtable s.trace) (hw : Store.Wf ⟨s, none⟩)
    (hrec : Store.Recorded ⟨s, none⟩) (hs : sweepReq rtable fuel node s = .ok s') :
    AllReported rtable s'.trace := by
  obtain ⟨r, -, rfl, ⟨-, s₁, h₁, rfl⟩ | ⟨-, -, rfl⟩ | ⟨-, -, rfl⟩⟩ := sweepReq_cases hs
  · have hbegin := Does.begin s r.node
    have hloop := safeLoop_invariant
      (I := fun s => (Store.Wf ⟨s, some r.node⟩ ∧ Store.Recorded ⟨s, some r.node⟩) ∧ AllReported rtable s.trace)
      (fun tag u u' hi hb => ⟨⟨hi.1.1.path (sweepPacket_path hi.1.1 hb),
        hi.1.2.path hi.1.1 (sweepPacket_path hi.1.1 hb)⟩, hi.2.sweepPacket hi.1.2 hb⟩)
      ⟨⟨hw.does hbegin, hrec.does hw hbegin⟩, h⟩ h₁
    exact hloop.2.append rfl
  · exact h.append rfl
  · exact h

/-! ## Runs -/

theorem step {i : Input} (h : AllReported rtable s.trace) (hw : Store.Wf ⟨s, none⟩)
    (hrec : Store.Recorded ⟨s, none⟩) (hs : Step rtable i s s') : AllReported rtable s'.trace := by
  have hpath := hs.path hw
  cases hs with
  | frame =>
    refine hpath.invariant (I := fun st => AllReported rtable st.router.trace) ?_ h
    intro act st st' hg h hd
    refine h.does (fun tag he => ?_) hd
    rw [he] at hg
    exact hg
  | @sweep fuel env _ _ hs =>
    have henv := Does.env s none env
    have hw' := hw.does henv
    have hexpire := Does.expire { s with env := env }
    have hloop := safeLoop_invariant
      (I := fun s => (Store.Wf ⟨s, none⟩ ∧ Store.Recorded ⟨s, none⟩) ∧ AllReported rtable s.trace)
      (fun node u u' hi hb => by
        obtain ⟨r, hr, -, hv⟩ := sweepReq_visit hi.1.1 hb
        have hvisit := hv.path hi.1.1 hr
        exact ⟨⟨hi.1.1.path hvisit, hi.1.2.path hi.1.1 hvisit⟩, hi.2.sweepReq hi.1.1 hi.1.2 hb⟩)
      ⟨⟨hw'.does hexpire, (hrec.does hw henv).does hw' hexpire⟩, h⟩ hs
    exact hloop.2

end AllReported

/-- In every run, each packet that was given up was the subject of a call of `icmp_send_packet` right before. -/
theorem RunOf.allReported {C : Input → Router → Prop} (h : RunOf rtable C s) : AllReported rtable s.trace := by
  refine Runs.RunOf.invariant (I := fun s => AllReported rtable s.trace) ?_ ?_ h
  · rintro s ⟨env, rfl⟩ n hn
    cases hn
  · intro i s s' hs _ h hstep
    exact h.step (RunOf.wf hs) (RunOf.recorded hs) hstep

end StaticRouter
