import StaticRouter.Store

/-!
# What the history records

Views of the ghost history: which packets were submitted, queued, sent and given up, in the order of
these events, and which packets still wait. A packet is named by the number of its submission.
-/

namespace StaticRouter

/-- The submissions: number, interface, next hop and packet. -/
def submissions (tr : List Event) : List (Nat × Iface × UInt32 × Frame) :=
  tr.filterMap fun
    | .submitted n iface dst packet => some (n, iface, dst, packet)
    | _ => none

/-- The packets submitted for the next hop `d`. -/
def submittedTo (d : UInt32) (tr : List Event) : List Nat :=
  ((submissions tr).filter (·.2.2.1 = d)).map (·.1)

/-- The packets handed to `arpcache_append_packet`. -/
def queuedTags (tr : List Event) : List Nat :=
  tr.filterMap fun
    | .queued n => some n
    | _ => none

/-- What was sent: interface, frame and origin. -/
def transmissions (tr : List Event) : List (Iface × Frame × Origin) :=
  tr.filterMap fun
    | .sent iface frame o => some (iface, frame, o)
    | _ => none

/-- The messages that `icmp_send_packet` built: type, code and destination. -/
def originations (tr : List Event) : List (UInt8 × UInt8 × UInt32) :=
  tr.filterMap fun
    | .originated type code dst => some (type, code, dst)
    | _ => none

/-- The packets that were sent. -/
def sentTags (tr : List Event) : List Nat :=
  tr.filterMap fun
    | .sent _ _ o => o.tag?
    | _ => none

/-- The packets that `arpcache_insert` sent, with the address that it learned. -/
def flushes (tr : List Event) : List (Nat × UInt32) :=
  tr.filterMap fun
    | .sent _ _ (.flush n ip4) => some (n, ip4)
    | _ => none

/-- The packets that a sweep gave up. -/
def givenUp (tr : List Event) : List Nat :=
  tr.filterMap fun
    | .unreachable n => some n
    | _ => none

/-- The packets for the next hop `d` that were sent. -/
def transmittedTo (d : UInt32) (tr : List Event) : List Nat :=
  (sentTags tr).filter (· ∈ submittedTo d tr)

/-- The numbers of the packets that wait for a request. -/
def ArpReq.tags (r : ArpReq) : List Nat := r.cachedPackets.map (·.tag)

/-- The packets that wait. -/
def waiting (reqs : List ArpReq) : List Nat := reqs.flatMap (·.tags)

/-- The packets that wait for the address `d`. -/
def waitingFor (d : UInt32) (reqs : List ArpReq) : List Nat := waiting (reqs.filter (·.ip4 = d))

section Append

variable (tr tr' : List Event)

@[simp] theorem submissions_append : submissions (tr ++ tr') = submissions tr ++ submissions tr' :=
  List.filterMap_append

@[simp] theorem queuedTags_append : queuedTags (tr ++ tr') = queuedTags tr ++ queuedTags tr' :=
  List.filterMap_append

@[simp] theorem transmissions_append :
    transmissions (tr ++ tr') = transmissions tr ++ transmissions tr' := List.filterMap_append

@[simp] theorem originations_append :
    originations (tr ++ tr') = originations tr ++ originations tr' := List.filterMap_append

@[simp] theorem sentTags_append : sentTags (tr ++ tr') = sentTags tr ++ sentTags tr' :=
  List.filterMap_append

@[simp] theorem flushes_append : flushes (tr ++ tr') = flushes tr ++ flushes tr' :=
  List.filterMap_append

@[simp] theorem givenUp_append : givenUp (tr ++ tr') = givenUp tr ++ givenUp tr' :=
  List.filterMap_append

theorem submittedTo_append (d : UInt32) :
    submittedTo d (tr ++ tr') = submittedTo d tr ++ submittedTo d tr' := by
  simp [submittedTo]

end Append

theorem mem_submissions {n : Nat} {iface : Iface} {d : UInt32} {p : Frame} {tr : List Event} :
    (n, iface, d, p) ∈ submissions tr ↔ .submitted n iface d p ∈ tr := by
  rw [submissions, List.mem_filterMap]
  constructor
  · rintro ⟨e, he, h⟩
    cases e <;> simp only [Option.some.injEq, Prod.mk.injEq, reduceCtorEq] at h
    obtain ⟨rfl, rfl, rfl, rfl⟩ := h
    exact he
  · exact fun h => ⟨_, h, rfl⟩

theorem mem_transmissions {iface : Iface} {frame : Frame} {o : Origin} {tr : List Event} :
    (iface, frame, o) ∈ transmissions tr ↔ .sent iface frame o ∈ tr := by
  rw [transmissions, List.mem_filterMap]
  constructor
  · rintro ⟨e, he, h⟩
    cases e <;> simp only [Option.some.injEq, Prod.mk.injEq, reduceCtorEq] at h
    obtain ⟨rfl, rfl, rfl⟩ := h
    exact he
  · exact fun h => ⟨_, h, rfl⟩

theorem mem_sentTags {n : Nat} {tr : List Event} :
    n ∈ sentTags tr ↔ ∃ iface frame o, .sent iface frame o ∈ tr ∧ o.tag? = some n := by
  rw [sentTags, List.mem_filterMap]
  constructor
  · rintro ⟨e, he, h⟩
    cases e with
    | sent iface frame o => exact ⟨iface, frame, o, he, h⟩
    | _ => cases h
  · rintro ⟨iface, frame, o, he, h⟩
    exact ⟨_, he, h⟩

theorem mem_submittedTo {n : Nat} {d : UInt32} {tr : List Event} :
    n ∈ submittedTo d tr ↔ ∃ iface p, (n, iface, d, p) ∈ submissions tr := by
  simp [submittedTo]

/-- The history is consistent with the state. -/
structure Store.Recorded (st : Store) : Prop where
  increasing : ((submissions st.router.trace).map (·.1)).Pairwise (· < ·)
  old : ∀ x ∈ submissions st.router.trace, x.1 < st.router.next
  sent : ∀ n ∈ sentTags st.router.trace, n < st.router.next
  /-- A packet that waits is the submitted one with the Ethernet header fields filled in. -/
  waiting : ∀ r ∈ st.router.reqList, ∀ p ∈ r.cachedPackets, ∃ iface packet,
    (p.tag, iface, r.ip4, packet) ∈ submissions st.router.trace ∧ Filled iface packet p.packet

end StaticRouter
