import StaticRouter.Proofs.RunProofs

/-!
# Proofs: when a sweep pass ends

A pass walks lists that its own messages extend. It ends exactly if each of its teardowns does: a request
for the address of the interface that its own messages would leave through must not hold two packets
with that address as their source, since each of them keeps the other one's place in the queue.
-/

namespace StaticRouter

open CMem

variable {rtable : List RtEntry}

theorem sweepEnds_of_ends {s : Router} (hw : Store.Wf ⟨s, none⟩)
    (h : ∀ td ∈ passTeardowns rtable s, td.Ends (passReply rtable s)) : SweepEnds rtable s := by
  refine ⟨passFuel rtable s, fun fuel hle he => ?_⟩
  exact absurd ((arpcacheSweep_error hw he).1 rfl h) (Nat.not_lt.mpr hle)

theorem ends_of_sweepEnds {s : Router} (hw : Store.Wf ⟨s, none⟩) (hq : AllQuotable s)
    (h : SweepEnds rtable s) : ∀ td ∈ passTeardowns rtable s, td.Ends (passReply rtable s) := by
  obtain ⟨n, hn⟩ := h
  cases hs : arpcacheSweep rtable n s with
  | ok s' => exact (arpcacheSweep_path hw hs).1
  | error e =>
    have he : e = .outOfFuel := (arpcacheSweep_error hw hs).2 hq
    exact absurd (he ▸ hs) (hn n (Nat.le_refl n))

/-- **Termination of a sweep pass.** From a reachable state, whatever the clock reads, a pass ends if all
its teardowns end, and, if the packets that wait are long enough to be quoted, only then. -/
theorem arpcacheSweep_ends_iff {s : Router} (h : Reachable rtable s) (env : Env) :
    ((∀ td ∈ passTeardowns rtable { s with env := env }, td.Ends (passReply rtable { s with env := env })) →
        SweepEnds rtable { s with env := env }) ∧
      (AllQuotable s → (SweepEnds rtable { s with env := env } ↔
        ∀ td ∈ passTeardowns rtable { s with env := env },
          td.Ends (passReply rtable { s with env := env }))) := by
  have hw : Store.Wf ⟨{ s with env := env }, none⟩ := h.wf.does (.env s none env)
  exact ⟨sweepEnds_of_ends hw, fun hq => ⟨ends_of_sweepEnds hw hq, sweepEnds_of_ends hw⟩⟩

/-- The pass that gives up a packet of the station 10.0.1.2 ends. -/
theorem arpcacheSweep_ends_iff_given_up :
    ∃ s : Router, s.reqList.map (·.retries) = [5] ∧
      SweepEnds Sample.connected { s with env := Sample.clockAt 6 } := by
  obtain ⟨s, hs, hp, hends⟩ := RunOf.of_replay Sample.connected (fun _ _ => True) 8
    (.frame Sample.eth0 (Sample.udp 0x0a000102 0x0a000202 64) (Sample.clockAt 0) :: Sample.retries)
    (Sample.clockAt 0)
    (fun s => s.reqList.map (·.retries) = [5] ∧
      ∀ td ∈ passTeardowns Sample.connected { s with env := Sample.clockAt 6 },
        td.Ends (passReply Sample.connected { s with env := Sample.clockAt 6 })) (by decide +kernel)
  exact ⟨s, hp, (arpcacheSweep_ends_iff hs _).1 hends⟩

/-- Two frames from 10.0.1.2's network that carry the router's own address 10.0.2.1 as source and as
destination make the pass that gives them up go on for ever. -/
theorem arpcacheSweep_endless :
    ∃ s, Reachable Sample.connected s ∧ AllQuotable s ∧
      ¬ SweepEnds Sample.connected { s with env := Sample.clockAt 6 } := by
  obtain ⟨s, hs, hq, hends⟩ := RunOf.of_replay Sample.connected (fun _ _ => True) 8
    ([.frame Sample.eth0 (Sample.udp 0x0a000201 0x0a000201 64) (Sample.clockAt 0),
      .frame Sample.eth0 (Sample.udp 0x0a000201 0x0a000201 64) (Sample.clockAt 0)] ++ Sample.retries)
    (Sample.clockAt 0)
    (fun s => AllQuotable s ∧ ¬ ∀ td ∈ passTeardowns Sample.connected { s with env := Sample.clockAt 6 },
      td.Ends (passReply Sample.connected { s with env := Sample.clockAt 6 })) (by decide +kernel)
  have hw : Store.Wf ⟨{ s with env := Sample.clockAt 6 }, none⟩ :=
    hs.wf.does (.env s none (Sample.clockAt 6))
  exact ⟨s, hs, hq, fun h => hends (ends_of_sweepEnds hw hq h)⟩

end StaticRouter
