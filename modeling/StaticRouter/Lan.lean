import Mathlib.Data.Fintype.Basic
import Mathlib.Logic.Function.Basic
import StaticRouter.History
import StaticRouter.Replay

/-!
# Routers on one LAN

Any number of routers that exchange ARP frames on one link. A frame that has been sent can be delivered
at any later time, to every station it is addressed to and any number of times, or never: frames that
are lost, duplicated or overtaken are runs of this system.
-/

namespace StaticRouter

open CMem

/-- The routers of a LAN: the interface that each has on it, and its routing table. -/
structure Lan (ι : Type) where
  iface : ι → Iface
  rtable : ι → List RtEntry
  ip_injective : Function.Injective fun i => (iface i).ip
  ip_ne_zero : ∀ i, (iface i).ip ≠ 0
  mac_injective : Function.Injective fun i => (iface i).mac

/-- What happens next on the LAN. -/
inductive LanInput (ι : Type) where
  /-- A router sends an ARP request, for any address. -/
  | request (i : ι) (dst : UInt32)
  /-- A router receives an ARP frame. -/
  | deliver (i : ι) (frame : Frame) (env : Env)
  /-- A router makes a sweep pass. -/
  | sweep (i : ι) (env : Env)

/-- The frame is addressed to the station with the address `mac`. -/
def AddressedTo (mac : Mac) (frame : Frame) : Prop :=
  frame.slice etherDhost ethAlen = broadcastMac.val ∨ frame.slice etherDhost ethAlen = mac.val

instance (mac : Mac) (frame : Frame) : Decidable (AddressedTo mac frame) :=
  inferInstanceAs (Decidable (_ ∨ _))

namespace Lan

variable {ι : Type} (L : Lan ι)

/-- A router has sent the frame to the LAN. -/
def Sent (frame : Frame) (s : ι → Router) : Prop :=
  ∃ j, ∃ x ∈ transmissions (s j).trace, x.1 = L.iface j ∧ x.2.1 = frame

instance [Fintype ι] (frame : Frame) (s : ι → Router) : Decidable (L.Sent frame s) :=
  inferInstanceAs (Decidable (∃ _, _))

/-- A completed step of one of the routers. -/
inductive Step [DecidableEq ι] : LanInput ι → (ι → Router) → (ι → Router) → Prop where
  | request (i : ι) (dst : UInt32) (s : ι → Router) :
      Step (.request i dst) s (Function.update s i (arpSendRequest (L.iface i) dst (s i)))
  | deliver {i : ι} {frame : Frame} {env : Env} {s : ι → Router} {r : Router} (hs : L.Sent frame s)
      (ha : AddressedTo (L.iface i).mac frame)
      (h : handleArpPacket (L.iface i) frame { s i with env := env } = .ok r) :
      Step (.deliver i frame env) s (Function.update s i r)
  | sweep {i : ι} {fuel : Nat} {env : Env} {s : ι → Router} {r : Router}
      (h : arpcacheSweep (L.rtable i) fuel { s i with env := env } = .ok r) :
      Step (.sweep i env) s (Function.update s i r)

/-- The states of the runs from empty caches in which every step satisfies `C` on the state before it. -/
abbrev RunOf [DecidableEq ι] (C : LanInput ι → (ι → Router) → Prop) : (ι → Router) → Prop :=
  Runs.RunOf (fun s => ∀ i, ∃ env, s i = arpcacheInit env) L.Step C

/-! ## Truth -/

/-- The address `ip4` is that of a router whose hardware address is `mac`. -/
def Owns (ip4 : UInt32) (mac : Mac) : Prop := ∃ j, ip4 = (L.iface j).ip ∧ mac = (L.iface j).mac

/-- Every valid entry for the address of a router holds the hardware address of that router. -/
def CachesTrue (s : ι → Router) : Prop :=
  ∀ i, ∀ e ∈ (s i).table.entries, e.valid = true → ∀ j, e.ip4 = (L.iface j).ip → e.mac = (L.iface j).mac

instance [Fintype ι] (s : ι → Router) : Decidable (L.CachesTrue s) :=
  inferInstanceAs (Decidable (∀ _, ∀ _ ∈ _, _ → ∀ _, _))

/-- Every ARP frame that was sent tells the hardware address of its sender address. -/
def FramesTrue (s : ι → Router) : Prop :=
  ∀ frame, L.Sent frame s → ∃ ea, readEtherArp frame = .ok ea ∧ L.Owns ea.spa ea.sha

end Lan

/-- The hardware address that the router finds in its cache when the frame asks for another station. -/
def cachedAnswer (iface : Iface) (frame : Frame) (s : Router) : Option Mac :=
  match readEtherArp frame with
  | .ok ea =>
    if ea.op = arpopRequest ∧ ea.tpa ≠ iface.ip then
      arpcacheLookup (tableInsert s.env.before ea.spa ea.sha s.table s.env.clock).1 ea.tpa
    else none
  | .error _ => none

/-- No router receives a request for another station that it finds in its cache. A station with the
hardware address zero is excepted. -/
def Lan.OwnAnswers {ι : Type} (L : Lan ι) : LanInput ι → (ι → Router) → Prop
  | .deliver i frame env, s => ∀ mac ∈ cachedAnswer (L.iface i) frame { s i with env := env }, mac = zeroMac
  | _, _ => True

instance {ι : Type} (L : Lan ι) (x : LanInput ι) (s : ι → Router) : Decidable (L.OwnAnswers x s) :=
  match x with
  | .request _ _ => inferInstanceAs (Decidable True)
  | .deliver _ _ _ => inferInstanceAs (Decidable (∀ _ ∈ _, _))
  | .sweep _ _ => inferInstanceAs (Decidable True)

/-! ## Replaying runs -/

section Replay

variable {ι : Type} [DecidableEq ι] [Fintype ι] (L : Lan ι)

/-- The state after the step, if it is completed. -/
def Lan.exec (fuel : Nat) (x : LanInput ι) (s : ι → Router) : Option (ι → Router) :=
  match x with
  | .request i dst => some (Function.update s i (arpSendRequest (L.iface i) dst (s i)))
  | .deliver i frame env =>
    if L.Sent frame s ∧ AddressedTo (L.iface i).mac frame then
      (handleArpPacket (L.iface i) frame { s i with env := env }).toOption.map (Function.update s i)
    else none
  | .sweep i env =>
    (arpcacheSweep (L.rtable i) fuel { s i with env := env }).toOption.map (Function.update s i)

variable {L}

theorem Lan.Step.of_exec {fuel : Nat} (x : LanInput ι) (s s' : ι → Router)
    (h : L.exec fuel x s = some s') : L.Step x s s' := by
  cases x with
  | request i dst =>
    cases h
    exact .request i dst s
  | deliver i frame env =>
    rw [Lan.exec] at h
    split_ifs at h with hsent
    obtain ⟨r, hr, rfl⟩ := Option.map_eq_some_iff.mp h
    exact .deliver hsent.1 hsent.2 (toOption_eq_some.mp hr)
  | sweep i env =>
    obtain ⟨r, hr, rfl⟩ := Option.map_eq_some_iff.mp h
    exact .sweep (toOption_eq_some.mp hr)

variable (L) in
/-- What a replay from empty caches shows of its last state is true of some state of a run. -/
theorem Lan.RunOf.of_replay (C : LanInput ι → (ι → Router) → Prop) [∀ x s, Decidable (C x s)] (fuel : Nat)
    (xs : List (LanInput ι)) (env : Env) (P : (ι → Router) → Prop) [DecidablePred P]
    (h : (Runs.replay C (L.exec fuel) xs fun _ => arpcacheInit env).any (P ·) = true) :
    ∃ s, L.RunOf C s ∧ P s :=
  Runs.RunOf.of_replay Lan.Step.of_exec xs (fun _ => ⟨env, rfl⟩) P h

end Replay

namespace Sample

/-- Three routers, 10.0.1.1 to 10.0.1.3. -/
def lan : Lan (Fin 3) where
  iface i := ⟨0, station (.ofNat (i + 1)), 0x0a000101 + .ofNat i⟩
  rtable _ := []
  ip_injective := by decide
  ip_ne_zero := by decide
  mac_injective := by decide

end Sample

end StaticRouter
