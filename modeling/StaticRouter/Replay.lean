import StaticRouter.Sweep

/-!
# Replaying runs

Runs can be computed from their inputs. A replay checks the condition of every step, so that its end is
the end of a run that satisfies the condition. The frames and interfaces here are those of a router
between the networks 10.0.1.0/24 and 10.0.2.0/24.
-/

namespace StaticRouter

open CMem

section Replay

variable (rtable : List RtEntry)

/-- The next step of the run, with traversals of at most `fuel` rounds. -/
def doInput (fuel : Nat) (s : Router) : Input → Except Fault Router
  | .frame iface packet env => handlePacket rtable iface packet { s with env := env }
  | .sweep env => arpcacheSweep rtable fuel { s with env := env }

/-- The state after the step, if it is completed. -/
def exec (fuel : Nat) (i : Input) (s : Router) : Option Router := (doInput rtable fuel s i).toOption

variable {rtable}

theorem Step.of_doInput {fuel : Nat} {s s' : Router} {i : Input}
    (h : doInput rtable fuel s i = .ok s') : Step rtable i s s' := by
  cases i with
  | frame iface packet env => exact .frame h
  | sweep env => exact .sweep h

theorem Step.of_exec {fuel : Nat} (i : Input) (s s' : Router) (h : exec rtable fuel i s = some s') :
    Step rtable i s s' :=
  .of_doInput (toOption_eq_some.mp h)

variable (rtable) in
/-- What a replay from the start shows of its last state is true of some state of a run. -/
theorem RunOf.of_replay (C : Input → Router → Prop) [∀ i s, Decidable (C i s)] (fuel : Nat)
    (is : List Input) (env : Env) (P : Router → Prop) [DecidablePred P]
    (h : (Runs.replay C (exec rtable fuel) is (arpcacheInit env)).any (P ·) = true) :
    ∃ s, RunOf rtable C s ∧ P s :=
  Runs.RunOf.of_replay Step.of_exec is ⟨env, rfl⟩ P h

end Replay

/-! ## A router between two networks -/

namespace Sample

def station (n : UInt8) : Mac := ⟨[2, 0, 0, 0, 0, n], rfl⟩

/-- 10.0.1.1. -/
def eth0 : Iface := ⟨0, station 1, 0x0a000101⟩

/-- 10.0.2.1. -/
def eth1 : Iface := ⟨1, station 2, 0x0a000201⟩

/-- The routes to the connected networks. -/
def connected : List RtEntry :=
  [⟨0x0a000100, 0xffffff00, 0, eth0⟩, ⟨0x0a000200, 0xffffff00, 0, eth1⟩]

/-- The first of them. -/
def toNet1 : RtEntry := ⟨0x0a000100, 0xffffff00, 0, eth0⟩

/-- Two routes with the gateway 10.0.9.9, one through each interface. -/
def twoUplinks : List RtEntry :=
  [⟨0x0a000300, 0xffffff00, 0x0a000909, eth0⟩, ⟨0x0a000400, 0xffffff00, 0x0a000909, eth1⟩]

/-- Surroundings in which the clock reads `t`. -/
def clockAt (t : Int) : Env := ⟨fun _ => t, fun _ => 0, fun _ _ => 0, zeroEntry⟩

/-- An IPv4 frame with a UDP header of zeros. -/
def udp (src dst : UInt32) (ttl : UInt8) : Frame :=
  (station 1).val ++ (station 9).val ++ Buffer.be16 ethPIp ++
    [0x45, 0, 0, 28, 0, 0, 0, 0, ttl, 17, 0, 0] ++ Buffer.be32 src ++ Buffer.be32 dst ++
    List.replicate 8 0

/-- An IPv4 frame with the bytes `rest` behind the first five words of its header. -/
def ipv4 (ihl totLen ttl protocol : UInt8) (src dst : UInt32) (rest : List UInt8) : Frame :=
  (station 1).val ++ (station 9).val ++ Buffer.be16 ethPIp ++
    [0x40 + ihl, 0, 0, totLen, 0, 0, 0, 0, ttl, protocol, 0, 0] ++ Buffer.be32 src ++ Buffer.be32 dst ++
    rest

/-- An ICMP echo request with the data `data`. -/
def ping (data : List UInt8) : List UInt8 := [8, 0, 0, 0, 0, 1, 0, 1] ++ data

/-- An ARP reply that tells the hardware address of `ip4`. -/
def arpReply (ip4 : UInt32) (mac : Mac) : Frame :=
  arpFrame (station 1) mac arpopReply mac ip4 (station 1) 0

/-- Five sweep passes, a second apart, after the time 0: the last repeats of a request. -/
def retries : List Input := (List.range 5).map fun t => .sweep (clockAt (t + 1))

end Sample

end StaticRouter
