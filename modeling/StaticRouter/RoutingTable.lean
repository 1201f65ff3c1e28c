import Mathlib.Algebra.Group.Nat.Defs
import StaticRouter.Ip

/-!
# Building the routing table

`new_rt_entry` and `add_rt_entry` of `rtable.c`, and the words in which a lookup is specified: prefix
masks, their lengths, and the entries that match an address.
-/

namespace StaticRouter

/-- `new_rt_entry`. -/
def newRtEntry (dest mask gw : UInt32) (iface : Iface) : RtEntry := ⟨dest, mask, gw, iface⟩

/-- `add_rt_entry`: link the entry in at the tail. -/
def addRtEntry (entry : RtEntry) (rtable : List RtEntry) : List RtEntry := rtable ++ [entry]

/-- The mask with `n` one bits at the top. -/
def prefixMask (n : Nat) : UInt32 := .ofNat (2 ^ 32 - 2 ^ (32 - n))

/-- A contiguous mask, from 0 to 0xFFFFFFFF. -/
def IsPrefixMask (mask : UInt32) : Prop := ∃ n ≤ 32, mask = prefixMask n

/-- The number of one bits of a mask. -/
def prefixLength (mask : UInt32) : Nat := (List.range 32).countP mask.toNat.testBit

/-- The entry is for the address `dst`. -/
def RtEntry.Matches (dst : UInt32) (e : RtEntry) : Prop := e.dest &&& e.mask = dst &&& e.mask

instance (dst : UInt32) (e : RtEntry) : Decidable (e.Matches dst) := inferInstanceAs (Decidable (_ = _))

end StaticRouter
