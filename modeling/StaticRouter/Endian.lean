import StaticRouter.Ip
import StaticRouter.Lib.OnesComplement

/-!
# The checksum on a big-endian host

`checksum` as it is compiled for a host that reads the 16-bit words of a buffer, and stores the result,
with the high byte first.
-/

namespace StaticRouter

open CMem

/-- The loop of `checksum` on a big-endian host. -/
def checksumLoopBig : List UInt8 → UInt32 → UInt32
  | hi :: lo :: rest, sum => checksumLoopBig rest (sum + .ofNat (256 * hi.toNat + lo.toNat))
  | _, sum => sum

/-- `checksum` on a big-endian host. -/
def checksumBig (bytes : List UInt8) (sum : UInt32) : Except Fault UInt16 :=
  if bytes.length % 2 = 0 then
    let sum := checksumLoopBig bytes sum
    let sum := (sum >>> 16) + (sum &&& 0xffff)
    let sum := sum + (sum >>> 16)
    .ok (~~~sum).toUInt16
  else .error .assertFailed

/-- The first folding step of `checksum`. -/
def foldStep (sum : UInt32) : UInt32 := (sum >>> 16) + (sum &&& 0xffff)

/-- The byte-swapped word. -/
def swap16 (x : UInt16) : UInt16 := .ofNat (OnesComplement.swap x.toNat)

end StaticRouter
