import StaticRouter.Base

/-!
# The IPv4 header and the routing table

`include/checksum.h`, `include/ip.h`, `ip.c` and the table entries of `include/rtable.h`. The host is
little-endian: `checksum` reads its 16-bit words, and the header fields that are assigned without
`htons` are stored, in that order.
-/

namespace StaticRouter

open CMem

/-! ## Checksums -/

/-- The loop of `checksum`: add up the 16-bit words in a 32-bit accumulator. -/
def checksumLoop : List UInt8 → UInt32 → UInt32
  | lo :: hi :: rest, sum => checksumLoop rest (sum + .ofNat (lo.toNat + 256 * hi.toNat))
  | _, sum => sum

/-- `checksum` over the `nbytes` bytes at `ptr`. -/
def checksum (bytes : List UInt8) (sum : UInt32) : Except Fault UInt16 :=
  if bytes.length % 2 = 0 then
    let sum := checksumLoop bytes sum
    let sum := (sum >>> 16) + (sum &&& 0xffff)
    let sum := sum + (sum >>> 16)
    .ok (~~~sum).toUInt16
  else .error .assertFailed

/-- `ip_checksum`: the checksum of the `ihl * 4` header bytes with the checksum field zeroed. The field
is put back afterwards, so the packet itself does not change. -/
def ipChecksum (packet : Frame) : Except Fault UInt16 := do
  let ihl ← readIhl packet
  let hdr ← packet.write ipCheck [0, 0]
  let bytes ← hdr.read etherHdrSize (ihl * 4)
  checksum bytes 0

/-- `ip_init_hdr`. The version and the header length of 5 share the first byte; `id` is the value of
`rand()`, and it and the checksum are stored in host order. -/
def ipInitHdr (packet : Frame) (saddr daddr : UInt32) (len : UInt16) (proto : UInt8) (id : UInt16) :
    Except Fault Frame := do
  let packet ← packet.write ipIhl
    ([0x45, 0] ++ Buffer.be16 len ++ Buffer.le16 id ++ Buffer.be16 ipDf ++ [defaultTtl, proto])
  let packet ← packet.write ipSaddr (Buffer.be32 saddr ++ Buffer.be32 daddr)
  let sum ← ipChecksum packet
  packet.write ipCheck (Buffer.le16 sum)

/-! ## The routing table -/

/-- An entry of the routing table (`rt_entry_t`). -/
structure RtEntry where
  dest : UInt32
  mask : UInt32
  /-- The next hop, 0 if the destination is on the interface's own network. -/
  gw : UInt32
  iface : Iface
  deriving DecidableEq, Repr

/-- The loop of `longest_prefix_match`. The running maximum is a signed `int`, which the comparison
with the unsigned mask converts back to unsigned. -/
def longestPrefixMatchLoop (dst : UInt32) : List RtEntry → Int32 → Option RtEntry → Option RtEntry
  | [], _, result => result
  | ele :: rest, maxMask, result =>
    if ele.dest &&& ele.mask = dst &&& ele.mask then
      if maxMask.toUInt32 ≤ ele.mask then
        longestPrefixMatchLoop dst rest ele.mask.toInt32 (some ele)
      else longestPrefixMatchLoop dst rest maxMask result
    else longestPrefixMatchLoop dst rest maxMask result

/-- `longest_prefix_match` in the routing table `rtable`. -/
def longestPrefixMatch (rtable : List RtEntry) (dst : UInt32) : Option RtEntry :=
  longestPrefixMatchLoop dst rtable 0 none

end StaticRouter
