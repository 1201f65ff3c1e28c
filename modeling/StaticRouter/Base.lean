import StaticRouter.Lib.Buffer

/-!
# Interfaces, addresses and frames

The types of `include/base.h`, `include/ether.h`, `include/arp.h` and `include/ip.h`: interfaces, and
where the header fields lie in a frame. A frame is a buffer whose length is the `len` that the code
passes along with it: received frames are copied into a buffer of exactly that length (`ustack_run`),
and the router's own packets are allocated with it.
-/

namespace StaticRouter

open CMem

/-- `ETH_ALEN`. -/
abbrev ethAlen : Nat := 6

/-- A hardware address. -/
abbrev Mac := { bytes : List UInt8 // bytes.length = ethAlen }

/-- The hardware address in zeroed memory. -/
def zeroMac : Mac := ⟨List.replicate ethAlen 0, rfl⟩

/-- A frame with its Ethernet header, or a packet that has room for one. -/
abbrev Frame := Buffer

/-- An interface (`iface_info_t`); `index` tells the structures of one list apart, as their addresses
do. -/
structure Iface where
  index : Nat
  mac : Mac
  /-- The interface's IPv4 address, in host order. -/
  ip : UInt32
  deriving DecidableEq, Repr

/-! ## `struct ether_header` -/

abbrev etherHdrSize : Nat := 14
abbrev etherDhost : Nat := 0
abbrev etherShost : Nat := 6
abbrev etherType : Nat := 12

/-- `ETH_FRAME_LEN`, the size of the buffer that `ustack_run` receives frames into. -/
abbrev ethFrameLen : Nat := 1514

/-- `ETH_P_IP`. -/
abbrev ethPIp : UInt16 := 0x0800

/-- `ETH_P_ARP`. -/
abbrev ethPArp : UInt16 := 0x0806

/-! ## `struct ether_arp`, behind the Ethernet header -/

abbrev arpOp : Nat := etherHdrSize + 6
abbrev arpSha : Nat := etherHdrSize + 8
abbrev arpSpa : Nat := etherHdrSize + 14
abbrev arpTpa : Nat := etherHdrSize + 24

/-- `sizeof(struct ether_arp)`. -/
abbrev etherArpSize : Nat := 28

/-- `ARPOP_REQUEST`. -/
abbrev arpopRequest : UInt16 := 1

/-- `ARPOP_REPLY`. -/
abbrev arpopReply : UInt16 := 2

/-! ## `struct iphdr`, behind the Ethernet header -/

abbrev iphdrSize : Nat := 20
abbrev ipIhl : Nat := etherHdrSize
abbrev ipTotLen : Nat := etherHdrSize + 2
abbrev ipTtl : Nat := etherHdrSize + 8
abbrev ipProtocol : Nat := etherHdrSize + 9
abbrev ipCheck : Nat := etherHdrSize + 10
abbrev ipSaddr : Nat := etherHdrSize + 12
abbrev ipDaddr : Nat := etherHdrSize + 16

/-- `IP_DF`. -/
abbrev ipDf : UInt16 := 0x4000

/-- `DEFAULT_TTL`. -/
abbrev defaultTtl : UInt8 := 64

/-- `sizeof(struct icmphdr)`. -/
abbrev icmphdrSize : Nat := 8

/-- Read a hardware address. -/
def readMac (b : Frame) (off : Nat) : Except Fault Mac :=
  if h : off + ethAlen ≤ b.length then .ok ⟨b.slice off ethAlen, Buffer.length_slice h⟩
  else .error .outOfBounds

/-- The header length field, in units of four bytes: the low half of the first header byte. -/
def readIhl (packet : Frame) : Except Fault Nat :=
  (packet.readU8 ipIhl).map fun b => b.toNat % 16

theorem readMac_ok {b : Frame} {off : Nat} {m : Mac} :
    readMac b off = .ok m ↔ off + ethAlen ≤ b.length ∧ m.val = b.slice off ethAlen := by
  unfold readMac
  split_ifs with h
  · simp [h, Subtype.ext_iff, eq_comm]
  · simp [h]

theorem readIhl_ok {packet : Frame} {ihl : Nat} :
    readIhl packet = .ok ihl ↔ ∃ b, packet.readU8 ipIhl = .ok b ∧ b.toNat % 16 = ihl := by
  simp [readIhl, Buffer.map_ok]

end StaticRouter
