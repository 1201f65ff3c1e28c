import StaticRouter.Lib.Tlv
import StaticRouter.RoutingTable

/-!
# Netlink route messages

The messages in which the kernel hands out its routes, as `linux/netlink.h` and `linux/rtnetlink.h` lay them
out: a `struct nlmsghdr`, a `struct rtmsg` and attributes, each with its own length.
-/

namespace StaticRouter

open CMem

/-! ## Headers -/

/-- `sizeof(struct nlmsghdr)` -/
abbrev nlmsgHdrSize : Nat := 16
abbrev nlmsgType : Nat := 4

/-- `NLMSG_OK` and `NLMSG_NEXT` go by `nlmsg_len`. -/
def nlmsg : Tlv.Format where
  size := nlmsgHdrSize
  pos := by decide
  lengthAt b nlp := (b.readLe32 nlp).map UInt32.toNat
  within pre c post h := by
    have hlen : 0 + 4 ≤ c.length := Nat.le_trans (by decide) h
    exact congrArg (·.map UInt32.toNat) (Buffer.readLe32_within hlen)

/-- `struct rtmsg` behind the header. -/
abbrev rtmsgSize : Nat := 12
abbrev rtmDstLen : Nat := 1
abbrev rtmTable : Nat := 4

/-- `sizeof(struct rtattr)` -/
abbrev rtattrSize : Nat := 4
abbrev rtaType : Nat := 2

/-- `RTA_OK` and `RTA_NEXT` go by `rta_len`. -/
def rtattr : Tlv.Format where
  size := rtattrSize
  pos := by decide
  lengthAt b rtap := (b.readLe16 rtap).map UInt16.toNat
  within pre c post h := by
    have hlen : 0 + 2 ≤ c.length := Nat.le_trans (by decide) h
    exact congrArg (·.map UInt16.toNat) (Buffer.readLe16_within hlen)

abbrev nlmsgError : UInt16 := 2
abbrev nlmsgDone : UInt16 := 3
abbrev rtmNewRoute : UInt16 := 24

abbrev rtaDst : UInt16 := 1
abbrev rtaOif : UInt16 := 4
abbrev rtaGateway : UInt16 := 5

/-- `RT_TABLE_MAIN` -/
abbrev rtTableMain : UInt8 := 254

/-! ## Messages -/

/-- An attribute; its length fits `rta_len`. -/
structure RtAttr where
  type : UInt16
  data : Buffer
  short : rtattrSize + data.length < 2 ^ 16

def RtAttr.bytes (a : RtAttr) : Buffer :=
  Buffer.le16 (.ofNat (rtattrSize + a.data.length)) ++ (Buffer.le16 a.type ++ a.data)

/-- The attribute with its padding. -/
def RtAttr.padded (a : RtAttr) : Buffer :=
  a.bytes ++ List.replicate (Tlv.align a.bytes.length - a.bytes.length) 0

/-- A route message: what the headers say, and the attributes. -/
structure RouteMsg where
  nlmsgFlags : UInt16
  nlmsgSeq : UInt32
  nlmsgPid : UInt32
  family : UInt8
  dstLen : UInt8
  srcLen : UInt8
  tos : UInt8
  table : UInt8
  protocol : UInt8
  scope : UInt8
  kind : UInt8
  flags : UInt32
  attrs : List RtAttr

namespace RouteMsg

/-- The data of the attribute of type `type`. -/
def attr (m : RouteMsg) (type : UInt16) : Option Buffer :=
  (m.attrs.find? (·.type = type)).map (·.data)

/-- `struct rtmsg` -/
def rtmsg (m : RouteMsg) : Buffer :=
  [m.family, m.dstLen, m.srcLen, m.tos, m.table, m.protocol, m.scope, m.kind] ++ Buffer.le32 m.flags

/-- `struct nlmsghdr` of a message of `len` bytes. -/
def nlmsghdr (m : RouteMsg) (len : Nat) : Buffer :=
  Buffer.le32 (.ofNat len) ++ Buffer.le16 rtmNewRoute ++ Buffer.le16 m.nlmsgFlags ++ Buffer.le32 m.nlmsgSeq ++
    Buffer.le32 m.nlmsgPid

/-- The bytes of the message. The last attribute may come with its padding or without. -/
def Encodes (m : RouteMsg) (c : Buffer) : Prop :=
  ∃ bs, rtattr.Laid (fun a c => c = a.bytes) m.attrs bs ∧
    c = m.nlmsghdr (nlmsgHdrSize + rtmsgSize + bs.length) ++ (m.rtmsg ++ bs) ∧
    nlmsgHdrSize + rtmsgSize + bs.length < 2 ^ 32

/-- The bytes of the message with all padding. -/
def encode (m : RouteMsg) : Buffer :=
  let bs := m.attrs.flatMap RtAttr.padded
  m.nlmsghdr (nlmsgHdrSize + rtmsgSize + bs.length) ++ (m.rtmsg ++ bs)

/-- A message as the kernel makes it: no two attributes have the same type, there is a destination address if
the prefix is not empty, and addresses and indices have four bytes. -/
structure WellFormed (m : RouteMsg) : Prop where
  nodup : (m.attrs.map (·.type)).Nodup
  dst_iff : (m.attr rtaDst).isSome ↔ 1 ≤ m.dstLen.toNat
  dstLen_le : m.dstLen.toNat ≤ 32
  four : ∀ a ∈ m.attrs, a.type = rtaDst ∨ a.type = rtaGateway ∨ a.type = rtaOif → a.data.length = 4

end RouteMsg

/-- The bytes are a dump of the routes `ms`. -/
structure IsDump (ms : List RouteMsg) (bs : Buffer) : Prop where
  laid : nlmsg.Laid RouteMsg.Encodes ms bs
  wellFormed : ∀ m ∈ ms, m.WellFormed

end StaticRouter
