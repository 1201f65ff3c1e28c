import StaticRouter.Network
import StaticRouter.Parsing

/-!
# ARP resolution

What a router that learns a hardware address has done: the address is in the cache, the packets that
waited for it are on their way, and nothing waits for it any more.
-/

namespace StaticRouter

open CMem

/-- The packet as it leaves for the station `mac`. -/
def addressed (mac : Mac) (packet : Frame) : Frame := mac.val ++ packet.drop ethAlen

/-- The packets that wait for `ip4`, in the order of the queue, as they leave for the station `mac`. -/
def flushed (s : Router) (ip4 : UInt32) (mac : Mac) : List (Iface × Frame) :=
  (s.reqList.filter (·.ip4 = ip4)).flatMap fun r =>
    r.cachedPackets.map fun p => (r.iface, addressed mac p.packet)

/-- The router knows the station `mac` of `ip4`, and no request waits for it; the requests for other
addresses are those of before. -/
structure Resolved (s s' : Router) (ip4 : UInt32) (mac : Mac) : Prop where
  lookup : arpcacheLookup s'.table ip4 = some mac
  pending : s'.reqList = s.reqList.filter (·.ip4 ≠ ip4)

/-- The frame that asks on `iface` for the station of `ip4`. -/
def requestFor (iface : Iface) (ip4 : UInt32) : Frame :=
  arpFrame broadcastMac iface.mac arpopRequest iface.mac iface.ip zeroMac ip4

/-- The frame in which `iface` answers the interface `other` that asked for it. -/
def replyTo (iface other : Iface) : Frame :=
  arpFrame other.mac iface.mac arpopReply iface.mac iface.ip other.mac other.ip

end StaticRouter
