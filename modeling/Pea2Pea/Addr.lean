/-
Socket addresses, and the key per-IP accounting uses (`canonical_ip`): the
IP with an IPv4-mapped IPv6 address folded back to its IPv4 form.
-/
import Mathlib.Data.BitVec

namespace Pea2Pea

/-- `std::net::IpAddr`, its octets in network order. -/
inductive IpAddr
  | v4 (octets : BitVec 32)
  | v6 (octets : BitVec 128)
  deriving DecidableEq

/-- `Ipv6Addr::to_ipv4_mapped`: the last four octets of `::ffff:a.b.c.d`. -/
def toIpv4Mapped (octets : BitVec 128) : Option (BitVec 32) :=
  if octets.extractLsb' 32 96 = 0xffff#96 then some (octets.extractLsb' 0 32) else none

/-- `IpAddr::to_canonical`. -/
def IpAddr.toCanonical : IpAddr → IpAddr
  | .v4 o => .v4 o
  | .v6 o => match toIpv4Mapped o with
    | some m => .v4 m
    | none => .v6 o

/-- `std::net::SocketAddr`; an IPv6 address also carries its flow
information and scope. -/
inductive SocketAddr
  | v4 (ip : BitVec 32) (port : BitVec 16)
  | v6 (ip : BitVec 128) (port : BitVec 16) (flowinfo scopeId : BitVec 32)
  deriving DecidableEq

def SocketAddr.ip : SocketAddr → IpAddr
  | .v4 ip _ => .v4 ip
  | .v6 ip _ _ _ => .v6 ip

/-- `SocketAddr::from((ip, port))`. -/
def SocketAddr.new : IpAddr → BitVec 16 → SocketAddr
  | .v4 ip, port => .v4 ip port
  | .v6 ip, port => .v6 ip port 0 0

/-- The IP address used as the per-IP accounting key. -/
def canonicalIp (addr : SocketAddr) : IpAddr := addr.ip.toCanonical

/-- An IPv4 address and its IPv4-mapped form share one accounting key. -/
theorem canonicalIp_mapped (ip : BitVec 32) (port port' : BitVec 16) (flowinfo scopeId : BitVec 32) :
    canonicalIp (.v6 (0xffff#96 ++ ip) port flowinfo scopeId) = canonicalIp (.v4 ip port') := by
  have hm : toIpv4Mapped (0xffff#96 ++ ip) = some ip := by
    have hi : BitVec.extractLsb' 32 96 (0xffff#96 ++ ip) = 0xffff#96 := by
      rw [BitVec.extractLsb'_append_eq_left]
    have lo : BitVec.extractLsb' 0 32 (0xffff#96 ++ ip) = ip := by
      rw [BitVec.extractLsb'_append_eq_right]
    rw [toIpv4Mapped, if_pos hi, lo]
  simp only [canonicalIp, SocketAddr.ip, IpAddr.toCanonical]
  rw [hm]

end Pea2Pea
