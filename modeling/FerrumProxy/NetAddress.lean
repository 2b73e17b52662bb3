import FerrumProxy.ByteStrings

/-!
# Internet addresses

IP addresses as the standard library has them: a fixed number of octets in network order.
-/

namespace FerrumProxy

open Wire

/-- Four octets. -/
structure Ipv4Addr where
  octets : Bytes
  size : octets.length = 4
  deriving DecidableEq

def Ipv4Addr.new (a b c d : UInt8) : Ipv4Addr := ⟨[a, b] ++ [c, d], rfl⟩

/-- Sixteen octets. -/
structure Ipv6Addr where
  octets : Bytes
  size : octets.length = 16
  deriving DecidableEq

attribute [simp] Ipv4Addr.size Ipv6Addr.size

/-- An address of either family. -/
inductive IpAddr where
  | v4 (ip : Ipv4Addr)
  | v6 (ip : Ipv6Addr)
  deriving DecidableEq

/-- The parts of a socket address that the proxy reads. -/
structure SocketAddr where
  ip : IpAddr
  port : UInt16
  deriving DecidableEq

/-- Four octets are an IPv4 address, sixteen an IPv6 address. -/
def IpAddr.ofOctets (octets : Bytes) : Option IpAddr :=
  if h : octets.length = 4 then some (.v4 ⟨octets, h⟩)
  else if h : octets.length = 16 then some (.v6 ⟨octets, h⟩)
  else none

def IpAddr.octets : IpAddr → Bytes
  | .v4 ip => ip.octets
  | .v6 ip => ip.octets

theorem ofOctets_octets (ip : IpAddr) : IpAddr.ofOctets ip.octets = some ip := by
  cases ip with
  | v4 ip => exact dif_pos ip.size
  | v6 ip =>
    have hlong : ¬ ip.octets.length = 4 := by rw [ip.size]; decide
    exact (dif_neg hlong).trans (dif_pos ip.size)

/-- The IPv4-mapped IPv6 address `::ffff:a.b.c.d`. -/
def Ipv4Addr.toIpv6Mapped (ip : Ipv4Addr) : Ipv6Addr where
  octets := List.replicate 10 0 ++ [0xff, 0xff] ++ ip.octets
  size := by simp

/-- `IpAddrExt::to_ipv6_mapped`. -/
def IpAddr.toIpv6Mapped : IpAddr → Ipv6Addr
  | .v4 ip => ip.toIpv6Mapped
  | .v6 ip => ip

/-- Addresses that name the same host: equal, or the same IPv6 address once
IPv4 addresses are mapped. -/
def IpAddr.SameHost (a b : IpAddr) : Prop :=
  a.toIpv6Mapped = b.toIpv6Mapped

instance (a b : IpAddr) : Decidable (a.SameHost b) :=
  inferInstanceAs (Decidable (_ = _))

end FerrumProxy
