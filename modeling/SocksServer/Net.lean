import SocksServer.Infra.Bytes

/-!
# `std::net` addresses

An IPv4 address is 32 bits and an IPv6 address 128 bits, as `u32::from` and `u128::from`
give them. The octets are the same bits in network order.

A `SocketAddr` of the IPv6 kind also carries a flow label and a scope id. `SocketAddr::new`
sets both to 0, so rebuilding an address from its ip and port forgets them.
-/

namespace SocksServer

open Infra

/-! ## Addresses -/

structure Ipv4Addr where
  bits : BitVec 32
  deriving DecidableEq, Repr

structure Ipv6Addr where
  bits : BitVec 128
  deriving DecidableEq, Repr

inductive IpAddr where
  | v4 (ip : Ipv4Addr)
  | v6 (ip : Ipv6Addr)
  deriving DecidableEq, Repr

inductive SocketAddr where
  | v4 (ip : Ipv4Addr) (port : UInt16)
  | v6 (ip : Ipv6Addr) (port : UInt16) (flowinfo scopeId : UInt32)
  deriving DecidableEq, Repr

namespace Ipv4Addr

/-- `0.0.0.0` -/
def unspecified : Ipv4Addr := ⟨0⟩

/-- `a.b.c.d` -/
def new (a b c d : UInt8) : Ipv4Addr := ⟨BitVec.ofNat 32 (ofBeBytes [a, b, c, d])⟩

def ofOctets (octets : Bytes) : Ipv4Addr := ⟨BitVec.ofNat 32 (ofBeBytes octets)⟩

def octets (ip : Ipv4Addr) : Bytes := toBeBytes 4 ip.bits.toNat

def octet (ip : Ipv4Addr) (i : Nat) : UInt8 := ip.octets.getD i 0

/-- `127.0.0.0/8` -/
def isLoopback (ip : Ipv4Addr) : Bool := ip.octet 0 == 127

/-- `169.254.0.0/16` -/
def isLinkLocal (ip : Ipv4Addr) : Bool := ip.octet 0 == 169 && ip.octet 1 == 254

/-- `10.0.0.0/8`, `172.16.0.0/12` and `192.168.0.0/16` -/
def isPrivate (ip : Ipv4Addr) : Bool :=
  ip.octet 0 == 10
    || (ip.octet 0 == 172 && 16 ≤ ip.octet 1 && ip.octet 1 ≤ 31)
    || (ip.octet 0 == 192 && ip.octet 1 == 168)

@[simp] theorem length_octets (ip : Ipv4Addr) : ip.octets.length = 4 := length_toBeBytes _ _

/-- An address is read back from its bytes. -/
@[simp] theorem ofOctets_octets (ip : Ipv4Addr) : ofOctets ip.octets = ip := by
  have h : ip.bits.toNat % 256 ^ 4 = ip.bits.toNat := Nat.mod_eq_of_lt ip.bits.isLt
  rw [ofOctets, octets, ofBeBytes_toBeBytes, h, BitVec.ofNat_toNat, BitVec.setWidth_eq]

/-- Any four bytes are those of an address. -/
theorem octets_ofOctets {bs : Bytes} (h : bs.length = 4) : (ofOctets bs).octets = bs := by
  have hlt : ofBeBytes bs < 2 ^ 32 := by
    have := ofBeBytes_lt bs
    rwa [h] at this
  rw [ofOctets, octets, BitVec.toNat_ofNat, Nat.mod_eq_of_lt hlt, ← h, toBeBytes_ofBeBytes]

end Ipv4Addr

namespace Ipv6Addr

/-- `::1` -/
def localhost : Ipv6Addr := ⟨1⟩

/-- `a:b:c:d:e:f:g:h` -/
def new (a b c d e f g h : UInt16) : Ipv6Addr :=
  ⟨BitVec.ofNat 128 ([a, b, c, d, e, f, g, h].foldl (fun n s => n * 2 ^ 16 + s.toNat) 0)⟩

def ofOctets (octets : Bytes) : Ipv6Addr := ⟨BitVec.ofNat 128 (ofBeBytes octets)⟩

def octets (ip : Ipv6Addr) : Bytes := toBeBytes 16 ip.bits.toNat

/-- The `i`-th group of 16 bits, counted from the left. -/
def segment (ip : Ipv6Addr) (i : Nat) : UInt16 :=
  UInt16.ofNat (ip.bits.toNat / 2 ^ (112 - 16 * i))

def isLoopback (ip : Ipv6Addr) : Bool := ip == localhost

/-- `ff00::/8` -/
def isMulticast (ip : Ipv6Addr) : Bool := (ip.segment 0 &&& 0xFF00) == 0xFF00

/-- `::ffff:a.b.c.d` -/
def ofIpv4Mapped (v4 : Ipv4Addr) : Ipv6Addr := ⟨0xFFFF#96 ++ v4.bits⟩

/-- The IPv4 address inside `::ffff:a.b.c.d`. -/
def toIpv4Mapped (ip : Ipv6Addr) : Option Ipv4Addr :=
  if ip.bits.extractLsb' 32 96 = 0xFFFF#96 then some ⟨ip.bits.extractLsb' 0 32⟩ else none

@[simp] theorem length_octets (ip : Ipv6Addr) : ip.octets.length = 16 := length_toBeBytes _ _

/-- An address is read back from its bytes. -/
@[simp] theorem ofOctets_octets (ip : Ipv6Addr) : ofOctets ip.octets = ip := by
  have h : ip.bits.toNat % 256 ^ 16 = ip.bits.toNat := Nat.mod_eq_of_lt ip.bits.isLt
  rw [ofOctets, octets, ofBeBytes_toBeBytes, h, BitVec.ofNat_toNat, BitVec.setWidth_eq]

/-- Any sixteen bytes are those of an address. -/
theorem octets_ofOctets {bs : Bytes} (h : bs.length = 16) : (ofOctets bs).octets = bs := by
  have hlt : ofBeBytes bs < 2 ^ 128 := by
    have := ofBeBytes_lt bs
    rwa [h] at this
  rw [ofOctets, octets, BitVec.toNat_ofNat, Nat.mod_eq_of_lt hlt, ← h, toBeBytes_ofBeBytes]

end Ipv6Addr

/-! ## Socket addresses -/

namespace SocketAddr

/-- Flow label and scope id of an IPv6 address are 0. -/
def new (ip : IpAddr) (port : UInt16) : SocketAddr :=
  match ip with
  | .v4 ip => .v4 ip port
  | .v6 ip => .v6 ip port 0 0

def ip : SocketAddr → IpAddr
  | .v4 ip _ => .v4 ip
  | .v6 ip _ _ _ => .v6 ip

def port : SocketAddr → UInt16
  | .v4 _ port => port
  | .v6 _ port _ _ => port

@[simp] theorem ip_new (ip : IpAddr) (port : UInt16) : (new ip port).ip = ip := by
  cases ip <;> rfl

@[simp] theorem port_new (ip : IpAddr) (port : UInt16) : (new ip port).port = port := by
  cases ip <;> rfl

end SocketAddr

/-! ## Ports on the wire -/

/-- `u16::to_be_bytes` -/
def portBytes (port : UInt16) : Bytes := toBeBytes 2 port.toNat

/-- What `read_u16` makes of two bytes. -/
def portOfBytes (bs : Bytes) : UInt16 := UInt16.ofNat (ofBeBytes bs)

@[simp] theorem length_portBytes (port : UInt16) : (portBytes port).length = 2 :=
  length_toBeBytes _ _

/-- A port is read back from its bytes. -/
@[simp] theorem portOfBytes_portBytes (port : UInt16) : portOfBytes (portBytes port) = port := by
  simp [portOfBytes, portBytes, ofBeBytes_toBeBytes]

/-- Any two bytes are those of a port. -/
theorem portBytes_portOfBytes {bs : Bytes} (h : bs.length = 2) :
    portBytes (portOfBytes bs) = bs := by
  have hlt : ofBeBytes bs < 2 ^ 16 := by
    have := ofBeBytes_lt bs
    rwa [h] at this
  rw [portBytes, portOfBytes, UInt16.toNat_ofNat', Nat.mod_eq_of_lt hlt, ← h,
    toBeBytes_ofBeBytes]

end SocksServer
