import SocksServer.Policy.IpClass

/-!
# `policy/cidr.rs`, `policy/port_range.rs`, `policy/client_acl.rs`

Networks and port ranges. The fields of `Cidr` and `PortRange` are private in the source and
only their constructors build values, so what the constructors guarantee is a field here:
host bits are cleared, the prefix fits, a range is not empty and does not contain port 0.
-/

namespace SocksServer

/-! ## Masks -/

/-- `checked_shl`: `none` when every bit would be shifted out. -/
def checkedShl {w : Nat} (x : BitVec w) (n : Nat) : Option (BitVec w) :=
  if n < w then some (x <<< n) else none

/-- The first `prefixLen` bits of an address of `w` bits. -/
def prefixMask (w prefixLen : Nat) : BitVec w :=
  (checkedShl (BitVec.allOnes w) (w - prefixLen)).getD 0

def v4Mask (prefixLen : UInt8) : BitVec 32 := prefixMask 32 prefixLen.toNat

def v6Mask (prefixLen : UInt8) : BitVec 128 := prefixMask 128 prefixLen.toNat

/-! ## Networks -/

/-- The prefix fits the address and the bits behind it are 0. -/
def IsNetwork (network : IpAddr) (prefixLen : UInt8) : Prop :=
  match network with
  | .v4 ip => prefixLen ≤ 32 ∧ ip.bits &&& v4Mask prefixLen = ip.bits
  | .v6 ip => prefixLen ≤ 128 ∧ ip.bits &&& v6Mask prefixLen = ip.bits

/-- An IP network: `10.0.0.0/8`, `fd00::/8`, or a single host (`/32`, `/128`). -/
structure Cidr where
  network : IpAddr
  prefixLen : UInt8
  isNetwork : IsNetwork network prefixLen

instance : DecidableEq Cidr := fun a b =>
  decidable_of_iff (a.network = b.network ∧ a.prefixLen = b.prefixLen)
    (by cases a; cases b; simp)

namespace Cidr

/-- The last two arms of `Cidr::new`, for an address that is not a mapped network. -/
def masked (addr : IpAddr) (prefixLen : UInt8) : Option Cidr :=
  match addr with
  | .v4 v4 =>
    if h : prefixLen ≤ 32 then
      some ⟨.v4 ⟨v4.bits &&& v4Mask prefixLen⟩, prefixLen, h, by
        rw [BitVec.and_assoc, BitVec.and_self]⟩
    else none
  | .v6 v6 =>
    if h : prefixLen ≤ 128 then
      some ⟨.v6 ⟨v6.bits &&& v6Mask prefixLen⟩, prefixLen, h, by
        rw [BitVec.and_assoc, BitVec.and_self]⟩
    else none

/--
Host bits of `addr` are cleared. IPv4-mapped IPv6 networks (`::ffff:a.b.c.d/96+`) are stored
as IPv4, so they match canonicalized addresses. `none` if the prefix is too long.
-/
def new (addr : IpAddr) (prefixLen : UInt8) : Option Cidr :=
  match addr with
  | .v6 v6 =>
    if 96 ≤ prefixLen then
      match v6.toIpv4Mapped with
      | some v4 => masked (.v4 v4) (prefixLen - 96)
      | none => masked addr prefixLen
    else masked addr prefixLen
  | .v4 _ => masked addr prefixLen

/-- IPv4 never matches an IPv6 network and vice versa. -/
def contains (cidr : Cidr) (ip : IpAddr) : Bool :=
  match cidr.network, ip with
  | .v4 network, .v4 ip => (ip.bits &&& v4Mask cidr.prefixLen) == network.bits
  | .v6 network, .v6 ip => (ip.bits &&& v6Mask cidr.prefixLen) == network.bits
  | .v4 _, .v6 _ => false
  | .v6 _, .v4 _ => false

end Cidr

/-! ## Ports -/

/-- Inclusive range of TCP ports (`443` or `8000-8100`), never containing port 0. -/
structure PortRange where
  first : UInt16
  last : UInt16
  first_ne_zero : first ≠ 0
  first_le_last : first ≤ last
  deriving DecidableEq

def PortRange.contains (ports : PortRange) (port : UInt16) : Bool :=
  ports.first ≤ port && port ≤ ports.last

/-! ## Clients -/

/-- `client_whitelist`. -/
structure ClientAcl where
  networks : List Cidr

/-- An empty whitelist allows everyone. -/
def ClientAcl.isAllowed (acl : ClientAcl) (ip : IpAddr) : Bool :=
  let ip := canonicalIp ip
  acl.networks.isEmpty || acl.networks.any fun network => network.contains ip

end SocksServer
