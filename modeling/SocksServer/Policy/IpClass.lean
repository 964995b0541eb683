import SocksServer.Net

/-!
# `policy/ip_class.rs`

Which kind of network an address belongs to. IPv4-mapped IPv6 is unwrapped first
(`canonicalIp`), so every later decision sees the IPv4 address it stands for.
-/

namespace SocksServer

inductive IpClass where
  | publicIp
  | privateIp
  | linkLocal
  | loopback
  | reserved
  deriving DecidableEq, Repr

/-- `::ffff:a.b.c.d` becomes `a.b.c.d`; everything else is returned unchanged. -/
def canonicalIp (ip : IpAddr) : IpAddr :=
  match ip with
  | .v6 v6 => (v6.toIpv4Mapped.map IpAddr.v4).getD ip
  | .v4 _ => ip

def classifyV4 (ip : Ipv4Addr) : IpClass :=
  let first := ip.octet 0
  let second := ip.octet 1
  if first == 0 || first ≥ 224 then .reserved
  else if ip.isLoopback then .loopback
  else if ip.isLinkLocal then .linkLocal
  else if ip.isPrivate || (first == 100 && (second &&& 0xC0) == 64) then .privateIp
  else .publicIp

/-- The IPv4 address carried by NAT64 (`64:ff9b::/96`) or 6to4 (`2002::/16`) addresses. -/
def embeddedIpv4 (ip : Ipv6Addr) : Option Ipv4Addr :=
  let carried (high low : UInt16) : Ipv4Addr :=
    ⟨BitVec.ofNat 32 (high.toNat * 2 ^ 16 + low.toNat)⟩
  if ip.segment 0 == 0x0064 && ip.segment 1 == 0xFF9B && ip.segment 2 == 0 && ip.segment 3 == 0
      && ip.segment 4 == 0 && ip.segment 5 == 0 then
    some (carried (ip.segment 6) (ip.segment 7))
  else if ip.segment 0 == 0x2002 then some (carried (ip.segment 1) (ip.segment 2))
  else none

def classifyV6 (ip : Ipv6Addr) : IpClass :=
  if ip.isLoopback then .loopback
  else if (List.range 6).all fun i => ip.segment i == 0 then .reserved
  else
    match embeddedIpv4 ip with
    | some embedded => classifyV4 embedded
    | none =>
      let first := ip.segment 0
      if ip.isMulticast then .reserved
      else if (first &&& 0xFE00) == 0xFC00 || (first &&& 0xFFC0) == 0xFEC0 then .privateIp
      else if (first &&& 0xFFC0) == 0xFE80 then .linkLocal
      else .publicIp

/-- IPv4-mapped IPv6 is judged as the IPv4 address it maps to. -/
def classifyIp (ip : IpAddr) : IpClass :=
  match canonicalIp ip with
  | .v4 v4 => classifyV4 v4
  | .v6 v6 => classifyV6 v6

/-! ## Canonical addresses -/

/-- Not of the form `::ffff:a.b.c.d`. -/
def IsCanonical (ip : IpAddr) : Prop := canonicalIp ip = ip

instance (ip : IpAddr) : Decidable (IsCanonical ip) := inferInstanceAs (Decidable (_ = _))

@[simp] theorem canonicalIp_v4 (ip : Ipv4Addr) : canonicalIp (.v4 ip) = .v4 ip := rfl

theorem canonicalIp_v6 (ip : Ipv6Addr) :
    canonicalIp (.v6 ip) =
      match ip.toIpv4Mapped with
      | some v4 => .v4 v4
      | none => .v6 ip := by
  show (ip.toIpv4Mapped.map IpAddr.v4).getD (.v6 ip) = _
  cases ip.toIpv4Mapped <;> rfl

/-- Unwrapping twice is unwrapping once. -/
theorem canonicalIp_idem (ip : IpAddr) : IsCanonical (canonicalIp ip) := by
  unfold IsCanonical
  cases ip with
  | v4 ip => rfl
  | v6 ip =>
    rw [canonicalIp_v6]
    cases h : ip.toIpv4Mapped with
    | some v4 => rfl
    | none => simp only []; rw [canonicalIp_v6, h]

theorem toIpv4Mapped_ofIpv4Mapped (v4 : Ipv4Addr) :
    (Ipv6Addr.ofIpv4Mapped v4).toIpv4Mapped = some v4 := by
  have hhigh : (0xFFFF#96 ++ v4.bits).extractLsb' 32 96 = 0xFFFF#96 := by
    rw [BitVec.extractLsb'_append_eq_left]
  have hlow : (0xFFFF#96 ++ v4.bits).extractLsb' 0 32 = v4.bits := by
    rw [BitVec.extractLsb'_append_eq_right]
  exact (if_pos hhigh).trans (congrArg (fun bits => some (Ipv4Addr.mk bits)) hlow)

/-- A canonical address is not IPv4-mapped. -/
theorem IsCanonical.ne_mapped {ip : IpAddr} (h : IsCanonical ip) (v4 : Ipv4Addr) :
    ip ≠ .v6 (.ofIpv4Mapped v4) := by
  rintro rfl
  unfold IsCanonical at h
  rw [canonicalIp_v6, toIpv4Mapped_ofIpv4Mapped] at h
  simp at h

/-- The address the policy judges and the socket connects to. -/
def canonicalAddr (addr : SocketAddr) : SocketAddr :=
  SocketAddr.new (canonicalIp addr.ip) addr.port

@[simp] theorem ip_canonicalAddr (addr : SocketAddr) :
    (canonicalAddr addr).ip = canonicalIp addr.ip := SocketAddr.ip_new _ _

@[simp] theorem port_canonicalAddr (addr : SocketAddr) :
    (canonicalAddr addr).port = addr.port := SocketAddr.port_new _ _

end SocksServer
