import SocksServer.Infra.Text
import SocksServer.Policy.CidrMembership
import SocksServer.Policy.DestinationPolicy

/-!
# `FromStr` and `Display` of the policy's values

`policy/cidr.rs`, `policy/port_range.rs`, `policy/internal_whitelist_entry.rs` and
`policy/policy_parse_error.rs`. IP addresses are read and printed by `std`; what it does is a
parameter (`IpText`), and what the code relies on is `IpText.Lawful`.
-/

namespace SocksServer

open Infra Text

/-- A CIDR, port range or whitelist entry that could not be parsed. -/
structure PolicyParseError where
  input : Str
  reason : String
  deriving DecidableEq

def PolicyParseError.fmt (error : PolicyParseError) : String :=
  "'" ++ String.ofList error.input ++ "': " ++ error.reason

/-! ## What `std` does -/

/-- `FromStr` and `Display` of `IpAddr`. -/
structure IpText where
  fromStr : Str → Option IpAddr
  fmt : IpAddr → Str

/-- What is known of IP literals. -/
structure IpText.Lawful (std : IpText) : Prop where
  fromStr_fmt : ∀ ip, std.fromStr (std.fmt ip) = some ip
  v4_colon : ∀ {s ip}, std.fromStr s = some (.v4 ip) → ':' ∉ s
  v6_colons : ∀ {s ip}, std.fromStr s = some (.v6 ip) → 2 ≤ s.count ':'
  delimiter : ∀ {s ip}, std.fromStr s = some ip → ∀ c ∈ s, c ∉ ['/', '[', ']']
  whitespace : ∀ {s ip}, std.fromStr s = some ip → ∀ c ∈ s, isWhitespace c = false

/-- `u8::from_str` -/
def parseU8 (s : Str) : Option UInt8 := (parseUnsigned 255 s).map UInt8.ofNat

/-- `u16::from_str` -/
def parseU16 (s : Str) : Option UInt16 := (parseUnsigned 65535 s).map UInt16.ofNat

/-! ## Networks -/

namespace Cidr

/-- `a.b.c.d`, `a.b.c.d/n`, `x::y`, `x::y/n`. -/
def fromStr (std : IpText) (input : Str) : Except PolicyParseError Cidr :=
  let trimmed := trim input
  let (addr, bits) :=
    match splitOnce '/' trimmed with
    | some (addr, bits) => (addr, some bits)
    | none => (trimmed, none)
  match std.fromStr addr with
  | none => .error ⟨input, "expected an IP address or CIDR"⟩
  | some addr =>
    let maxPrefix : UInt8 := if addr.isIpv4 then 32 else 128
    let prefixLen :=
      match bits with
      | none => some maxPrefix
      | some bits => (parseU8 bits).filter (· ≤ maxPrefix)
    match prefixLen with
    | none => .error ⟨input, "invalid prefix length"⟩
    | some prefixLen =>
      match new addr prefixLen with
      | some cidr => .ok cidr
      | none => .error ⟨input, "invalid prefix length"⟩

def fmt (std : IpText) (cidr : Cidr) : Str :=
  std.fmt cidr.network ++ '/' :: Nat.toDigits 10 cidr.prefixLen.toNat

end Cidr

/-! ## Ports -/

namespace PortRange

/-- A port other than 0, with white space around it or not. -/
def parsePort (value : Str) : Option { port : UInt16 // port ≠ 0 } :=
  (parseU16 (trim value)).bind fun port => if h : port ≠ 0 then some ⟨port, h⟩ else none

def fromStr (input : Str) : Except PolicyParseError PortRange :=
  let (first, last) :=
    match splitOnce '-' input with
    | some (first, last) => (parsePort first, parsePort last)
    | none => (parsePort input, parsePort input)
  match first, last with
  | some first, some last =>
    if h : first.val ≤ last.val then .ok ⟨first, last, first.property, h⟩
    else .error ⟨input, "expected a port 1-65535 or a range like 8000-8100"⟩
  | _, _ => .error ⟨input, "expected a port 1-65535 or a range like 8000-8100"⟩

def fmt (ports : PortRange) : Str :=
  if ports.first = ports.last then Nat.toDigits 10 ports.first.toNat
  else Nat.toDigits 10 ports.first.toNat ++ '-' :: Nat.toDigits 10 ports.last.toNat

end PortRange

/-! ## Whitelist entries -/

def expectedFormat : String :=
  "expected IP or CIDR with an optional :port or :port-range ([ipv6]:port for IPv6)"

namespace InternalWhitelistEntry

/-- The texts of the network and of the ports; `none` when a bracket or a colon is missing. -/
def split (trimmed : Str) : Option (Str × Option Str) :=
  match stripPrefix '[' trimmed with
  | some bracketed =>
    match splitOnce ']' bracketed with
    | none => none
    | some (network, rest) =>
      if rest = [] then some (network, none)
      else (stripPrefix ':' rest).map fun ports => (network, some ports)
  | none =>
    match splitOnce ':' trimmed with
    -- Exactly one colon: IPv4 with a port. More colons: a bare IPv6 address.
    | some (network, ports) =>
      if !ports.contains ':' then some (network, some ports) else some (trimmed, none)
    | none => some (trimmed, none)

/--
Accepted forms: `10.0.0.5`, `10.0.0.0/24`, `10.0.0.5:5432`, `10.0.0.0/24:8000-8100`, `fd00::1`,
`fd00::/64`, `[fd00::1]:443`, `[fd00::/64]:8000-8100`.
-/
def fromStr (std : IpText) (input : Str) : Except PolicyParseError InternalWhitelistEntry :=
  match split (trim input) with
  | none => .error ⟨input, expectedFormat⟩
  | some (network, ports) =>
    match Cidr.fromStr std network with
    | .error error => .error ⟨input, error.reason⟩
    | .ok network =>
      match ports.map PortRange.fromStr with
      | some (.error error) => .error ⟨input, error.reason⟩
      | some (.ok ports) => .ok ⟨network, some ports⟩
      | none => .ok ⟨network, none⟩

def fmt (std : IpText) (entry : InternalWhitelistEntry) : Str :=
  match entry.ports with
  | none => entry.network.fmt std
  | some ports =>
    if !entry.network.network.isIpv4 then
      '[' :: entry.network.fmt std ++ ']' :: ':' :: ports.fmt
    else entry.network.fmt std ++ ':' :: ports.fmt

end InternalWhitelistEntry

/-! ## Errors name the text as it was given -/

section Errors

variable {std : IpText} {input : Str} {error : PolicyParseError}

theorem Cidr.input_of_fromStr (h : Cidr.fromStr std input = .error error) :
    error.input = input := by
  unfold Cidr.fromStr at h
  dsimp only at h
  split at h
  · rw [← Except.error.inj h]
  · split at h
    · rw [← Except.error.inj h]
    · split at h
      · cases h
      · rw [← Except.error.inj h]

theorem PortRange.input_of_fromStr (h : PortRange.fromStr input = .error error) :
    error.input = input := by
  unfold PortRange.fromStr at h
  dsimp only at h
  split at h
  · split at h
    · cases h
    · rw [← Except.error.inj h]
  · rw [← Except.error.inj h]

/-- Also when the network or the ports are at fault. -/
theorem InternalWhitelistEntry.input_of_fromStr
    (h : InternalWhitelistEntry.fromStr std input = .error error) : error.input = input := by
  unfold InternalWhitelistEntry.fromStr at h
  split at h
  · rw [← Except.error.inj h]
  · split at h
    · rw [← Except.error.inj h]
    · split at h
      · rw [← Except.error.inj h]
      · cases h
      · cases h

end Errors

end SocksServer
