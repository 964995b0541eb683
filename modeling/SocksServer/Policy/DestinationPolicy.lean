import SocksServer.Policy.Cidr

/-!
# `policy/destination_policy.rs`, `policy/internal_whitelist_entry.rs`

Which destinations the proxy may connect to. The decision is made on the address the socket
connects to, after DNS resolution.
-/

namespace SocksServer

/-- An internal network, optionally narrowed to a port or a port range. -/
structure InternalWhitelistEntry where
  network : Cidr
  /-- `none` = every port. -/
  ports : Option PortRange
  deriving DecidableEq

def InternalWhitelistEntry.matches (entry : InternalWhitelistEntry) (addr : SocketAddr) : Bool :=
  entry.network.contains (canonicalIp addr.ip)
    && (match entry.ports with
      | none => true
      | some ports => ports.contains addr.port)

/-- Why a destination was refused. -/
inductive DenyReason where
  /-- Port 0 or a port listed in `blocked_ports`. -/
  | blockedPort (port : UInt16)
  /-- Special-purpose address that is never a valid destination. -/
  | reservedAddress
  /-- Internal address not opened by `allow_internal` or `internal_whitelist`. -/
  | internalAddress (cls : IpClass)
  deriving DecidableEq, Repr

structure DestinationPolicy where
  blockedPorts : List UInt16
  allowInternal : Bool
  internalWhitelist : List InternalWhitelistEntry

namespace DestinationPolicy

def isWhitelisted (policy : DestinationPolicy) (addr : SocketAddr) : Bool :=
  policy.internalWhitelist.any fun entry => entry.matches addr

def check (policy : DestinationPolicy) (addr : SocketAddr) : Except DenyReason Unit :=
  let port := addr.port
  if port == 0 || policy.blockedPorts.contains port then .error (.blockedPort port)
  else
    match classifyIp addr.ip with
    | .publicIp => .ok ()
    | .reserved => .error .reservedAddress
    | .privateIp =>
      if policy.allowInternal then .ok ()
      else if policy.isWhitelisted addr then .ok ()
      else .error (.internalAddress .privateIp)
    | .linkLocal =>
      if policy.isWhitelisted addr then .ok () else .error (.internalAddress .linkLocal)
    | .loopback =>
      if policy.isWhitelisted addr then .ok () else .error (.internalAddress .loopback)

end DestinationPolicy

end SocksServer
