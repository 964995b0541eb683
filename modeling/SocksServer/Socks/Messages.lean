import SocksServer.Socks.Wire

/-!
# The SOCKS5 messages

`socks/greeting.rs`, `socks/auth_negotiation.rs`, `socks/target_addr.rs`, `socks/request.rs`
and `socks/reply.rs`: each message with its reader and its encoder.
-/

namespace SocksServer

open Infra

/-! ## Greeting and method selection -/

/-- Client greeting: `VER | NMETHODS | METHODS...` -/
structure Greeting where
  methods : Bytes
  deriving DecidableEq, Repr

def Greeting.readFrom {S : Sig} : Reader S Greeting := do
  let version ← readU8
  if version ≠ socksVersion then throw (.unsupportedVersion version)
  else
    let count ← readU8
    if count = 0 then throw .noMethods
    else
      let methods ← readBytes count.toNat
      return { methods }

def Greeting.offers (greeting : Greeting) (method : UInt8) : Bool :=
  greeting.methods.contains method

def Greeting.encode (greeting : Greeting) : Except ProtocolError Bytes := do
  let count ← lengthByte greeting.methods
  return [socksVersion, count] ++ greeting.methods

/-- The server's choice of authentication method: `VER | METHOD`. -/
structure MethodSelection where
  method : UInt8
  deriving DecidableEq, Repr

def MethodSelection.noAcceptable : MethodSelection := { method := methodNoAcceptable }

def MethodSelection.encode (selection : MethodSelection) : Bytes := [socksVersion, selection.method]

def MethodSelection.readFrom {S : Sig} : Reader S MethodSelection := do
  let version ← readU8
  if version ≠ socksVersion then throw (.unsupportedVersion version)
  else
    let method ← readU8
    return { method }

/-! ## Username/password sub-negotiation -/

/-- RFC 1929 request: `VER | ULEN | UNAME | PLEN | PASSWD`. -/
structure UserPassRequest where
  username : Bytes
  password : Bytes
  deriving DecidableEq, Repr

def UserPassRequest.readFrom {S : Sig} : Reader S UserPassRequest := do
  let version ← readU8
  if version ≠ authVersion then throw (.unsupportedAuthVersion version)
  else
    let username ← readU8Prefixed
    let password ← readU8Prefixed
    return { username, password }

def UserPassRequest.encode (request : UserPassRequest) : Except ProtocolError Bytes := do
  let out ← pushU8Prefixed [authVersion] request.username
  pushU8Prefixed out request.password

/-- RFC 1929 response: `VER | STATUS`. -/
structure UserPassResponse where
  status : UInt8
  deriving DecidableEq, Repr

namespace UserPassResponse

def success : UserPassResponse := { status := authStatusSuccess }

def failure : UserPassResponse := { status := authStatusFailure }

def isSuccess (response : UserPassResponse) : Bool := response.status == authStatusSuccess

def encode (response : UserPassResponse) : Bytes := [authVersion, response.status]

def readFrom {S : Sig} : Reader S UserPassResponse := do
  let version ← readU8
  if version ≠ authVersion then throw (.unsupportedAuthVersion version)
  else
    let status ← readU8
    return { status }

end UserPassResponse

/-! ## Target address -/

/-- Destination requested by the client. A domain is resolved on the server side. -/
inductive TargetAddr where
  | ip (addr : SocketAddr)
  | domain (host : String) (port : UInt16)
  deriving DecidableEq, Repr

/-- `u8::is_ascii_alphanumeric` -/
def isAsciiAlphanumeric (b : UInt8) : Bool :=
  (48 ≤ b && b ≤ 57) || (65 ≤ b && b ≤ 90) || (97 ≤ b && b ≤ 122)

/-- Letters, digits, `-`, `_`, `.` and `:` (for IPv6 literals). -/
def isDomainByte (b : UInt8) : Bool :=
  isAsciiAlphanumeric b || b == 45 || b == 95 || b == 46 || b == 58

/-- Anything else is refused before it can reach the resolver or the logs. -/
def parseDomain (raw : Bytes) : Except ProtocolError String :=
  let valid := !raw.isEmpty && raw.all isDomainByte
  if !valid then .error .invalidDomain
  else
    match fromUtf8 raw with
    | some host => .ok host
    | none => .error .invalidDomain

namespace TargetAddr

/-- Reads the address that follows an `ATYP` byte. -/
def readFrom {S : Sig} (addressType : UInt8) : Reader S TargetAddr :=
  if addressType = atypIpv4 then do
    let octets ← readBytes 4
    let port ← readU16
    return .ip (.new (.v4 (.ofOctets octets)) port)
  else if addressType = atypIpv6 then do
    let octets ← readBytes 16
    let port ← readU16
    return .ip (.new (.v6 (.ofOctets octets)) port)
  else if addressType = atypDomain then do
    let raw ← readU8Prefixed
    let port ← readU16
    match parseDomain raw with
    | .ok host => return .domain host port
    | .error e => throw e
  else throw (.unsupportedAddressType addressType)

/-- Appends `ATYP | ADDR | PORT`. -/
def encodeInto (target : TargetAddr) (out : Bytes) : Except ProtocolError Bytes :=
  match target with
  | .ip addr => .ok (pushSocketAddr out addr)
  | .domain host port => do
    let out ← pushU8Prefixed (out ++ [atypDomain]) (strBytes host)
    return out ++ portBytes port

end TargetAddr

/-! ## Request -/

/-- Only `connect` is served. -/
inductive Command where
  | connect
  | bind
  | udpAssociate
  | unknown (value : UInt8)
  deriving DecidableEq, Repr

namespace Command

def fromByte (value : UInt8) : Command :=
  if value = cmdConnect then .connect
  else if value = cmdBind then .bind
  else if value = cmdUdpAssociate then .udpAssociate
  else .unknown value

def asByte : Command → UInt8
  | .connect => cmdConnect
  | .bind => cmdBind
  | .udpAssociate => cmdUdpAssociate
  | .unknown value => value

end Command

/-- Client request: `VER | CMD | RSV | ATYP | DST.ADDR | DST.PORT`. -/
structure Request where
  command : Command
  target : TargetAddr
  deriving DecidableEq, Repr

/-- The reserved byte is ignored. -/
def Request.readFrom {S : Sig} : Reader S Request := do
  let header ← readBytes 4
  let version := header.getD 0 0
  if version ≠ socksVersion then throw (.unsupportedVersion version)
  else
    let target ← TargetAddr.readFrom (header.getD 3 0)
    return { command := .fromByte (header.getD 1 0), target }

def Request.encode (request : Request) : Except ProtocolError Bytes :=
  request.target.encodeInto [socksVersion, request.command.asByte, 0x00]

/-! ## Reply -/

inductive ReplyCode where
  | succeeded
  | generalFailure
  | notAllowed
  | networkUnreachable
  | hostUnreachable
  | connectionRefused
  | ttlExpired
  | commandNotSupported
  | addressTypeNotSupported
  | unassigned (value : UInt8)
  deriving DecidableEq, Repr

namespace ReplyCode

def fromByte (value : UInt8) : ReplyCode :=
  if value = 0x00 then .succeeded
  else if value = 0x01 then .generalFailure
  else if value = 0x02 then .notAllowed
  else if value = 0x03 then .networkUnreachable
  else if value = 0x04 then .hostUnreachable
  else if value = 0x05 then .connectionRefused
  else if value = 0x06 then .ttlExpired
  else if value = 0x07 then .commandNotSupported
  else if value = 0x08 then .addressTypeNotSupported
  else .unassigned value

def asByte : ReplyCode → UInt8
  | .succeeded => 0x00
  | .generalFailure => 0x01
  | .notAllowed => 0x02
  | .networkUnreachable => 0x03
  | .hostUnreachable => 0x04
  | .connectionRefused => 0x05
  | .ttlExpired => 0x06
  | .commandNotSupported => 0x07
  | .addressTypeNotSupported => 0x08
  | .unassigned value => value

end ReplyCode

/-- Server reply: `VER | REP | RSV | ATYP | BND.ADDR | BND.PORT`. -/
structure Reply where
  code : ReplyCode
  bindAddr : SocketAddr
  deriving DecidableEq, Repr

namespace Reply

/-- The server does not disclose the local address of its outbound socket. -/
def new (code : ReplyCode) : Reply := { code, bindAddr := .new (.v4 .unspecified) 0 }

def encode (reply : Reply) : Bytes :=
  pushSocketAddr [socksVersion, reply.code.asByte, 0x00] reply.bindAddr

def readFrom {S : Sig} : Reader S Reply := do
  let header ← readBytes 4
  let version := header.getD 0 0
  if version ≠ socksVersion then throw (.unsupportedVersion version)
  else
    let target ← TargetAddr.readFrom (header.getD 3 0)
    let bindAddr :=
      match target with
      | .ip addr => addr
      | .domain _ port => .new (.v4 .unspecified) port
    return { code := .fromByte (header.getD 1 0), bindAddr }

end Reply

end SocksServer
