import SocksServer.Policy.DestinationPolicy
import SocksServer.Policy.BanListInner
import SocksServer.Relay.Bidirectional
import SocksServer.Socks.Messages

/-!
# `server/close_reason.rs` and `server/connector.rs`

The connector resolves a target, puts every address through the destination policy and
connects to the first allowed address that answers.

`ConnSig` is what the task of a client connection asks of its surroundings besides the client
socket. The stream of a connected target is not modelled; a target is known by its address.
-/

namespace SocksServer

open Infra

/-! ## What a connection task asks for -/

/-- Futures a connection task awaits. -/
inductive ConnOp where
  | lookupHost (host : String) (port : UInt16)
  | tcpConnect (addr : SocketAddr)
  | relay
  deriving DecidableEq, Repr

/-- Calls a connection task makes on the shared state and on its report. -/
inductive ConnCall where
  | verify (username password : Bytes)
  | incrementAuthFailures
  | recordFailure (ip : IpAddr)
  | setUser (user : String)
  | setTarget (target : TargetAddr)
  /-- `connect_to_target` is entered. -/
  | connectToTarget (target : TargetAddr)
  | setTargetAddr (addr : SocketAddr)
  /-- `relay_tcp` is entered. -/
  | relayTcp
  deriving DecidableEq, Repr

@[reducible] def ConnOp.Ret : ConnOp → Type
  | .lookupHost _ _ => Except IoError (List SocketAddr)
  | .tcpConnect _ => Except IoError Unit
  | .relay => RelayEnd

@[reducible] def ConnCall.Res : ConnCall → Type
  | .verify _ _ => Option String
  | .recordFailure _ => FailureVerdict
  | _ => Unit

@[reducible] def ConnSig : Sig where
  Op := ConnOp
  Ret := ConnOp.Ret
  Call := ConnCall
  Res := ConnCall.Res

/-! ## Why a connection ends -/

inductive CloseReason where
  | handshakeTimeout
  | handshakeIo (error : IoError)
  | protocol (error : ProtocolError)
  | noAcceptableAuthMethod
  | authFailed
  | commandNotSupported (command : Command)
  | addressTypeNotSupported (addressType : UInt8)
  | invalidDomain
  | deniedByPolicy (reason : DenyReason)
  | resolveFailed (error : IoError)
  | resolvedToNothing
  | connectFailed (error : IoError)
  | connectTimeout
  | completed
  | idleTimeout
  | clientError (error : IoError)
  | targetError (error : IoError)
  | shutdown
  deriving DecidableEq, Repr

namespace CloseReason

/-- `impl From<ProtocolError> for CloseReason` -/
def ofProtocolError : ProtocolError → CloseReason
  | .io error => .handshakeIo error
  | .unsupportedAddressType addressType => .addressTypeNotSupported addressType
  | .invalidDomain => .invalidDomain
  | error => .protocol error

/-- `impl From<RelayEnd> for CloseReason` -/
def ofRelayEnd : RelayEnd → CloseReason
  | .completed => .completed
  | .idleTimeout => .idleTimeout
  | .clientError error => .clientError error
  | .targetError error => .targetError error

end CloseReason

/-! ## The connector -/

/-- Upper bound of resolved addresses tried for one request. -/
def maxConnectAttempts : Nat := 8

structure ConnectedTarget where
  /-- The address actually connected to. -/
  addr : SocketAddr
  deriving DecidableEq, Repr

inductive ConnectError where
  | denied (reason : DenyReason)
  | resolve (error : IoError)
  | noAddresses
  | connect (error : IoError)
  deriving DecidableEq, Repr

namespace ConnectError

/-- SOCKS reply for the client. -/
def replyCode : ConnectError → ReplyCode
  | .denied _ => .notAllowed
  | .resolve _ => .hostUnreachable
  | .noAddresses => .hostUnreachable
  | .connect error =>
    match error.kind with
    | .connectionRefused => .connectionRefused
    | .networkUnreachable => .networkUnreachable
    | .hostUnreachable => .hostUnreachable
    | .timedOut => .hostUnreachable
    | _ => .generalFailure

/-- No error is answered with success. -/
theorem asByte_replyCode_ne (error : ConnectError) : error.replyCode.asByte ≠ 0x00 := by
  cases error with
  | denied reason => exact (show (0x02 : UInt8) ≠ 0x00 by decide)
  | resolve error => exact (show (0x04 : UInt8) ≠ 0x00 by decide)
  | noAddresses => decide
  | connect error =>
    simp only [replyCode]
    split <;> decide

theorem replyCode_ne_succeeded (error : ConnectError) : error.replyCode ≠ .succeeded :=
  fun h => error.asByte_replyCode_ne (congrArg ReplyCode.asByte h)

/-- `impl From<ConnectError> for CloseReason` -/
def toCloseReason : ConnectError → CloseReason
  | .denied reason => .deniedByPolicy reason
  | .resolve error => .resolveFailed error
  | .noAddresses => .resolvedToNothing
  | .connect error => .connectFailed error

end ConnectError

/-- The loop over the resolved addresses: what is allowed so far, and the first denial. -/
def sortOut (policy : DestinationPolicy) (acc : List SocketAddr × Option DenyReason)
    (addr : SocketAddr) : List SocketAddr × Option DenyReason :=
  let addr := canonicalAddr addr
  match policy.check addr with
  | .ok () => if acc.1.contains addr then acc else (acc.1 ++ [addr], acc.2)
  | .error reason => (acc.1, acc.2.or (some reason))

/-- The loop over the allowed addresses. -/
def tryConnect (lastError : Option IoError) :
    List SocketAddr → Task ConnSig (Except ConnectError ConnectedTarget)
  | [] => .done (.error (lastError.elim .noAddresses .connect))
  | addr :: rest =>
    (Task.awaitOp (S := ConnSig) (.tcpConnect addr)).bind fun
      | .ok () => .done (.ok { addr })
      | .error error => tryConnect (some error) rest

/-- From the resolved addresses on. -/
def connectToResolved (policy : DestinationPolicy) (resolved : List SocketAddr) :
    Task ConnSig (Except ConnectError ConnectedTarget) :=
  let (allowed, firstDenial) := resolved.foldl (sortOut policy) ([], none)
  if allowed.isEmpty then .done (.error (firstDenial.elim .noAddresses .denied))
  else tryConnect none (allowed.take maxConnectAttempts)

/-- `connect_to_target` -/
def connectToTarget (policy : DestinationPolicy) (target : TargetAddr) :
    Task ConnSig (Except ConnectError ConnectedTarget) :=
  (Task.callOp (S := ConnSig) (.connectToTarget target)).bind fun () =>
  match target with
  | .ip addr => connectToResolved policy [addr]
  | .domain host port =>
    (Task.awaitOp (S := ConnSig) (.lookupHost host port)).bind fun
      | .ok resolved => connectToResolved policy resolved
      | .error error => .done (.error (.resolve error))

end SocksServer
