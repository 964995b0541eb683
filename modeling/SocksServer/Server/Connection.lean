import SocksServer.Server.Connector

/-!
# `server/handshake.rs` and `server/connection.rs`

One client connection from the greeting to the relay. Every phase runs below a timeout, and
`serve_connection` below the cancellation of `force_close`; both can end a phase at any of
its await points (`Task.timeout`).

Log lines and socket options do not change what happens and are left out.
-/

namespace SocksServer

open Infra

/-- A phase of the handshake: it goes on, or it says why the connection must be closed. -/
abbrev Phase (α : Type) := ExceptT CloseReason (Task ConnSig) α

section Phases

/-- A message of the client; an error closes the connection. -/
def readMessage {α : Type} (reader : Reader ConnSig α) : Phase α :=
  ExceptT.mk (reader.run.bind fun
    | .ok message => .done (.ok message)
    | .error error => .done (.error (.ofProtocolError error)))

/-- `write_all`; an error closes the connection. -/
def writeMessage (bytes : Bytes) : Phase Unit :=
  ExceptT.mk ((Task.writeAll bytes).bind fun
    | .ok () => .done (.ok ())
    | .error error => .done (.error (.handshakeIo error)))

def Phase.ofTask {α : Type} (p : Task ConnSig α) : Phase α := ExceptT.mk (p.bind fun a => .done (.ok a))

def Phase.call (c : ConnCall) : Phase c.Res := Phase.ofTask (Task.callOp (S := ConnSig) c)

end Phases

/-! ## Handshake -/

/-- Best effort: the connection is closed right after an error reply. -/
def sendReply (code : ReplyCode) : Task ConnSig Unit :=
  (Task.writeAll (Reply.new code).encode).timeout.bind fun _ => .done ()

/-- "No authentication" is never accepted, whatever else the client offers. -/
def negotiateMethod : Phase Unit := do
  let greeting ← readMessage Greeting.readFrom
  if greeting.offers methodUserPass then
    writeMessage (MethodSelection.encode { method := methodUserPass })
  else
    let _ ← Phase.ofTask (Task.writeAll MethodSelection.noAcceptable.encode)
    throw .noAcceptableAuthMethod

def authenticate (peer : SocketAddr) : Phase Unit := do
  let credentials ← readMessage UserPassRequest.readFrom
  match ← Phase.call (.verify credentials.username credentials.password) with
  | some user =>
    Phase.call (.setUser user)
    writeMessage UserPassResponse.success.encode
  | none =>
    Phase.call .incrementAuthFailures
    let _ ← Phase.call (.recordFailure peer.ip)
    let _ ← Phase.ofTask (Task.writeAll UserPassResponse.failure.encode)
    throw .authFailed

/-- Only `CONNECT` is served; the client gets an answer to what is not supported. -/
def readConnectRequest : Phase TargetAddr := do
  match ← Phase.ofTask Request.readFrom.run with
  | .ok request =>
    if request.command = .connect then return request.target
    else
      Phase.ofTask (sendReply .commandNotSupported)
      throw (.commandNotSupported request.command)
  | .error (.unsupportedAddressType addressType) =>
    Phase.ofTask (sendReply .addressTypeNotSupported)
    throw (.addressTypeNotSupported addressType)
  | .error .invalidDomain =>
    Phase.ofTask (sendReply .generalFailure)
    throw .invalidDomain
  | .error error => throw (.ofProtocolError error)

/-- Greeting, authentication and request. -/
def handshake (peer : SocketAddr) : Phase TargetAddr := do
  negotiateMethod
  authenticate peer
  readConnectRequest

/-! ## Connection -/

/-- `relay_tcp` between the client and the connected target. -/
def relayTcp : Task ConnSig CloseReason :=
  (Task.callOp (S := ConnSig) .relayTcp).bind fun () =>
  (Task.awaitOp (S := ConnSig) .relay).bind fun result => .done (.ofRelayEnd result)

/-- From the connected target on: success reply and relay. -/
def serveTarget (addr : SocketAddr) : Task ConnSig CloseReason :=
  (Task.callOp (S := ConnSig) (.setTargetAddr addr)).bind fun () =>
  (Task.writeAll (Reply.new .succeeded).encode).timeout.bind fun
    | some (.ok ()) => relayTcp
    | some (.error error) => .done (.handshakeIo error)
    | none => .done .handshakeTimeout

/-- From the request on: connect, and tell the client when that fails. -/
def serveRequest (policy : DestinationPolicy) (target : TargetAddr) : Task ConnSig CloseReason :=
  (Task.callOp (S := ConnSig) (.setTarget target)).bind fun () =>
  (connectToTarget policy target).timeout.bind fun
    | some (.ok connected) => serveTarget connected.addr
    | some (.error error) => (sendReply error.replyCode).bind fun () => .done error.toCloseReason
    | none => (sendReply .hostUnreachable).bind fun () => .done .connectTimeout

def runConnection (policy : DestinationPolicy) (peer : SocketAddr) : Task ConnSig CloseReason :=
  (handshake peer).run.timeout.bind fun
    | some (.ok target) => serveRequest policy target
    | some (.error reason) => .done reason
    | none => .done .handshakeTimeout

/-- `run_connection`, unless `force_close` is cancelled. -/
def serveConnection (policy : DestinationPolicy) (peer : SocketAddr) : Task ConnSig CloseReason :=
  (runConnection policy peer).timeout.bind fun reason => .done (reason.getD .shutdown)

end SocksServer
