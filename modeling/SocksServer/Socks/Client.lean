import SocksServer.Socks.Messages

/-!
# `socks/client.rs`

Client side of the protocol over an already established connection to the proxy. It asks for
nothing but its byte stream.
-/

namespace SocksServer

open Infra

/-- Failure of `client_handshake`. -/
inductive ClientError where
  | protocol (error : ProtocolError)
  | methodRejected (method : UInt8)
  | authRejected
  | requestRejected (code : ReplyCode)
  deriving DecidableEq, Repr

@[reducible] def ClientSig : Sig where
  Op := Empty
  Ret := Empty.elim
  Call := Empty
  Res := Empty.elim

abbrev ClientStep (α : Type) := ExceptT ClientError (Task ClientSig) α

/-- `stream.write_all(&message.encode()?).await?` -/
def clientWrite (encoded : Except ProtocolError Bytes) : ClientStep Unit :=
  match encoded with
  | .ok bytes => ExceptT.mk ((Task.writeAll bytes).bind fun
    | .ok () => .done (.ok ())
    | .error error => .done (.error (.protocol (.io error))))
  | .error error => throw (.protocol error)

/-- `Message::read_from(stream).await?` -/
def clientRead {α : Type} (reader : Reader ClientSig α) : ClientStep α :=
  ExceptT.mk (reader.run.bind fun
    | .ok message => .done (.ok message)
    | .error error => .done (.error (.protocol error)))

/-- Greeting, username/password authentication and `CONNECT`. -/
def clientHandshake (username password : String) (target : TargetAddr) : ClientStep Reply := do
  clientWrite (Greeting.encode { methods := [methodUserPass] })
  let selection ← clientRead MethodSelection.readFrom
  if selection.method ≠ methodUserPass then throw (.methodRejected selection.method)
  else
    clientWrite (UserPassRequest.encode
      { username := strBytes username, password := strBytes password })
    let response ← clientRead UserPassResponse.readFrom
    if !response.isSuccess then throw .authRejected
    else
      clientWrite (Request.encode { command := .connect, target })
      let reply ← clientRead Reply.readFrom
      if reply.code ≠ .succeeded then throw (.requestRejected reply.code)
      else return reply

end SocksServer
