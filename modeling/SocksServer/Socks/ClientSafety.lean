import SocksServer.Infra.Wp
import SocksServer.Socks.Client
import SocksServer.Socks.Roundtrip

/-!
# The client against any proxy

`client_handshake` sends a password in clear text and then the name of the target. Whatever the
proxy answers, in whatever pieces, and wherever the stream breaks: neither is sent before the
proxy has asked for it.

* `SentInOrder` — what has been sent, with what must have been received before it
* `ClientEnds` — for each result, all that was received and sent
* `client_safe` — both hold in every run
-/

namespace SocksServer

open Infra

/-! ## The stream of a client -/

structure ClientWorld where
  received : Bytes
  sent : Bytes
  deriving DecidableEq, Repr

def clientWorld : World ClientSig ClientWorld where
  recv w c := { w with received := w.received ++ c }
  send w c := { w with sent := w.sent ++ c }
  recv_nil w := by simp
  recv_append w c d := by simp
  send_nil w := by simp
  send_append w c d := by simp
  await op := op.elim
  call c := c.elim

/-! ## What a client gives away -/

/-- What the client has to say after its greeting; either may be too long for the wire. -/
structure ClientSecrets where
  credentials : Except ProtocolError Bytes
  request : Except ProtocolError Bytes

def ClientSecrets.of (username password : String) (target : TargetAddr) : ClientSecrets where
  credentials := UserPassRequest.encode
    { username := strBytes username, password := strBytes password }
  request := Request.encode { command := .connect, target }

/--
Credentials go out only after the proxy has chosen username and password, the request only after
it has accepted them.
-/
def SentInOrder (secrets : ClientSecrets) (w : ClientWorld) : Prop :=
  w.sent <+: [0x05, 0x01, 0x02] ∨
    ∃ credentials, secrets.credentials = .ok credentials ∧ [0x05, 0x02] <+: w.received ∧
      (w.sent <+: [0x05, 0x01, 0x02] ++ credentials ∨
        ∃ request, secrets.request = .ok request ∧ [0x05, 0x02, 0x01, 0x00] <+: w.received ∧
          w.sent <+: [0x05, 0x01, 0x02] ++ credentials ++ request)

/-- The whole exchange, up to the last byte of the reply. -/
def Answered (secrets : ClientSecrets) (reply : Reply) (w : ClientWorld) : Prop :=
  ∃ credentials request bytes, secrets.credentials = .ok credentials ∧
    secrets.request = .ok request ∧
    w = ⟨[0x05, 0x02, 0x01, 0x00] ++ bytes, [0x05, 0x01, 0x02] ++ credentials ++ request⟩ ∧
    Accepts (S := ClientSig) Reply.readFrom bytes reply []

def ClientEnds (secrets : ClientSecrets) : Except ClientError Reply → ClientWorld → Prop
  | .ok reply, w => reply.code = .succeeded ∧ Answered secrets reply w
  | .error (.methodRejected method), w => method ≠ 0x02 ∧ w = ⟨[0x05, method], [0x05, 0x01, 0x02]⟩
  | .error .authRejected, w => ∃ credentials status, secrets.credentials = .ok credentials ∧
      status ≠ 0x00 ∧ w = ⟨[0x05, 0x02, 0x01, status], [0x05, 0x01, 0x02] ++ credentials⟩
  | .error (.requestRejected code), w => code ≠ .succeeded ∧
      ∃ bindAddr, Answered secrets ⟨code, bindAddr⟩ w
  | .error (.protocol _), w => SentInOrder secrets w

section Order

variable {secrets : ClientSecrets} {w w' : ClientWorld}

/-- What is in order stays so when less has been sent. -/
theorem SentInOrder.of_prefix (h : SentInOrder secrets w) (hsent : w'.sent <+: w.sent)
    (hreceived : w.received <+: w'.received) : SentInOrder secrets w' := by
  rcases h with h | ⟨credentials, hc, hmethod, h | ⟨request, hr, haccepted, h⟩⟩
  · exact .inl (hsent.trans h)
  · exact .inr ⟨credentials, hc, hmethod.trans hreceived, .inl (hsent.trans h)⟩
  · exact .inr ⟨credentials, hc, hmethod.trans hreceived,
      .inr ⟨request, hr, haccepted.trans hreceived, hsent.trans h⟩⟩

theorem SentInOrder.recv (h : SentInOrder secrets w) (c : Bytes) :
    SentInOrder secrets (clientWorld.recv w c) :=
  h.of_prefix List.prefix_rfl (List.prefix_append _ _)

theorem SentInOrder.send_part {bytes c : Bytes} (h : SentInOrder secrets (clientWorld.send w bytes))
    (hc : c <+: bytes) : SentInOrder secrets (clientWorld.send w c) :=
  h.of_prefix ((List.prefix_append_right_inj _).mpr hc) List.prefix_rfl

theorem Answered.sentInOrder {reply : Reply} (h : Answered secrets reply w) :
    SentInOrder secrets w := by
  obtain ⟨credentials, request, bytes, hc, hr, rfl, -⟩ := h
  have haccepted : [0x05, 0x02, 0x01, 0x00] <+: [0x05, 0x02, 0x01, 0x00] ++ bytes :=
    List.prefix_append _ _
  exact .inr ⟨credentials, hc, List.IsPrefix.trans ⟨[0x01, 0x00], rfl⟩ haccepted,
    .inr ⟨request, hr, haccepted, List.prefix_rfl⟩⟩

theorem ClientEnds.sentInOrder {r : Except ClientError Reply} (h : ClientEnds secrets r w) :
    SentInOrder secrets w := by
  cases r with
  | ok reply => exact h.2.sentInOrder
  | error error =>
    cases error with
    | protocol e => exact h
    | methodRejected method =>
      obtain ⟨-, rfl⟩ := h
      exact .inl List.prefix_rfl
    | authRejected =>
      obtain ⟨credentials, status, hc, -, rfl⟩ := h
      exact .inr ⟨credentials, hc, ⟨[0x01, status], rfl⟩, .inl List.prefix_rfl⟩
    | requestRejected code =>
      obtain ⟨-, bindAddr, hanswered⟩ := h
      exact hanswered.sentInOrder

end Order

/-! ## The steps of the handshake -/

section Steps

variable {secrets : ClientSecrets} {w : ClientWorld}

/-- The client keeps the order wherever it stands. -/
def ClientInv (secrets : ClientSecrets) (_ : Bool) (w : ClientWorld) : Prop :=
  SentInOrder secrets w

/-- What a step leaves when it fails. -/
def ClientFails (secrets : ClientSecrets) (error : ClientError) (w : ClientWorld) : Prop :=
  ClientEnds secrets (.error error) w

theorem wp_clientWrite {encoded : Except ProtocolError Bytes} {Qok : Unit → ClientWorld → Prop}
    (hw : SentInOrder secrets w) (h : ∀ bytes, encoded = .ok bytes →
      SentInOrder secrets (clientWorld.send w bytes) ∧ Qok () (clientWorld.send w bytes)) :
    (clientWrite encoded).run.wp clientWorld (ClientInv secrets)
      (Task.either Qok (ClientFails secrets)) w := by
  cases encoded with
  | error e => exact hw
  | ok bytes =>
    obtain ⟨hsent, hok⟩ := h bytes rfl
    refine Task.wp_bind (Task.wp_writeAll ?_ hok)
    intro c hc _
    exact ⟨hsent.send_part hc, fun _ => hsent.send_part hc⟩

theorem wp_clientRead {α : Type} {reader : Reader ClientSig α} (hon : HandsOnIo reader)
    {Qok : α → ClientWorld → Prop} (hw : SentInOrder secrets w)
    (h : ∀ c m, Accepts reader c m [] → Qok m (clientWorld.recv w c)) :
    (clientRead reader).run.wp clientWorld (ClientInv secrets)
      (Task.either Qok (ClientFails secrets)) w := by
  refine Task.wp_bind (Task.wp_reader hon (fun c => hw.recv c) ?_ (fun c _ => hw.recv c))
  intro c r hr
  cases r with
  | error e => exact hw.recv c
  | ok m =>
    refine h c m ?_
    have hdecode := Task.decode_of_feed [] hr
    rwa [List.append_nil] at hdecode

/-- An answer of two bytes. -/
theorem eq_of_accepts {α : Type} {reader : Reader ClientSig α} {encode : α → Bytes} {c : Bytes}
    {m : α} (hexact : CodecExact reader (fun m => .ok (encode m)) (fun _ => True) id fun _ => False)
    (h : Accepts reader c m []) : c = encode m := by
  obtain ⟨consumed, rfl, henc⟩ := hexact.canonical c m [] h
  rw [List.append_nil]
  exact (Except.ok.inj (henc not_false)).symm

theorem handsOn_methodSelection : HandsOnIo (MethodSelection.readFrom (S := ClientSig)) := by
  refine handsOn_readU8_bind ?_
  intro version
  split
  · exact handsOn_throw _
  · exact handsOn_readU8_bind fun method => handsOn_pure _

theorem handsOn_userPassResponse : HandsOnIo (UserPassResponse.readFrom (S := ClientSig)) := by
  refine handsOn_readU8_bind ?_
  intro version
  split
  · exact handsOn_throw _
  · exact handsOn_readU8_bind fun status => handsOn_pure _

theorem handsOn_reply : HandsOnIo (Reply.readFrom (S := ClientSig)) := by
  refine handsOn_readBytes_bind ?_
  intro header
  dsimp only
  split
  · exact handsOn_throw _
  · exact handsOn_readFrom_bind fun target => handsOn_pure _

end Steps

section Handshake

variable (username password : String) (target : TargetAddr)

/-- The last exchange, with a proxy that has accepted the credentials. -/
theorem wp_client_request {credentials : Bytes}
    (hc : (ClientSecrets.of username password target).credentials = .ok credentials) :
    (do
      clientWrite (Request.encode { command := .connect, target })
      let reply ← clientRead Reply.readFrom
      if reply.code ≠ .succeeded then throw (.requestRejected reply.code)
      else return reply : ClientStep Reply).run.wp clientWorld
        (ClientInv (.of username password target))
        (Task.either (fun reply w => ClientEnds (.of username password target) (.ok reply) w)
          (ClientFails (.of username password target)))
        ⟨[0x05, 0x02, 0x01, 0x00], [0x05, 0x01, 0x02] ++ credentials⟩ := by
  have haccepted : [0x05, 0x02] <+: ([0x05, 0x02, 0x01, 0x00] : Bytes) := ⟨[0x01, 0x00], rfl⟩
  refine Task.wp_except_bind (wp_clientWrite
    (.inr ⟨credentials, hc, haccepted, .inl List.prefix_rfl⟩) ?_)
  intro request hr
  have hall : SentInOrder (.of username password target)
      (clientWorld.send ⟨[0x05, 0x02, 0x01, 0x00], [0x05, 0x01, 0x02] ++ credentials⟩ request) :=
    .inr ⟨credentials, hc, haccepted, .inr ⟨request, hr, List.prefix_rfl, List.prefix_rfl⟩⟩
  refine ⟨hall, Task.wp_except_bind (wp_clientRead handsOn_reply hall ?_)⟩
  intro bytes reply hreply
  have hanswered : Answered (.of username password target) reply
      (clientWorld.recv (clientWorld.send
        ⟨[0x05, 0x02, 0x01, 0x00], [0x05, 0x01, 0x02] ++ credentials⟩ request) bytes) :=
    ⟨credentials, request, bytes, hc, hr, rfl, hreply⟩
  split
  · next hcode => exact ⟨hcode, reply.bindAddr, hanswered⟩
  · next hcode => exact ⟨not_not.mp hcode, hanswered⟩

/-- **The client and any proxy**, from the greeting to the end. -/
theorem wp_clientHandshake :
    (clientHandshake username password target).run.wp clientWorld
      (ClientInv (.of username password target))
      (ClientEnds (.of username password target)) ⟨[], []⟩ := by
  refine Task.wp_post ?_ (R := ClientEnds (.of username password target)) (Q := Task.either
    (fun reply w => ClientEnds (.of username password target) (.ok reply) w)
    (ClientFails (.of username password target))) ?_
  · intro r w h
    cases r with
    | ok reply => exact h
    | error error => exact h
  refine Task.wp_except_bind (wp_clientWrite (.inl List.nil_prefix) ?_)
  intro greeting hg
  obtain rfl : [0x05, 0x01, 0x02] = greeting := Except.ok.inj hg
  have hgreeting : SentInOrder (.of username password target) ⟨[], [0x05, 0x01, 0x02]⟩ :=
    .inl List.prefix_rfl
  refine ⟨hgreeting, Task.wp_except_bind (wp_clientRead handsOn_methodSelection hgreeting ?_)⟩
  intro c selection hselection
  obtain rfl := eq_of_accepts methodSelection_exact hselection
  split
  · next hmethod => exact ⟨hmethod, rfl⟩
  next hmethod =>
  have hmethod : selection.method = 0x02 := not_not.mp hmethod
  have hw : clientWorld.recv (clientWorld.send ⟨[], []⟩ [0x05, 0x01, 0x02]) selection.encode =
      ⟨[0x05, 0x02], [0x05, 0x01, 0x02]⟩ := by
    simp [clientWorld, MethodSelection.encode, hmethod, socksVersion]
  rw [hw]
  refine Task.wp_except_bind (wp_clientWrite (.inl List.prefix_rfl) ?_)
  intro credentials hc
  have hcredentials : SentInOrder (.of username password target)
      (clientWorld.send ⟨[0x05, 0x02], [0x05, 0x01, 0x02]⟩ credentials) :=
    .inr ⟨credentials, hc, List.prefix_rfl, .inl List.prefix_rfl⟩
  refine ⟨hcredentials, Task.wp_except_bind
    (wp_clientRead handsOn_userPassResponse hcredentials ?_)⟩
  intro c response hresponse
  obtain rfl := eq_of_accepts userPassResponse_exact hresponse
  split
  · next hstatus =>
    refine ⟨credentials, response.status, hc, ?_, rfl⟩
    intro hzero
    simp [UserPassResponse.isSuccess, hzero, authStatusSuccess] at hstatus
  next hstatus =>
  have hstatus : response.status = 0x00 := by
    simpa [UserPassResponse.isSuccess, authStatusSuccess] using hstatus
  have hw : clientWorld.recv (clientWorld.send ⟨[0x05, 0x02], [0x05, 0x01, 0x02]⟩ credentials)
      response.encode = ⟨[0x05, 0x02, 0x01, 0x00], [0x05, 0x01, 0x02] ++ credentials⟩ := by
    simp [clientWorld, UserPassResponse.encode, hstatus, authVersion]
  rw [hw]
  exact wp_client_request username password target hc

end Handshake

/-! ## Every run -/

/--
**The client is safe with any proxy.** Whatever bytes arrive, in whatever pieces and wherever
the stream breaks: a part of the credentials has been sent only if the proxy has chosen
username and password, a part of the request only if it has also accepted them. A finished
handshake has read all of the answers its result is about, and not a byte behind them.
-/
theorem client_safe (username password : String) (target : TargetAddr)
    (events : List (Task.Event ClientSig)) (task : Task ClientSig (Except ClientError Reply))
    (w : ClientWorld) (h : run clientWorld.step
      ((clientHandshake username password target).run, ⟨[], []⟩) events = some (task, w)) :
    SentInOrder (.of username password target) w ∧
      ∀ r, task = .done r → ClientEnds (.of username password target) r w := by
  have hwp := Task.wp_sound (wp_clientHandshake username password target) h
  refine ⟨?_, ?_⟩
  · rcases Task.wp_invariant hwp with ⟨r, -, hends⟩ | hinv
    · exact hends.sentInOrder
    · exact hinv
  · rintro r rfl
    exact hwp

/-- A proxy that wants no password does not get one. -/
theorem client_safe_no_authentication :
    ∃ task w, run clientWorld.step
        ((clientHandshake "alice" "secret" (.domain "example.com" 443)).run, ⟨[], []⟩)
        [.sent [5], .sent [1, 2], .received [5], .received [0]] = some (task, w) ∧
      w = ⟨[5, 0], [5, 1, 2]⟩ ∧
      SentInOrder (.of "alice" "secret" (.domain "example.com" 443)) w := by
  have hw : (run clientWorld.step
      ((clientHandshake "alice" "secret" (.domain "example.com" 443)).run, ⟨[], []⟩)
      [.sent [5], .sent [1, 2], .received [5], .received [0]]).map Prod.snd =
        some ⟨[5, 0], [5, 1, 2]⟩ := by
    decide +kernel
  obtain ⟨⟨task, w⟩, hrun, hw⟩ := Option.map_eq_some_iff.mp hw
  exact ⟨task, w, hrun, hw, (client_safe _ _ _ _ task w hrun).1⟩

end SocksServer
