import SocksServer.Auth.UserStore
import SocksServer.Infra.Wp
import SocksServer.Server.Shapes

/-!
# What a connection does

`serve_connection` from its first read to whichever of its exits is taken: what it has read,
told its client, done and reported, wherever it waits and for whatever reason it ends. This is
the one place where the code of a connection is followed; what is said of connections elsewhere
is read off here, state by state.

* `ConnWorld` — what has been read and written, and a log of what the task did
* `ConnAt` — the states of a connection, one constructor for each
* `CloseReason.stages`, `CloseReason.answer` — how far a connection has come when it ends for a
  reason, and what its client is told
* `ConnEnds` — the ends of a connection
* `wp_*` — each function, from the state it starts in to those it leaves
-/

namespace SocksServer

open Infra

/-! ## The world of a connection -/

/-- What is known about a connection. The relay counters are part of the relay. -/
structure ConnectionReport where
  user : Option String
  /-- Target as requested by the client. -/
  target : Option TargetAddr
  /-- Address actually connected to. -/
  targetAddr : Option SocketAddr
  deriving DecidableEq, Repr

/-- `ConnectionReport::default()` -/
def ConnectionReport.empty : ConnectionReport := ⟨none, none, none⟩

/-- What a connection task did, with what it had read or written by then. -/
inductive ConnLog where
  | verified (username password : Bytes) (result : Option String)
  | authFailure
  | failureRecorded (ip : IpAddr)
  | connectToTarget (target : TargetAddr) (consumed : Bytes)
  | connected (addr : SocketAddr)
  | relayStarted (written : Bytes)
  | relayEnded (result : RelayEnd)
  deriving DecidableEq, Repr

structure ConnWorld where
  /-- What was read from the client. -/
  consumed : Bytes
  /-- What was written to the client before the relay. -/
  written : Bytes
  log : List ConnLog
  report : ConnectionReport
  deriving DecidableEq, Repr

namespace ConnWorld

def new : ConnWorld := ⟨[], [], [], .empty⟩

def recv (w : ConnWorld) (c : Bytes) : ConnWorld := { w with consumed := w.consumed ++ c }

def send (w : ConnWorld) (c : Bytes) : ConnWorld := { w with written := w.written ++ c }

def record (w : ConnWorld) (entry : ConnLog) : ConnWorld := { w with log := w.log ++ [entry] }

/-- Only a connect that succeeds is worth a log entry, and the end of the relay. -/
def await (op : ConnOp) (r : op.Ret) (w : ConnWorld) : Option ConnWorld :=
  match op, r with
  | .lookupHost _ _, _ => some w
  | .tcpConnect addr, .ok () => some (w.record (.connected addr))
  | .tcpConnect _, .error _ => some w
  | .relay, result => some (w.record (.relayEnded result))

/-- The user store answers as it does; the ban list may answer anything. -/
def call (users : UserStore) (c : ConnCall) (r : c.Res) (w : ConnWorld) : Option ConnWorld :=
  match c, r with
  | .verify username password, r =>
    if users.verify username password = r then some (w.record (.verified username password r))
    else none
  | .incrementAuthFailures, _ => some (w.record .authFailure)
  | .recordFailure ip, _ => some (w.record (.failureRecorded ip))
  | .setUser user, _ => some { w with report := { w.report with user := some user } }
  | .setTarget target, _ => some { w with report := { w.report with target := some target } }
  | .connectToTarget target, _ => some (w.record (.connectToTarget target w.consumed))
  | .setTargetAddr addr, _ => some { w with report := { w.report with targetAddr := some addr } }
  | .relayTcp, _ => some (w.record (.relayStarted w.written))

end ConnWorld

def connWorld (users : UserStore) : World ConnSig ConnWorld where
  recv := ConnWorld.recv
  send := ConnWorld.send
  recv_nil w := by simp [ConnWorld.recv]
  recv_append w c d := by simp [ConnWorld.recv]
  send_nil w := by simp [ConnWorld.send]
  send_append w c d := by simp [ConnWorld.send]
  await := ConnWorld.await
  call := ConnWorld.call users

/-! ## States -/

/-- A greeting, credentials and a `CONNECT` request for `target`, each complete. -/
def RequestRead (consumed : Bytes) (target : TargetAddr) : Prop :=
  ∃ greetingBytes greeting credentialBytes credentials requestBytes,
    consumed = greetingBytes ++ credentialBytes ++ requestBytes ∧
    Accepts (S := ConnSig) Greeting.readFrom greetingBytes greeting [] ∧
    Accepts (S := ConnSig) UserPassRequest.readFrom credentialBytes credentials [] ∧
    Accepts (S := ConnSig) Request.readFrom requestBytes ⟨.connect, target⟩ []

/-- The ten bytes of a reply. -/
def replyBytes (c : UInt8) : Bytes := [0x05, c, 0x00, 0x01, 0, 0, 0, 0, 0, 0]

/--
The states of a connection from `peer`. It waits in those that are `settled`; in the others it is
about to make a call.
-/
inductive ConnAt (peer : SocketAddr) : Bool → ConnWorld → Prop
  /-- Up to the credentials: at most the selected method has been written. -/
  | unknown (settled : Bool) {consumed written : Bytes} :
    written <+: [0x05, 0x02] ∨ written <+: [0x05, 0xFF] →
    ConnAt peer settled ⟨consumed, written, [], .empty⟩
  /-- The check has failed, and nobody knows yet. -/
  | failed (consumed username password : Bytes) :
    ConnAt peer false ⟨consumed, [0x05, 0x02], [.verified username password none], .empty⟩
  /-- The failure is counted. -/
  | counted (consumed username password : Bytes) :
    ConnAt peer false
      ⟨consumed, [0x05, 0x02], [.verified username password none, .authFailure], .empty⟩
  /-- The ban list knows of it, and the client is told. -/
  | refused (settled : Bool) {consumed written username password : Bytes} :
    written <+: [0x05, 0x02, 0x01, 0x01] →
    ConnAt peer settled ⟨consumed, written,
      [.verified username password none, .authFailure, .failureRecorded peer.ip], .empty⟩
  /-- The check has succeeded, and the report does not say so yet. -/
  | verified (consumed username password : Bytes) (user : String) :
    ConnAt peer false
      ⟨consumed, [0x05, 0x02], [.verified username password (some user)], .empty⟩
  /-- Up to the request, or the reply that refuses it. -/
  | known (settled : Bool) {consumed written username password : Bytes} {user : String}
    {c : UInt8} : c ≠ 0x00 → written <+: [0x05, 0x02, 0x01, 0x00] ++ replyBytes c →
    ConnAt peer settled ⟨consumed, written, [.verified username password (some user)],
      ⟨some user, none, none⟩⟩
  /-- The request is read, and the report says so. -/
  | requested {consumed username password : Bytes} {user : String} {target : TargetAddr} :
    RequestRead consumed target →
    ConnAt peer false ⟨consumed, [0x05, 0x02, 0x01, 0x00],
      [.verified username password (some user)], ⟨some user, some target, none⟩⟩
  /-- The connector is at work, or has failed and the client is told. -/
  | connecting (settled : Bool) {consumed written username password : Bytes} {user : String}
    {target : TargetAddr} {c : UInt8} : RequestRead consumed target → c ≠ 0x00 →
    written <+: [0x05, 0x02, 0x01, 0x00] ++ replyBytes c →
    ConnAt peer settled ⟨consumed, written,
      [.verified username password (some user), .connectToTarget target consumed],
      ⟨some user, some target, none⟩⟩
  /-- The target has answered, and the report does not say so yet. -/
  | connected {consumed username password : Bytes} {user : String} {target : TargetAddr}
    (addr : SocketAddr) : RequestRead consumed target →
    ConnAt peer false ⟨consumed, [0x05, 0x02, 0x01, 0x00],
      [.verified username password (some user), .connectToTarget target consumed,
        .connected addr], ⟨some user, some target, none⟩⟩
  /-- The success reply goes out. -/
  | serving (settled : Bool) {consumed written username password : Bytes} {user : String}
    {target : TargetAddr} (addr : SocketAddr) : RequestRead consumed target →
    written <+: [0x05, 0x02, 0x01, 0x00] ++ replyBytes 0x00 →
    ConnAt peer settled ⟨consumed, written,
      [.verified username password (some user), .connectToTarget target consumed,
        .connected addr], ⟨some user, some target, some addr⟩⟩
  | relaying {consumed username password : Bytes} {user : String} {target : TargetAddr}
    (addr : SocketAddr) : RequestRead consumed target →
    ConnAt peer true ⟨consumed, [0x05, 0x02, 0x01, 0x00] ++ replyBytes 0x00,
      [.verified username password (some user), .connectToTarget target consumed,
        .connected addr, .relayStarted ([0x05, 0x02, 0x01, 0x00] ++ replyBytes 0x00)],
      ⟨some user, some target, some addr⟩⟩

/-! ## Ends -/

/-- How far a connection has come. -/
inductive Stage where
  /-- Nothing is known about the client. -/
  | anonymous
  /-- The user is known. -/
  | known
  /-- So is the target. -/
  | requested
  /-- The target is connected. -/
  | connected
  /-- The relay has started. -/
  | relaying
  deriving DecidableEq, Repr

/-- Which of `user`, `target` and `target_addr` are in the report. -/
def Stage.fields : Stage → Bool × Bool × Bool
  | .anonymous => (false, false, false)
  | .known => (true, false, false)
  | .requested => (true, true, false)
  | .connected => (true, true, true)
  | .relaying => (true, true, true)

namespace CloseReason

/-- How far a connection can have come when it ends for a reason. -/
def stages : CloseReason → List Stage
  | .noAcceptableAuthMethod => [.anonymous]
  | .authFailed => [.anonymous]
  -- a wrong version is noticed in the greeting or in the request
  | .protocol (.unsupportedVersion _) => [.anonymous, .known]
  | .protocol .noMethods => [.anonymous]
  | .protocol (.unsupportedAuthVersion _) => [.anonymous]
  | .protocol _ => []
  | .commandNotSupported _ => [.known]
  | .addressTypeNotSupported _ => [.known]
  | .invalidDomain => [.known]
  | .deniedByPolicy _ => [.requested]
  | .resolveFailed _ => [.requested]
  | .resolvedToNothing => [.requested]
  | .connectFailed _ => [.requested]
  | .connectTimeout => [.requested]
  -- the success reply has a limit of its own, and is part of the handshake
  | .handshakeTimeout => [.anonymous, .known, .connected]
  | .handshakeIo _ => [.anonymous, .known, .connected]
  | .completed => [.relaying]
  | .idleTimeout => [.relaying]
  | .clientError _ => [.relaying]
  | .targetError _ => [.relaying]
  | .shutdown => [.anonymous, .known, .requested, .connected, .relaying]

/-- The last answer a client gets, if the reason settles that. -/
def answer : CloseReason → Option Bytes
  | .noAcceptableAuthMethod => some [0x05, 0xFF]
  | .authFailed => some [0x05, 0x02, 0x01, 0x01]
  | .commandNotSupported _ => some ([0x05, 0x02, 0x01, 0x00] ++ replyBytes 0x07)
  | .addressTypeNotSupported _ => some ([0x05, 0x02, 0x01, 0x00] ++ replyBytes 0x08)
  | .invalidDomain => some ([0x05, 0x02, 0x01, 0x00] ++ replyBytes 0x01)
  | .deniedByPolicy _ => some ([0x05, 0x02, 0x01, 0x00] ++ replyBytes 0x02)
  | .resolveFailed _ => some ([0x05, 0x02, 0x01, 0x00] ++ replyBytes 0x04)
  | .resolvedToNothing => some ([0x05, 0x02, 0x01, 0x00] ++ replyBytes 0x04)
  | .connectFailed error => some ([0x05, 0x02, 0x01, 0x00] ++
      replyBytes (ConnectError.connect error).replyCode.asByte)
  | .connectTimeout => some ([0x05, 0x02, 0x01, 0x00] ++ replyBytes 0x04)
  | .completed => some ([0x05, 0x02, 0x01, 0x00] ++ replyBytes 0x00)
  | .idleTimeout => some ([0x05, 0x02, 0x01, 0x00] ++ replyBytes 0x00)
  | .clientError _ => some ([0x05, 0x02, 0x01, 0x00] ++ replyBytes 0x00)
  | .targetError _ => some ([0x05, 0x02, 0x01, 0x00] ++ replyBytes 0x00)
  | _ => none

/-- What the relay has to say for this reason. -/
def relayEnd? : CloseReason → Option RelayEnd
  | .completed => some .completed
  | .idleTimeout => some .idleTimeout
  | .clientError error => some (.clientError error)
  | .targetError error => some (.targetError error)
  | _ => none

@[simp] theorem relayEnd?_ofRelayEnd (result : RelayEnd) :
    (ofRelayEnd result).relayEnd? = some result := by cases result <;> rfl

/-- What the relay ends with is said after the success reply. -/
theorem table_ofRelayEnd (result : RelayEnd) :
    (ofRelayEnd result).stages = [.relaying] ∧
      (ofRelayEnd result).answer = some ([0x05, 0x02, 0x01, 0x00] ++ replyBytes 0x00) := by
  cases result <;> exact ⟨rfl, rfl⟩

/-- An error of the connector is answered with its own code. -/
theorem table_toCloseReason (error : ConnectError) :
    error.toCloseReason.stages = [.requested] ∧ error.toCloseReason.relayEnd? = none ∧
      error.toCloseReason.answer =
        some ([0x05, 0x02, 0x01, 0x00] ++ replyBytes error.replyCode.asByte) := by
  cases error <;> exact ⟨rfl, rfl, rfl⟩

end CloseReason

namespace ConnWorld

/-- The relay has started. -/
def relays (w : ConnWorld) : Bool :=
  w.log.any fun
    | .relayStarted _ => true
    | _ => false

/-- The connection has come as far as `stage`. -/
def At (w : ConnWorld) (stage : Stage) : Prop :=
  (w.report.user.isSome, w.report.target.isSome, w.report.targetAddr.isSome) = stage.fields ∧
    w.relays = decide (stage = .relaying)

end ConnWorld

/-- How a connection from `peer` ends. -/
inductive ConnEnds (peer : SocketAddr) : CloseReason → ConnWorld → Prop
  /--
  Where it waits, for a reason of that stage and with a part of the answer that belongs to it.
  -/
  | cut {reason : CloseReason} {w : ConnWorld} {stage : Stage} : ConnAt peer true w →
    w.At stage → stage ∈ reason.stages → reason.relayEnd? = none →
    (∀ answer, reason.answer = some answer → w.written <+: answer) → ConnEnds peer reason w
  /-- With the relay. -/
  | relayed {consumed username password : Bytes} {user : String} {target : TargetAddr}
    (addr : SocketAddr) (result : RelayEnd) : RequestRead consumed target →
    ConnEnds peer (.ofRelayEnd result) ⟨consumed, [0x05, 0x02, 0x01, 0x00] ++ replyBytes 0x00,
      [.verified username password (some user), .connectToTarget target consumed,
        .connected addr, .relayStarted ([0x05, 0x02, 0x01, 0x00] ++ replyBytes 0x00),
        .relayEnded result], ⟨some user, some target, some addr⟩⟩

section Ends

variable {peer : SocketAddr} {w : ConnWorld} {reason : CloseReason}

/-- An end that does not settle an answer. -/
theorem ConnAt.endsSilently (h : ConnAt peer true w) (stage : Stage) (hat : w.At stage)
    (hstage : stage ∈ reason.stages) (hrelay : reason.relayEnd? = none)
    (hanswer : reason.answer = none) : ConnEnds peer reason w :=
  .cut h hat hstage hrelay (by simp [hanswer])

/-- An end whose answer has been given in part. -/
theorem ConnAt.endsWith {answer : Bytes} (h : ConnAt peer true w) (stage : Stage)
    (hat : w.At stage) (hstage : stage ∈ reason.stages) (hrelay : reason.relayEnd? = none)
    (hanswer : reason.answer = some answer) (hwritten : w.written <+: answer) :
    ConnEnds peer reason w := by
  refine .cut h hat hstage hrelay ?_
  intro answer' h'
  rw [hanswer] at h'
  rwa [← Option.some.inj h']

/-- Wherever a connection waits, its report is that of a stage. -/
theorem ConnAt.exists_stage (h : ConnAt peer true w) : ∃ stage, w.At stage := by
  cases h with
  | unknown => exact ⟨.anonymous, rfl, rfl⟩
  | refused => exact ⟨.anonymous, rfl, rfl⟩
  | known => exact ⟨.known, rfl, rfl⟩
  | connecting => exact ⟨.requested, rfl, rfl⟩
  | serving => exact ⟨.connected, rfl, rfl⟩
  | relaying => exact ⟨.relaying, rfl, rfl⟩

/-- `force_close` can end a connection wherever it waits. -/
theorem ConnAt.shutdown (h : ConnAt peer true w) : ConnEnds peer .shutdown w := by
  obtain ⟨stage, hat⟩ := h.exists_stage
  exact h.endsSilently stage hat (by cases stage <;> decide) rfl rfl

end Ends

/-! ## Rules -/

section Rules

variable {users : UserStore} {w : ConnWorld} {I : Bool → ConnWorld → Prop}

/-- A reader takes a message, or ends with an error of its kind. -/
theorem wp_read {α : Type} {E : ProtocolError → Prop} {M : α → Prop} {reader : Reader ConnSig α}
    {Q : Except ProtocolError α → ConnWorld → Prop} (hon : HandsOnIo reader)
    (hreads : Reads E M reader) (hio : ∀ e, E (.io e)) (hI : ∀ c, I true (w.recv c))
    (hok : ∀ c m, Accepts reader c m [] → Q (.ok m) (w.recv c))
    (herr : ∀ c e, E e → Q (.error e) (w.recv c)) :
    reader.run.wp (connWorld users) I Q w := by
  refine Task.wp_reader hon hI ?_ fun c e => herr c _ (hio e)
  intro c r hr
  cases r with
  | error e => exact herr c e (hreads.feed hr)
  | ok m =>
    have hdecode := Task.decode_of_feed [] hr
    rw [List.append_nil] at hdecode
    exact hok c m hdecode

/-- `?` on a message. -/
theorem wp_readMessage {α : Type} {E : ProtocolError → Prop} {M : α → Prop}
    {reader : Reader ConnSig α} {Qok : α → ConnWorld → Prop} {Qerr : CloseReason → ConnWorld → Prop}
    (hon : HandsOnIo reader) (hreads : Reads E M reader) (hio : ∀ e, E (.io e))
    (hI : ∀ c, I true (w.recv c)) (hok : ∀ c m, Accepts reader c m [] → Qok m (w.recv c))
    (herr : ∀ c e, E e → Qerr (.ofProtocolError e) (w.recv c)) :
    (readMessage reader).run.wp (connWorld users) I (Task.either Qok Qerr) w :=
  Task.wp_bind (wp_read hon hreads hio hI hok herr)

/-- A write of which any part may get out. -/
theorem wp_write {bs : Bytes} {Q : Except IoError Unit → ConnWorld → Prop}
    (hI : ∀ c, c <+: bs → I true (w.send c)) (hok : Q (.ok ()) (w.send bs))
    (herr : ∀ c e, c <+: bs → Q (.error e) (w.send c)) :
    (Task.writeAll bs : Task ConnSig _).wp (connWorld users) I Q w :=
  Task.wp_writeAll (fun c hc _ => ⟨hI c hc, fun e => herr c e hc⟩) hok

/-- The last answer: all that is known is that it got out in part. -/
theorem wp_lastWord {bs : Bytes} {Q : Except IoError Unit → ConnWorld → Prop}
    (hI : ∀ c, c <+: bs → I true (w.send c)) (hQ : ∀ c r, c <+: bs → Q r (w.send c)) :
    (Task.writeAll bs : Task ConnSig _).wp (connWorld users) I Q w :=
  wp_write hI (hQ _ _ List.prefix_rfl) fun c _ hc => hQ c _ hc

theorem encode_reply (code : ReplyCode) : (Reply.new code).encode = replyBytes code.asByte := by
  have hbind : Ipv4Addr.unspecified.octets ++
      portBytes (SocketAddr.v4 Ipv4Addr.unspecified 0).port = [0, 0, 0, 0, 0, 0] := by decide
  simp [Reply.encode, Reply.new, pushSocketAddr, SocketAddr.new, replyBytes, socksVersion,
    atypIpv4, hbind]

/-- A reply, below its own timeout. -/
theorem wp_sendReply {code : ReplyCode} {Q : Unit → ConnWorld → Prop}
    (hI : ∀ c, c <+: replyBytes code.asByte → I true (w.send c))
    (hQ : ∀ c, c <+: replyBytes code.asByte → Q () (w.send c)) :
    (sendReply code).wp (connWorld users) I Q w := by
  unfold sendReply
  rw [encode_reply]
  refine Task.wp_bind (Task.wp_timeout ?_)
  exact wp_lastWord (fun c hc => ⟨hI c hc, fun _ => hQ c hc⟩) fun c _ hc => hQ c hc

/-- A call in a phase of the handshake. -/
theorem wp_call {c : ConnCall} {Qok : c.Res → ConnWorld → Prop}
    {Qerr : CloseReason → ConnWorld → Prop} (hI : I false w)
    (h : ∀ r w', ConnWorld.call users c r w = some w' → Qok r w') :
    (Phase.call c).run.wp (connWorld users) I (Task.either Qok Qerr) w :=
  Task.wp_bind (Task.wp_callOp (S := ConnSig) hI h)

end Rules

/-! ## Phases -/

/-- The client is asked for its password. -/
inductive MethodAgreed : ConnWorld → Prop
  | intro {consumed : Bytes} {greeting : Greeting} :
    Accepts (S := ConnSig) Greeting.readFrom consumed greeting [] →
    MethodAgreed ⟨consumed, [0x05, 0x02], [], .empty⟩

/-- The client is told that its password is right. -/
inductive Authenticated : ConnWorld → Prop
  | intro {greetingBytes credentialBytes : Bytes} {greeting : Greeting}
    {credentials : UserPassRequest} {user : String} :
    Accepts (S := ConnSig) Greeting.readFrom greetingBytes greeting [] →
    Accepts (S := ConnSig) UserPassRequest.readFrom credentialBytes credentials [] →
    Authenticated ⟨greetingBytes ++ credentialBytes, [0x05, 0x02, 0x01, 0x00],
      [.verified credentials.username credentials.password (some user)], ⟨some user, none, none⟩⟩

/-- The handshake has returned `target`. -/
inductive Requested (target : TargetAddr) : ConnWorld → Prop
  | intro {consumed username password : Bytes} {user : String} : RequestRead consumed target →
    Requested target ⟨consumed, [0x05, 0x02, 0x01, 0x00],
      [.verified username password (some user)], ⟨some user, none, none⟩⟩

/-- The connector has been asked for `target`. -/
inductive Connecting (target : TargetAddr) : ConnWorld → Prop
  | intro {consumed username password : Bytes} {user : String} : RequestRead consumed target →
    Connecting target ⟨consumed, [0x05, 0x02, 0x01, 0x00],
      [.verified username password (some user), .connectToTarget target consumed],
      ⟨some user, some target, none⟩⟩

/-- The connector has returned a stream to `addr`. -/
inductive Connected (target : TargetAddr) (addr : SocketAddr) : ConnWorld → Prop
  | intro {consumed username password : Bytes} {user : String} : RequestRead consumed target →
    Connected target addr ⟨consumed, [0x05, 0x02, 0x01, 0x00],
      [.verified username password (some user), .connectToTarget target consumed,
        .connected addr], ⟨some user, some target, none⟩⟩

section Phases

variable {users : UserStore} {peer : SocketAddr} {w : ConnWorld} {target : TargetAddr}
variable {addr : SocketAddr}

/-- A reply that has not been sent is a part of any. -/
theorem prefix_succeeded (c : UInt8) :
    [0x05, 0x02, 0x01, 0x00] <+: [0x05, 0x02, 0x01, 0x00] ++ replyBytes c := List.prefix_append _ _

theorem Connecting.connAt (h : Connecting target w) : ConnAt peer true w := by
  cases h with
  | intro hread => exact .connecting (c := 0x01) true hread (by decide) (prefix_succeeded _)

/-- In the handshake: the target is not in the report. -/
def HandshakeAt (peer : SocketAddr) (settled : Bool) (w : ConnWorld) : Prop :=
  ConnAt peer settled w ∧ w.report.target = none

/-- The handshake can run into its limit wherever it waits. -/
theorem HandshakeAt.timeout (h : HandshakeAt peer true w) :
    ConnEnds peer .handshakeTimeout w := by
  obtain ⟨stage, hat⟩ := h.1.exists_stage
  refine h.1.endsSilently stage hat ?_ rfl rfl
  have hfields : false = stage.fields.2.1 := by
    rw [← hat.1, h.2]
    rfl
  cases stage with
  | anonymous | known => decide
  | requested | connected | relaying => cases hfields

/-- The errors of a reader before the request. -/
theorem connEnds_unknown {consumed written : Bytes} {e : ProtocolError}
    (hwritten : written <+: [0x05, 0x02] ∨ written <+: [0x05, 0xFF])
    (he : GreetingError e ∨ UserPassError e) :
    ConnEnds peer (.ofProtocolError e) ⟨consumed, written, [], .empty⟩ := by
  have hends : ∀ reason : CloseReason, .anonymous ∈ reason.stages → reason.relayEnd? = none →
      reason.answer = none → ConnEnds peer reason ⟨consumed, written, [], .empty⟩ :=
    fun reason => (ConnAt.unknown true hwritten).endsSilently .anonymous ⟨rfl, rfl⟩
  cases e with
  | io error => exact hends (.handshakeIo error) List.mem_cons_self rfl rfl
  | unsupportedVersion version =>
    exact hends (.protocol (.unsupportedVersion version)) List.mem_cons_self rfl rfl
  | noMethods => exact hends (.protocol .noMethods) List.mem_cons_self rfl rfl
  | unsupportedAuthVersion version =>
    exact hends (.protocol (.unsupportedAuthVersion version)) List.mem_cons_self rfl rfl
  | unsupportedAddressType addressType => exact (he.elim id id).elim
  | invalidDomain => exact (he.elim id id).elim
  | fieldTooLong => exact (he.elim id id).elim

variable (peer) in
theorem wp_negotiateMethod :
    negotiateMethod.run.wp (connWorld users) (HandshakeAt peer)
      (Task.either (fun _ => MethodAgreed) (ConnEnds peer)) .new := by
  refine Task.wp_except_bind (wp_readMessage handsOn_greeting reads_greeting (fun _ => trivial) ?_
    ?_ fun c e he => connEnds_unknown (.inl List.nil_prefix) (.inl he))
  · exact fun c => ⟨.unknown true (.inl List.nil_prefix), rfl⟩
  · intro c greeting hgreeting
    split
    · refine Task.wp_bind
        (wp_write (fun d hd => ⟨.unknown true (.inl hd), rfl⟩) (.intro hgreeting) ?_)
      intro d e hd
      exact (ConnAt.unknown true (.inl hd)).endsSilently .anonymous ⟨rfl, rfl⟩
        List.mem_cons_self rfl rfl
    · refine Task.wp_except_bind (Task.wp_bind (wp_lastWord
        (fun d hd => ⟨.unknown true (.inr hd), rfl⟩) ?_))
      intro d r hd
      exact (ConnAt.unknown true (.inr hd)).endsWith .anonymous ⟨rfl, rfl⟩
        List.mem_cons_self rfl rfl hd

/-- **Authentication**: a failed check is counted and recorded before anything else. -/
theorem wp_authenticate (hw : MethodAgreed w) :
    (authenticate peer).run.wp (connWorld users) (HandshakeAt peer)
      (Task.either (fun _ => Authenticated) (ConnEnds peer)) w := by
  obtain @⟨greetingBytes, greeting, hgreeting⟩ := hw
  refine Task.wp_except_bind (wp_readMessage handsOn_userPassRequest reads_userPassRequest
    (fun _ => trivial) ?_ ?_ fun c e he => connEnds_unknown (.inl List.prefix_rfl) (.inr he))
  · exact fun c => ⟨.unknown true (.inl List.prefix_rfl), rfl⟩
  · intro c credentials hcredentials
    refine Task.wp_except_bind (wp_call ⟨.unknown false (.inl List.prefix_rfl), rfl⟩ ?_)
    intro result w' hcall
    simp only [ConnWorld.call] at hcall
    split at hcall
    case isFalse => cases hcall
    obtain rfl := Option.some.inj hcall
    cases result with
    | some user =>
      refine Task.wp_except_bind (wp_call ⟨.verified _ _ _ user, rfl⟩ ?_)
      intro _ w' hcall
      obtain rfl := Option.some.inj hcall
      -- a part of the answer that says success
      have hknown : ∀ d, d <+: [0x01, 0x00] → ConnAt peer true
          ⟨greetingBytes ++ c, [0x05, 0x02] ++ d,
            [.verified credentials.username credentials.password (some user)],
            ⟨some user, none, none⟩⟩ :=
        fun d hd => .known (c := 0x01) true (by decide)
          (((List.prefix_append_right_inj [0x05, 0x02]).mpr hd).trans (prefix_succeeded _))
      refine Task.wp_bind
        (wp_write (fun d hd => ⟨hknown d hd, rfl⟩) (.intro hgreeting hcredentials) ?_)
      intro d e hd
      exact (hknown d hd).endsSilently .known ⟨rfl, rfl⟩
        (List.mem_cons_of_mem _ List.mem_cons_self) rfl rfl
    | none =>
      refine Task.wp_except_bind (wp_call ⟨.failed _ _ _, rfl⟩ ?_)
      intro _ w' hcall
      obtain rfl := Option.some.inj hcall
      refine Task.wp_except_bind (wp_call ⟨.counted _ _ _, rfl⟩ ?_)
      intro _ w' hcall
      obtain rfl := Option.some.inj hcall
      have hrefused : ∀ d : Bytes, d <+: [0x01, 0x01] →
          [0x05, 0x02] ++ d <+: [0x05, 0x02, 0x01, 0x01] :=
        fun d hd => (List.prefix_append_right_inj [0x05, 0x02]).mpr hd
      refine Task.wp_except_bind (Task.wp_bind (wp_lastWord
        (fun d hd => ⟨.refused true (hrefused d hd), rfl⟩) ?_))
      intro d r hd
      exact (ConnAt.refused true (hrefused d hd)).endsWith .anonymous ⟨rfl, rfl⟩
        List.mem_cons_self rfl rfl (hrefused d hd)

/-- A request that is answered and not served. -/
theorem wp_refuseRequest {consumed username password : Bytes} {user : String} {code : ReplyCode}
    {reason : CloseReason} {Qok : TargetAddr → ConnWorld → Prop} (hcode : code.asByte ≠ 0x00)
    (hstage : .known ∈ reason.stages) (hrelay : reason.relayEnd? = none)
    (hanswer : reason.answer = some ([0x05, 0x02, 0x01, 0x00] ++ replyBytes code.asByte)) :
    (do Phase.ofTask (sendReply code); throw reason : Phase TargetAddr).run.wp (connWorld users)
      (HandshakeAt peer) (Task.either Qok (ConnEnds peer)) ⟨consumed, [0x05, 0x02, 0x01, 0x00],
        [.verified username password (some user)], ⟨some user, none, none⟩⟩ := by
  have hpart : ∀ d, d <+: replyBytes code.asByte →
      [0x05, 0x02, 0x01, 0x00] ++ d <+: [0x05, 0x02, 0x01, 0x00] ++ replyBytes code.asByte :=
    fun d hd => (List.prefix_append_right_inj _).mpr hd
  refine Task.wp_except_bind (Task.wp_bind (wp_sendReply
    (fun d hd => ⟨.known true hcode (hpart d hd), rfl⟩) ?_))
  intro d hd
  exact (ConnAt.known true hcode (hpart d hd)).endsWith .known ⟨rfl, rfl⟩ hstage hrelay
    hanswer (hpart d hd)

theorem wp_readConnectRequest (hw : Authenticated w) :
    readConnectRequest.run.wp (connWorld users) (HandshakeAt peer)
      (Task.either Requested (ConnEnds peer)) w := by
  obtain @⟨greetingBytes, credentialBytes, greeting, credentials, user, hgreeting, hcredentials⟩ :=
    hw
  have hknown : ∀ c, ConnAt peer true ⟨greetingBytes ++ credentialBytes ++ c,
      [0x05, 0x02, 0x01, 0x00], [.verified credentials.username credentials.password (some user)],
      ⟨some user, none, none⟩⟩ :=
    fun c => .known (c := 0x01) true (by decide) (prefix_succeeded _)
  refine Task.wp_except_bind (Task.wp_bind (wp_read handsOn_request reads_request
    (fun _ => trivial) (fun c => ⟨hknown c, rfl⟩) ?_ ?_))
  · rintro c ⟨command, target⟩ hrequest
    show ((if command = .connect then pure target else do
      Phase.ofTask (sendReply .commandNotSupported)
      throw (.commandNotSupported command) : Phase TargetAddr).run).wp _ _ _ _
    split
    · next hcommand =>
      subst hcommand
      exact .intro ⟨_, _, _, _, _, rfl, hgreeting, hcredentials, hrequest⟩
    · exact wp_refuseRequest (by decide) List.mem_cons_self rfl rfl
  · intro c e he
    have hends : ∀ reason : CloseReason, .known ∈ reason.stages → reason.relayEnd? = none →
        reason.answer = none → ConnEnds peer reason _ :=
      fun reason => (hknown c).endsSilently .known ⟨rfl, rfl⟩
    cases e with
    | unsupportedAddressType addressType =>
      exact wp_refuseRequest (by decide) List.mem_cons_self rfl rfl
    | invalidDomain => exact wp_refuseRequest (by decide) List.mem_cons_self rfl rfl
    | io error =>
      exact hends (.handshakeIo error) (List.mem_cons_of_mem _ List.mem_cons_self) rfl rfl
    | unsupportedVersion version =>
      exact hends (.protocol (.unsupportedVersion version))
        (List.mem_cons_of_mem _ List.mem_cons_self) rfl rfl
    | noMethods => exact he.elim
    | unsupportedAuthVersion version => exact he.elim
    | fieldTooLong => exact he.elim

theorem wp_handshake :
    (handshake peer).run.wp (connWorld users) (HandshakeAt peer)
      (Task.either Requested (ConnEnds peer)) .new := by
  refine Task.wp_except_bind (Task.wp_post ?_ (wp_negotiateMethod peer))
  intro r w hr
  cases r with
  | error reason => exact hr
  | ok u =>
    refine Task.wp_except_bind (Task.wp_post ?_ (wp_authenticate hr))
    intro r w hr
    cases r with
    | error reason => exact hr
    | ok u => exact wp_readConnectRequest hr

/-! ## Connecting and relaying -/

/-- The connector is at work. -/
def ConnectorAt (peer : SocketAddr) (target : TargetAddr) (settled : Bool) (w : ConnWorld) : Prop :=
  ConnAt peer settled w ∧ (settled = true → Connecting target w)

/-- What the connector leaves. -/
def ConnectorEnds (target : TargetAddr) :
    Except ConnectError ConnectedTarget → ConnWorld → Prop :=
  Task.either (fun connected => Connected target connected.addr) fun _ => Connecting target

theorem Connecting.connectorAt (h : Connecting target w) : ConnectorAt peer target true w :=
  ⟨h.connAt, fun _ => h⟩

/-- The connector stops at the first stream that is connected. -/
theorem wp_tryConnect {addrs : List SocketAddr} {lastError : Option IoError}
    (hw : Connecting target w) :
    (tryConnect lastError addrs).wp (connWorld users) (ConnectorAt peer target)
      (ConnectorEnds target) w := by
  induction addrs generalizing lastError with
  | nil => exact hw
  | cons addr rest ih =>
    refine Task.wp_bind (Task.wp_awaitOp (S := ConnSig) hw.connectorAt ?_)
    intro r w' hr
    cases r with
    | error e =>
      obtain rfl : w = w' := Option.some.inj hr
      exact ih
    | ok u =>
      obtain rfl : w.record (.connected addr) = w' := Option.some.inj hr
      cases hw with
      | intro hread => exact .intro hread

theorem wp_connectToResolved {policy : DestinationPolicy} {resolved : List SocketAddr}
    (hw : Connecting target w) :
    (connectToResolved policy resolved).wp (connWorld users) (ConnectorAt peer target)
      (ConnectorEnds target) w := by
  unfold connectToResolved
  dsimp only
  split
  · exact hw
  · exact wp_tryConnect hw

variable (peer) in
theorem wp_connectToTarget {policy : DestinationPolicy} {consumed username password : Bytes}
    {user : String} (hread : RequestRead consumed target) :
    (connectToTarget policy target).wp (connWorld users) (ConnectorAt peer target)
      (ConnectorEnds target) ⟨consumed, [0x05, 0x02, 0x01, 0x00],
        [.verified username password (some user)], ⟨some user, some target, none⟩⟩ := by
  refine Task.wp_bind (Task.wp_callOp (S := ConnSig) ⟨.requested hread, by rintro ⟨⟩⟩ ?_)
  intro _ w hcall
  have hw : Connecting target w := by
    obtain rfl := Option.some.inj hcall
    exact .intro hread
  cases target with
  | ip addr => exact wp_connectToResolved hw
  | domain host port =>
    refine Task.wp_bind (Task.wp_awaitOp (S := ConnSig) hw.connectorAt ?_)
    intro r w' hr
    obtain rfl : w = w' := Option.some.inj hr
    cases r with
    | ok resolved => exact wp_connectToResolved hw
    | error e => exact hw

/-- A connect that failed, with its reply. -/
theorem wp_refuse {code : ReplyCode} {reason : CloseReason} (hw : Connecting target w)
    (hcode : code.asByte ≠ 0x00) (hstage : .requested ∈ reason.stages)
    (hrelay : reason.relayEnd? = none)
    (hanswer : reason.answer = some ([0x05, 0x02, 0x01, 0x00] ++ replyBytes code.asByte)) :
    ((sendReply code).bind fun () => .done reason).wp (connWorld users) (ConnAt peer)
      (ConnEnds peer) w := by
  obtain ⟨hread⟩ := hw
  have hpart : ∀ d, d <+: replyBytes code.asByte →
      [0x05, 0x02, 0x01, 0x00] ++ d <+: [0x05, 0x02, 0x01, 0x00] ++ replyBytes code.asByte :=
    fun d hd => (List.prefix_append_right_inj _).mpr hd
  refine Task.wp_bind (wp_sendReply (fun d hd => .connecting true hread hcode (hpart d hd)) ?_)
  intro d hd
  exact (ConnAt.connecting true hread hcode (hpart d hd)).endsWith .requested
    ⟨rfl, rfl⟩ hstage hrelay hanswer (hpart d hd)

theorem wp_relayTcp {consumed username password : Bytes} {user : String}
    (hread : RequestRead consumed target) :
    relayTcp.wp (connWorld users) (ConnAt peer) (ConnEnds peer)
      ⟨consumed, [0x05, 0x02, 0x01, 0x00] ++ replyBytes 0x00,
        [.verified username password (some user), .connectToTarget target consumed,
          .connected addr], ⟨some user, some target, some addr⟩⟩ := by
  refine Task.wp_bind (Task.wp_callOp (S := ConnSig)
    (.serving false addr hread List.prefix_rfl) ?_)
  intro _ w hcall
  obtain rfl := Option.some.inj hcall
  refine Task.wp_bind (Task.wp_awaitOp (S := ConnSig) (.relaying addr hread) ?_)
  intro result w hr
  obtain rfl := Option.some.inj hr
  exact .relayed addr result hread

theorem wp_serveTarget (hw : Connected target addr w) :
    (serveTarget addr).wp (connWorld users) (ConnAt peer) (ConnEnds peer) w := by
  obtain @⟨consumed, username, password, user, hread⟩ := hw
  refine Task.wp_bind (Task.wp_callOp (S := ConnSig) (.connected addr hread) ?_)
  intro _ w hcall
  obtain rfl := Option.some.inj hcall
  -- a part of the success reply
  have hserving : ∀ d, d <+: replyBytes 0x00 → ConnAt peer true
      ⟨consumed, [0x05, 0x02, 0x01, 0x00] ++ d,
        [.verified username password (some user), .connectToTarget target consumed,
          .connected addr], ⟨some user, some target, some addr⟩⟩ :=
    fun d hd => .serving true addr hread ((List.prefix_append_right_inj _).mpr hd)
  rw [encode_reply]
  refine Task.wp_bind (Task.wp_timeout (wp_write (fun d hd => ⟨hserving d hd, fun _ => ?_⟩)
    (Task.wp_mono (fun _ _ h => h) (fun _ _ h => h) (wp_relayTcp hread)) ?_))
  · exact (hserving d hd).endsSilently .connected ⟨rfl, rfl⟩ (by decide) rfl rfl
  · intro d e hd
    exact (hserving d hd).endsSilently .connected ⟨rfl, rfl⟩
      (List.mem_cons_of_mem _ (List.mem_cons_of_mem _ List.mem_cons_self)) rfl rfl

theorem wp_serveRequest {policy : DestinationPolicy} (hw : Requested target w) :
    (serveRequest policy target).wp (connWorld users) (ConnAt peer) (ConnEnds peer) w := by
  obtain ⟨hread⟩ := hw
  refine Task.wp_bind (Task.wp_callOp (S := ConnSig)
    (.known (c := 0x01) false (by decide) (prefix_succeeded _)) ?_)
  intro _ w hcall
  obtain rfl := Option.some.inj hcall
  refine Task.wp_bind (Task.wp_timeout (Task.wp_mono ?_ ?_ (wp_connectToTarget peer hread)))
  · -- the connect timer fires
    rintro settled w ⟨hat, hconnecting⟩
    refine ⟨hat, fun hsettled => ?_⟩
    exact wp_refuse (hconnecting hsettled) (by decide) List.mem_cons_self rfl rfl
  · intro r w hr
    cases r with
    | ok connected => exact wp_serveTarget hr
    | error error =>
      obtain ⟨hstages, hrelay, hanswer⟩ := CloseReason.table_toCloseReason error
      exact wp_refuse hr error.asByte_replyCode_ne (by simp [hstages]) hrelay hanswer

theorem wp_runConnection {policy : DestinationPolicy} :
    (runConnection policy peer).wp (connWorld users) (ConnAt peer) (ConnEnds peer) .new := by
  refine Task.wp_bind (Task.wp_timeout (Task.wp_mono ?_ ?_ wp_handshake))
  · intro settled w hinv
    refine ⟨hinv.1, ?_⟩
    rintro rfl
    exact hinv.timeout
  · intro r w hr
    cases r with
    | ok target => exact wp_serveRequest hr
    | error reason => exact hr

variable (users) in
/-- **What a connection does**, from its start to whichever of its ends. -/
theorem wp_serveConnection (policy : DestinationPolicy) (peer : SocketAddr) :
    (serveConnection policy peer).wp (connWorld users) (ConnAt peer) (ConnEnds peer) .new := by
  refine Task.wp_bind (Task.wp_timeout (Task.wp_mono ?_ (fun _ _ h => h) wp_runConnection))
  intro settled w hat
  refine ⟨hat, ?_⟩
  rintro rfl
  exact hat.shutdown

end Phases

end SocksServer
