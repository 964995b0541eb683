import SocksServer.Infra.Serve
import SocksServer.Socks.Frames
import SocksServer.Server.Run

/-!
# The language of the handshake

What `handshake` makes of every byte stream a client can send, when no timer fires and the
client takes what it is sent. The table `HandshakeSays` can be read without the readers and
writers of the code.

* `HandshakeSays` : one line for each way the handshake can end
* `handshake_language` : the code follows the table, and the table covers every stream
-/

namespace SocksServer

open Infra

/-! ## The table -/

/-- What a connection task asks of the shared state and writes to its report. -/
def handshakeCall (now : Nat) : (c : ConnSig.Call) → ServerState × ConnectionReport →
    ConnSig.Res c × (ServerState × ConnectionReport)
  | .verify username password, (state, report) =>
    (state.config.users.verify username password, (state, report))
  | .incrementAuthFailures, (state, report) =>
    ((), ({ state with stats.authFailures := state.stats.authFailures.increment }, report))
  | .recordFailure ip, (state, report) =>
    let (verdict, banList) := state.banList.recordFailure ip now
    (verdict, ({ state with banList }, report))
  | .setUser user, (state, report) => ((), (state, { report with user := some user }))
  | .setTarget target, (state, report) => ((), (state, { report with target := some target }))
  | .setTargetAddr addr, (state, report) =>
    ((), (state, { report with targetAddr := some addr }))
  | .connectToTarget _, s => ((), s)
  | .relayTcp, s => ((), s)

/-- The shared state changes as in a step of the server. -/
theorem connectionStep_handshakeCall (now : Nat) (c : ConnCall) (state : ServerState)
    (report : ConnectionReport) :
    state.connectionStep now (.returned c (handshakeCall now c (state, report)).1) =
      some (handshakeCall now c (state, report)).2.1 := by
  cases c with
  | recordFailure ip => exact if_pos rfl
  | _ => rfl

/-- A greeting that offers username/password. -/
def OffersUserPass (bytes : Bytes) : Prop :=
  ∃ methods, 1 ≤ methods.length ∧ methods.length ≤ 255 ∧ 0x02 ∈ methods ∧
    bytes = greetingBytes methods

/-- The credentials of `user`. -/
def Verified (users : UserStore) (bytes : Bytes) (user : String) : Prop :=
  ∃ username password, username.length ≤ 255 ∧ password.length ≤ 255 ∧
    users.verify username password = some user ∧ bytes = authBytes username password

/--
How the handshake with `peer` ends, from the bytes `input` the client sends before it closes:
the result, what the client was sent, what is left unread and the state. `eof` is what a read
reports at the end of the stream, `now` the moment of a recorded failure.
-/
inductive HandshakeSays (eof : IoError) (now : Nat) (peer : SocketAddr) (state : ServerState)
    (report : ConnectionReport) : Bytes →
    Task.Served (ServerState × ConnectionReport) (Except CloseReason TargetAddr) → Prop
  | greetingTruncated {input more methods : Bytes} (h1 : 1 ≤ methods.length)
    (h2 : methods.length ≤ 255) (hmore : more ≠ []) (h : input ++ more = greetingBytes methods) :
    HandshakeSays eof now peer state report input
      ⟨.error (.handshakeIo eof), [], [], (state, report)⟩
  | greetingVersion {version : UInt8} (rest : Bytes) (h : version ≠ 0x05) :
    HandshakeSays eof now peer state report (version :: rest)
      ⟨.error (.protocol (.unsupportedVersion version)), [], rest, (state, report)⟩
  | noMethods (rest : Bytes) :
    HandshakeSays eof now peer state report (0x05 :: 0x00 :: rest)
      ⟨.error (.protocol .noMethods), [], rest, (state, report)⟩
  | notOffered {methods : Bytes} (rest : Bytes) (h1 : 1 ≤ methods.length)
    (h2 : methods.length ≤ 255) (h : 0x02 ∉ methods) :
    HandshakeSays eof now peer state report (greetingBytes methods ++ rest)
      ⟨.error .noAcceptableAuthMethod, [0x05, 0xFF], rest, (state, report)⟩
  | authTruncated {greeting input more username password : Bytes} (hg : OffersUserPass greeting)
    (hu : username.length ≤ 255) (hp : password.length ≤ 255) (hmore : more ≠ [])
    (h : input ++ more = authBytes username password) :
    HandshakeSays eof now peer state report (greeting ++ input)
      ⟨.error (.handshakeIo eof), [0x05, 0x02], [], (state, report)⟩
  | authVersion {greeting : Bytes} {version : UInt8} (rest : Bytes) (hg : OffersUserPass greeting)
    (h : version ≠ 0x01) :
    HandshakeSays eof now peer state report (greeting ++ version :: rest)
      ⟨.error (.protocol (.unsupportedAuthVersion version)), [0x05, 0x02], rest, (state, report)⟩
  | rejected {greeting username password : Bytes} (rest : Bytes) (hg : OffersUserPass greeting)
    (hu : username.length ≤ 255) (hp : password.length ≤ 255)
    (h : state.config.users.verify username password = none) :
    HandshakeSays eof now peer state report (greeting ++ (authBytes username password ++ rest))
      ⟨.error .authFailed, [0x05, 0x02, 0x01, 0x01], rest,
        ({ state with
            stats.authFailures := state.stats.authFailures.increment
            banList := (state.banList.recordFailure peer.ip now).2 }, report)⟩
  | requestTruncated {greeting auth input : Bytes} {user : String} (hg : OffersUserPass greeting)
    (ha : Verified state.config.users auth user) (h : TruncatedRequest input) :
    HandshakeSays eof now peer state report (greeting ++ (auth ++ input))
      ⟨.error (.handshakeIo eof), [0x05, 0x02, 0x01, 0x00], [],
        (state, { report with user := some user })⟩
  | requestVersion {greeting auth : Bytes} {user : String} {version : UInt8}
    (command reserved atyp : UInt8) (rest : Bytes) (hg : OffersUserPass greeting)
    (ha : Verified state.config.users auth user) (h : version ≠ 0x05) :
    HandshakeSays eof now peer state report
      (greeting ++ (auth ++ version :: command :: reserved :: atyp :: rest))
      ⟨.error (.protocol (.unsupportedVersion version)), [0x05, 0x02, 0x01, 0x00], rest,
        (state, { report with user := some user })⟩
  | addressType {greeting auth : Bytes} {user : String} {atyp : UInt8} (command reserved : UInt8)
    (rest : Bytes) (hg : OffersUserPass greeting) (ha : Verified state.config.users auth user)
    (h4 : atyp ≠ 0x01) (h6 : atyp ≠ 0x04) (hd : atyp ≠ 0x03) :
    HandshakeSays eof now peer state report
      (greeting ++ (auth ++ 0x05 :: command :: reserved :: atyp :: rest))
      ⟨.error (.addressTypeNotSupported atyp), [0x05, 0x02, 0x01, 0x00] ++ replyBytes 8, rest,
        (state, { report with user := some user })⟩
  | invalidDomain {greeting auth frame : Bytes} {user : String} (command reserved : UInt8)
    (rest : Bytes) (hg : OffersUserPass greeting) (ha : Verified state.config.users auth user)
    (h : TargetFrame frame none) :
    HandshakeSays eof now peer state report
      (greeting ++ (auth ++ (0x05 :: command :: reserved :: frame ++ rest)))
      ⟨.error .invalidDomain, [0x05, 0x02, 0x01, 0x00] ++ replyBytes 1, rest,
        (state, { report with user := some user })⟩
  | command {greeting auth frame : Bytes} {user : String} {target : TargetAddr}
    {command : UInt8} (reserved : UInt8) (rest : Bytes) (hg : OffersUserPass greeting)
    (ha : Verified state.config.users auth user) (h : TargetFrame frame (some target))
    (hcommand : command ≠ 0x01) :
    HandshakeSays eof now peer state report
      (greeting ++ (auth ++ (0x05 :: command :: reserved :: frame ++ rest)))
      ⟨.error (.commandNotSupported (.fromByte command)),
        [0x05, 0x02, 0x01, 0x00] ++ replyBytes 7, rest,
        (state, { report with user := some user })⟩
  | accepted {greeting auth frame : Bytes} {user : String} {target : TargetAddr}
    (reserved : UInt8) (rest : Bytes) (hg : OffersUserPass greeting)
    (ha : Verified state.config.users auth user) (h : TargetFrame frame (some target)) :
    HandshakeSays eof now peer state report
      (greeting ++ (auth ++ (0x05 :: 0x01 :: reserved :: frame ++ rest)))
      ⟨.ok target, [0x05, 0x02, 0x01, 0x00], rest, (state, { report with user := some user })⟩

/-! ## The phases -/

section Phases

variable {eof : IoError} {now : Nat} {α : Type} {s : ServerState × ConnectionReport}

/-- A message that arrives completely, with what the reader makes of it. -/
theorem serve_reader {reader : Reader ConnSig α} {c : Bytes} {r : Except ProtocolError α}
    (rest : Bytes) (h : reader.run.feed c = some (.done r)) :
    reader.run.serve eof (handshakeCall now) (c ++ rest) s = some ⟨r, [], rest, s⟩ :=
  Task.serve_feed rest s h

theorem serve_readMessage {reader : Reader ConnSig α} {input rest : Bytes}
    {r : Except ProtocolError α}
    (h : reader.run.serve eof (handshakeCall now) input s = some ⟨r, [], rest, s⟩) :
    (readMessage reader).run.serve eof (handshakeCall now) input s =
      some ⟨r.mapError .ofProtocolError, [], rest, s⟩ := by
  refine Task.serve_bind_done h ?_
  cases r <;> rfl

theorem serve_writeMessage (bytes input : Bytes) :
    (writeMessage bytes).run.serve eof (handshakeCall now) input s =
      some ⟨.ok (), bytes, input, s⟩ :=
  Task.serve_bind_done (Task.serve_writeAll bytes input s) rfl

theorem serve_ofTask {p : Task ConnSig α} {input rest out : Bytes}
    {s' : ServerState × ConnectionReport} {a : α}
    (h : p.serve eof (handshakeCall now) input s = some ⟨a, out, rest, s'⟩) :
    (Phase.ofTask p).run.serve eof (handshakeCall now) input s = some ⟨.ok a, out, rest, s'⟩ :=
  Task.serve_bind_done h rfl

theorem serve_call (c : ConnCall) (input : Bytes) :
    (Phase.call c).run.serve eof (handshakeCall now) input s =
      some ⟨.ok (handshakeCall now c s).1, [], input, (handshakeCall now c s).2⟩ :=
  serve_ofTask (Task.serve_callOp (S := ConnSig) c input s)

theorem serve_sendReply (code : ReplyCode) (input : Bytes) :
    (Phase.ofTask (sendReply code)).run.serve eof (handshakeCall now) input s =
      some ⟨.ok (), replyBytes code.asByte, input, s⟩ := by
  have hwrite : (Task.writeAll (S := ConnSig) (Reply.new code).encode).timeout.serve eof
      (handshakeCall now) input s = some ⟨some (.ok ()), replyBytes code.asByte, input, s⟩ := by
    rw [Task.serve_timeout, Task.serve_writeAll, encode_reply]
    rfl
  exact serve_ofTask (Task.serve_bind_done hwrite rfl)

/-- Username and password are offered. -/
theorem offers_iff (methods : Bytes) :
    (Greeting.mk methods).offers methodUserPass = true ↔ 0x02 ∈ methods := by
  unfold Greeting.offers
  rw [List.contains_iff_mem]
  rfl

/-- The method is agreed on. -/
theorem serve_negotiateMethod {greeting : Bytes} (h : OffersUserPass greeting) (rest : Bytes) :
    negotiateMethod.run.serve eof (handshakeCall now) (greeting ++ rest) s =
      some ⟨.ok (), [0x05, 0x02], rest, s⟩ := by
  obtain ⟨methods, h1, h2, hmem, rfl⟩ := h
  refine Task.serve_except_ok (serve_readMessage (serve_reader rest (feed_greetingBytes h1 h2))) ?_
  rw [if_pos ((offers_iff methods).mpr hmem)]
  exact serve_writeMessage _ rest

/-- The client does not offer username and password. -/
theorem serve_negotiateMethod_notOffered {methods : Bytes} (h1 : 1 ≤ methods.length)
    (h2 : methods.length ≤ 255) (h : 0x02 ∉ methods) (rest : Bytes) :
    negotiateMethod.run.serve eof (handshakeCall now) (greetingBytes methods ++ rest) s =
      some ⟨.error .noAcceptableAuthMethod, [0x05, 0xFF], rest, s⟩ := by
  refine Task.serve_except_ok (serve_readMessage (serve_reader rest (feed_greetingBytes h1 h2))) ?_
  rw [if_neg (mt (offers_iff methods).mp h)]
  exact Task.serve_except_ok (serve_ofTask (Task.serve_writeAll _ rest s)) rfl

/-- A greeting that is not accepted ends the negotiation without an answer. -/
theorem serve_negotiateMethod_error {input rest : Bytes} {e : ProtocolError}
    (h : (Greeting.readFrom (S := ConnSig)).run.serve eof (handshakeCall now) input s =
      some ⟨.error e, [], rest, s⟩) :
    negotiateMethod.run.serve eof (handshakeCall now) input s =
      some ⟨.error (.ofProtocolError e), [], rest, s⟩ :=
  Task.serve_except_error (serve_readMessage h)

variable {peer : SocketAddr} {state : ServerState} {report : ConnectionReport}

/-- The credentials are right. -/
theorem serve_authenticate {auth : Bytes} {user : String}
    (h : Verified state.config.users auth user) (rest : Bytes) :
    (authenticate peer).run.serve eof (handshakeCall now) (auth ++ rest) (state, report) =
      some ⟨.ok (), [0x01, 0x00], rest, (state, { report with user := some user })⟩ := by
  obtain ⟨username, password, hu, hp, hverify, rfl⟩ := h
  refine Task.serve_except_ok (serve_readMessage (serve_reader rest (feed_authBytes hu hp))) ?_
  refine Task.serve_except_ok (serve_call (.verify username password) rest) ?_
  dsimp only [handshakeCall]
  rw [hverify]
  exact Task.serve_except_ok (serve_call (.setUser user) rest) (serve_writeMessage _ rest)

/-- The credentials are wrong. -/
theorem serve_authenticate_rejected {username password : Bytes} (hu : username.length ≤ 255)
    (hp : password.length ≤ 255) (h : state.config.users.verify username password = none)
    (rest : Bytes) :
    (authenticate peer).run.serve eof (handshakeCall now) (authBytes username password ++ rest)
        (state, report) =
      some ⟨.error .authFailed, [0x01, 0x01], rest,
        ({ state with
            stats.authFailures := state.stats.authFailures.increment
            banList := (state.banList.recordFailure peer.ip now).2 }, report)⟩ := by
  refine Task.serve_except_ok (serve_readMessage (serve_reader rest (feed_authBytes hu hp))) ?_
  refine Task.serve_except_ok (serve_call (.verify username password) rest) ?_
  dsimp only [handshakeCall]
  rw [h]
  refine Task.serve_except_ok (serve_call .incrementAuthFailures rest) ?_
  refine Task.serve_except_ok (serve_call (.recordFailure peer.ip) rest) ?_
  exact Task.serve_except_ok (serve_ofTask (Task.serve_writeAll _ rest _)) rfl

/-- The credentials cannot be read. -/
theorem serve_authenticate_error {input rest : Bytes} {e : ProtocolError}
    (h : (UserPassRequest.readFrom (S := ConnSig)).run.serve eof (handshakeCall now) input s =
      some ⟨.error e, [], rest, s⟩) :
    (authenticate peer).run.serve eof (handshakeCall now) input s =
      some ⟨.error (.ofProtocolError e), [], rest, s⟩ :=
  Task.serve_except_error (serve_readMessage h)

/-- A message that ends before it is complete. -/
theorem serve_reader_truncated {reader : Reader ConnSig α} {input more : Bytes}
    (hon : HandsOnIo reader) (hmore : more ≠ []) {p : Task ConnSig (Except ProtocolError α)}
    (h : reader.run.feed (input ++ more) = some p) :
    reader.run.serve eof (handshakeCall now) input s = some ⟨.error (.io eof), [], [], s⟩ :=
  Task.serve_truncated s hon h hmore

/-- The stream ends within the request. -/
theorem serve_request_truncated {input : Bytes} (h : TruncatedRequest input) :
    (Request.readFrom (S := ConnSig)).run.serve eof (handshakeCall now) input s =
      some ⟨.error (.io eof), [], [], s⟩ := by
  rcases h with hlen | ⟨command, reserved, frame, target, more, hframe, hmore, heq⟩
  · -- any four bytes get the reader past its first read
    have hfill : (input ++ List.replicate (4 - input.length) 0).length = 4 := by
      simp only [List.length_append, List.length_replicate]
      omega
    have hread := feed_request_four (S := ConnSig) hfill []
    rw [List.append_nil] at hread
    refine serve_reader_truncated handsOn_request ?_ hread
    intro hnil
    have hzero := congrArg List.length hnil
    simp only [List.length_replicate, List.length_nil] at hzero
    omega
  · have hread := feed_request_frame (S := ConnSig) command reserved hframe
    rw [← heq] at hread
    exact serve_reader_truncated handsOn_request hmore hread

/-- An answer to a request that is not served, and then the reason. -/
theorem serve_refuse (code : ReplyCode) (reason : CloseReason) (input : Bytes) :
    (Phase.ofTask (sendReply code) >>= fun _ => (throw reason : Phase TargetAddr)).run.serve eof
        (handshakeCall now) input s =
      some ⟨.error reason, replyBytes code.asByte, input, s⟩ :=
  Task.serve_except_ok (serve_sendReply code input) rfl

/-- The command byte of CONNECT. -/
theorem fromByte_eq_connect (command : UInt8) : Command.fromByte command = .connect ↔
    command = 0x01 := by
  constructor
  · intro h
    rw [← Command.asByte_fromByte command, h]
    rfl
  · rintro rfl
    rfl

/-- A request with a target, served or not. -/
theorem serve_readConnectRequest (command reserved : UInt8) {frame : Bytes} {target : TargetAddr}
    (h : TargetFrame frame (some target)) (rest : Bytes) :
    readConnectRequest.run.serve eof (handshakeCall now)
        (0x05 :: command :: reserved :: frame ++ rest) s =
      some (if command = 0x01 then ⟨.ok target, [], rest, s⟩
        else ⟨.error (.commandNotSupported (.fromByte command)), replyBytes 7, rest, s⟩) := by
  have hread : (Request.readFrom (S := ConnSig)).run.serve eof (handshakeCall now)
      (0x05 :: command :: reserved :: frame ++ rest) s = _ :=
    serve_reader rest (feed_request_frame command reserved h)
  split
  · next hc =>
    refine Task.serve_except_ok (serve_ofTask hread) ?_
    dsimp only [requestOf]
    rw [if_pos ((fromByte_eq_connect command).mpr hc)]
    rfl
  · next hc =>
    refine Task.serve_except_ok (serve_ofTask hread) ?_
    dsimp only [requestOf]
    rw [if_neg (mt (fromByte_eq_connect command).mp hc)]
    exact serve_refuse .commandNotSupported _ rest

/-- The name of the request is refused. -/
theorem serve_readConnectRequest_invalidDomain (command reserved : UInt8) {frame : Bytes}
    (h : TargetFrame frame none) (rest : Bytes) :
    readConnectRequest.run.serve eof (handshakeCall now)
        (0x05 :: command :: reserved :: frame ++ rest) s =
      some ⟨.error .invalidDomain, replyBytes 1, rest, s⟩ :=
  Task.serve_except_ok (serve_ofTask (serve_reader rest (feed_request_frame command reserved h)))
    (serve_refuse .generalFailure _ rest)

/-- The type of the address is refused. -/
theorem serve_readConnectRequest_addressType {atyp : UInt8} (h4 : atyp ≠ 0x01) (h6 : atyp ≠ 0x04)
    (hd : atyp ≠ 0x03) (command reserved : UInt8) (rest : Bytes) :
    readConnectRequest.run.serve eof (handshakeCall now)
        (0x05 :: command :: reserved :: atyp :: rest) s =
      some ⟨.error (.addressTypeNotSupported atyp), replyBytes 8, rest, s⟩ :=
  Task.serve_except_ok
    (serve_ofTask (serve_reader rest (feed_request_addressType h4 h6 hd command reserved)))
    (serve_refuse .addressTypeNotSupported _ rest)

/-- The version of the request is refused, without an answer. -/
theorem serve_readConnectRequest_version {version : UInt8} (h : version ≠ 0x05)
    (command reserved atyp : UInt8) (rest : Bytes) :
    readConnectRequest.run.serve eof (handshakeCall now)
        (version :: command :: reserved :: atyp :: rest) s =
      some ⟨.error (.protocol (.unsupportedVersion version)), [], rest, s⟩ :=
  Task.serve_except_ok
    (serve_ofTask (serve_reader rest (feed_request_version h command reserved atyp))) rfl

/-- The stream ends within the request, without an answer. -/
theorem serve_readConnectRequest_truncated {input : Bytes} (h : TruncatedRequest input) :
    readConnectRequest.run.serve eof (handshakeCall now) input s =
      some ⟨.error (.handshakeIo eof), [], [], s⟩ :=
  Task.serve_except_ok (serve_ofTask (serve_request_truncated h)) rfl

/-- The request comes after the client has been let in. -/
theorem serve_handshake {greeting auth input rest out : Bytes} {user : String}
    {r : Except CloseReason TargetAddr} (hg : OffersUserPass greeting)
    (ha : Verified state.config.users auth user)
    (h : readConnectRequest.run.serve eof (handshakeCall now) input
      (state, { report with user := some user }) =
        some ⟨r, out, rest, (state, { report with user := some user })⟩) :
    (handshake peer).run.serve eof (handshakeCall now) (greeting ++ (auth ++ input))
        (state, report) =
      some ⟨r, [0x05, 0x02, 0x01, 0x00] ++ out, rest,
        (state, { report with user := some user })⟩ := by
  have hauth : (authenticate peer >>= fun _ => readConnectRequest).run.serve eof
      (handshakeCall now) (auth ++ input) (state, report) = some ⟨r, [0x01, 0x00] ++ out, rest,
        (state, { report with user := some user })⟩ :=
    Task.serve_except_ok (serve_authenticate ha input) h
  have hall := Task.serve_except_ok (serve_negotiateMethod hg (auth ++ input))
    (f := fun _ => authenticate peer >>= fun _ => readConnectRequest) hauth
  exact hall

end Phases

/-! ## No empty reads and writes -/

section Proper

variable {α : Type}

/-- A reader waits for some bytes wherever it reads. -/
theorem proper_reader {reader : Reader ConnSig α} (h : HandsOnIo reader) : reader.run.Proper :=
  Task.HandsOn.proper h

theorem proper_readMessage {reader : Reader ConnSig α} (h : HandsOnIo reader) :
    (readMessage reader).run.Proper := by
  refine Task.Proper.bind (proper_reader h) ?_
  rintro (e | a) <;> trivial

theorem proper_ofTask {p : Task ConnSig α} (h : p.Proper) : (Phase.ofTask p).run.Proper :=
  Task.Proper.bind h fun _ => trivial

theorem proper_writeMessage (bytes : Bytes) : (writeMessage bytes).run.Proper := by
  refine Task.Proper.bind (Task.proper_writeAll bytes) ?_
  rintro (e | a) <;> trivial

theorem proper_call (c : ConnCall) : (Phase.call c).run.Proper :=
  proper_ofTask (Task.proper_callOp (S := ConnSig) c)

/-- A write whose result is ignored, and then the reason. -/
theorem proper_lastWord {p : Task ConnSig α} (h : p.Proper) {β : Type} (reason : CloseReason) :
    (Phase.ofTask p >>= fun _ => (throw reason : Phase β)).run.Proper :=
  Task.Proper.except_bind (proper_ofTask h) fun _ => trivial

theorem proper_sendReply (code : ReplyCode) : (sendReply code).Proper :=
  Task.Proper.bind (Task.proper_writeAll _).timeout fun _ => trivial

theorem proper_negotiateMethod : negotiateMethod.run.Proper := by
  refine Task.Proper.except_bind (proper_readMessage handsOn_greeting) ?_
  intro greeting
  split
  · exact proper_writeMessage _
  · exact proper_lastWord (Task.proper_writeAll _) _

theorem proper_authenticate (peer : SocketAddr) : (authenticate peer).run.Proper := by
  refine Task.Proper.except_bind (proper_readMessage handsOn_userPassRequest) ?_
  intro credentials
  refine Task.Proper.except_bind (proper_call (.verify _ _)) ?_
  rintro (- | user)
  · refine Task.Proper.except_bind (proper_call .incrementAuthFailures) ?_
    intro _
    refine Task.Proper.except_bind (proper_call (.recordFailure peer.ip)) ?_
    intro _
    exact proper_lastWord (Task.proper_writeAll _) _
  · refine Task.Proper.except_bind (proper_call (.setUser user)) ?_
    intro _
    exact proper_writeMessage _

theorem proper_readConnectRequest : readConnectRequest.run.Proper := by
  have hreader : (Request.readFrom (S := ConnSig)).run.Proper := proper_reader handsOn_request
  refine Task.Proper.except_bind (proper_ofTask hreader) ?_
  rintro (error | request)
  · cases error with
    | unsupportedAddressType addressType => exact proper_lastWord (proper_sendReply _) _
    | invalidDomain => exact proper_lastWord (proper_sendReply _) _
    | _ => trivial
  · dsimp only
    split
    · trivial
    · exact proper_lastWord (proper_sendReply _) _

/-- **The handshake** has no empty reads and writes. -/
theorem proper_handshake (peer : SocketAddr) : (handshake peer).run.Proper := by
  refine Task.Proper.except_bind proper_negotiateMethod ?_
  intro _
  refine Task.Proper.except_bind (proper_authenticate peer) ?_
  intro _
  exact proper_readConnectRequest

end Proper

/-! ## The code follows the table -/

section Table

variable {eof : IoError} {now : Nat} {peer : SocketAddr} {state : ServerState}
  {report : ConnectionReport} {input : Bytes}

/-- **The handshake does what the table says.** -/
theorem serve_of_handshakeSays
    {o : Task.Served (ServerState × ConnectionReport) (Except CloseReason TargetAddr)}
    (h : HandshakeSays eof now peer state report input o) :
    (handshake peer).run.serve eof (handshakeCall now) input (state, report) = some o := by
  cases h with
  | greetingTruncated h1 h2 hmore heq =>
    have hread := feed_greetingBytes (S := ConnSig) h1 h2
    rw [← heq] at hread
    exact Task.serve_except_error
      (serve_negotiateMethod_error (serve_reader_truncated handsOn_greeting hmore hread))
  | greetingVersion rest hv =>
    exact Task.serve_except_error
      (serve_negotiateMethod_error (serve_reader rest (feed_greeting_version hv)))
  | noMethods rest =>
    exact Task.serve_except_error
      (serve_negotiateMethod_error (serve_reader rest feed_greeting_noMethods))
  | notOffered rest h1 h2 hnot =>
    exact Task.serve_except_error (serve_negotiateMethod_notOffered h1 h2 hnot rest)
  | authTruncated hg hu hp hmore heq =>
    have hread := feed_authBytes (S := ConnSig) hu hp
    rw [← heq] at hread
    exact Task.serve_except_ok (serve_negotiateMethod hg _) (Task.serve_except_error
      (serve_authenticate_error (serve_reader_truncated handsOn_userPassRequest hmore hread)))
  | authVersion rest hg hv =>
    exact Task.serve_except_ok (serve_negotiateMethod hg _) (Task.serve_except_error
      (serve_authenticate_error (serve_reader rest (feed_auth_version hv))))
  | rejected rest hg hu hp hnone =>
    exact Task.serve_except_ok (serve_negotiateMethod hg _)
      (Task.serve_except_error (serve_authenticate_rejected hu hp hnone rest))
  | requestTruncated hg ha ht => exact serve_handshake hg ha (serve_readConnectRequest_truncated ht)
  | requestVersion command reserved atyp rest hg ha hv =>
    exact serve_handshake hg ha (serve_readConnectRequest_version hv command reserved atyp rest)
  | addressType command reserved rest hg ha h4 h6 hd =>
    exact serve_handshake hg ha
      (serve_readConnectRequest_addressType h4 h6 hd command reserved rest)
  | invalidDomain command reserved rest hg ha hf =>
    exact serve_handshake hg ha (serve_readConnectRequest_invalidDomain command reserved hf rest)
  | command reserved rest hg ha hf hcommand =>
    refine serve_handshake hg ha ?_
    rw [serve_readConnectRequest _ reserved hf, if_neg hcommand]
  | accepted reserved rest hg ha hf =>
    refine serve_handshake hg ha ?_
    rw [serve_readConnectRequest _ reserved hf, if_pos rfl]

end Table

/-! ## The table covers every stream -/

section Total

variable {eof : IoError} {now : Nat} {peer : SocketAddr} {state : ServerState}
  {report : ConnectionReport}

/-- From a client that has been let in on. -/
theorem request_total {greeting auth : Bytes} {user : String} (hg : OffersUserPass greeting)
    (ha : Verified state.config.users auth user) (input : Bytes) :
    ∃ o, HandshakeSays eof now peer state report (greeting ++ (auth ++ input)) o := by
  by_cases hlen : input.length < 4
  · exact ⟨_, .requestTruncated hg ha (.inl hlen)⟩
  obtain ⟨version, command, reserved, atyp, hheader⟩ :=
    length_four (show (input.take 4).length = 4 by rw [List.length_take]; omega)
  obtain ⟨rest, rfl⟩ : ∃ rest, input = version :: command :: reserved :: atyp :: rest := by
    refine ⟨input.drop 4, ?_⟩
    have hsplit := List.take_append_drop 4 input
    rw [hheader] at hsplit
    exact hsplit.symm
  by_cases hv : version = 0x05
  · subst hv
    by_cases hatyp : atyp = 0x01 ∨ atyp = 0x04 ∨ atyp = 0x03
    · rcases targetFrame_total hatyp rest with ⟨frame, target, more, hframe, hmore, heq⟩ |
        ⟨frame, target, rest, hframe, heq⟩
      · refine ⟨_, .requestTruncated hg ha (.inr ⟨command, reserved, frame, target, more, hframe,
          hmore, ?_⟩)⟩
        rw [← heq]
        rfl
      · rw [heq]
        cases target with
        | none => exact ⟨_, .invalidDomain command reserved rest hg ha hframe⟩
        | some target =>
          by_cases hc : command = 0x01
          · subst hc
            exact ⟨_, .accepted reserved rest hg ha hframe⟩
          · exact ⟨_, .command reserved rest hg ha hframe hc⟩
    · obtain ⟨h4, h6, hd⟩ : atyp ≠ 0x01 ∧ atyp ≠ 0x04 ∧ atyp ≠ 0x03 := by simpa using hatyp
      exact ⟨_, .addressType command reserved rest hg ha h4 h6 hd⟩
  · exact ⟨_, .requestVersion command reserved atyp rest hg ha hv⟩

/-- **The table has a row for every stream.** -/
theorem handshakeSays_total (input : Bytes) :
    ∃ o, HandshakeSays eof now peer state report input o := by
  rcases greeting_total input with ⟨methods, more, h1, h2, hmore, heq⟩ | ⟨version, rest, hv, rfl⟩ |
    ⟨rest, rfl⟩ | ⟨methods, rest, h1, h2, rfl⟩
  · exact ⟨_, .greetingTruncated h1 h2 hmore heq⟩
  · exact ⟨_, .greetingVersion rest hv⟩
  · exact ⟨_, .noMethods rest⟩
  by_cases hoffer : 0x02 ∈ methods
  · have hg : OffersUserPass (greetingBytes methods) := ⟨methods, h1, h2, hoffer, rfl⟩
    rcases auth_total rest with ⟨username, password, more, hu, hp, hmore, heq⟩ |
      ⟨version, rest, hv, rfl⟩ | ⟨username, password, rest, hu, hp, rfl⟩
    · exact ⟨_, .authTruncated hg hu hp hmore heq⟩
    · exact ⟨_, .authVersion rest hg hv⟩
    cases hverify : state.config.users.verify username password with
    | none => exact ⟨_, .rejected rest hg hu hp hverify⟩
    | some user => exact request_total hg ⟨username, password, hu, hp, hverify, rfl⟩ rest
  · exact ⟨_, .notOffered rest h1 h2 hoffer⟩

/-- The table, for every run however the stream is cut into pieces. -/
theorem runs_handshake_iff {input : Bytes}
    {o : Task.Served (ServerState × ConnectionReport) (Except CloseReason TargetAddr)} :
    Task.Runs eof (handshakeCall now) (handshake peer).run input (state, report) o ↔
      HandshakeSays eof now peer state report input o := by
  rw [Task.runs_iff_serve (proper_handshake peer)]
  constructor
  · intro h
    obtain ⟨o', ho'⟩ : ∃ o, HandshakeSays eof now peer state report input o :=
      handshakeSays_total input
    rw [serve_of_handshakeSays ho'] at h
    rw [← Option.some.inj h]
    exact ho'
  · exact serve_of_handshakeSays

end Total

/--
**The language of the handshake.** Whatever the client sends before it closes, the handshake
ends, and in the one way the table `HandshakeSays` gives. It returns a target exactly for a
greeting that offers username/password, credentials that are verified and a `CONNECT` request
for that target; then the client has been sent `05 02 01 00`, the report has the verified user,
and what follows the request is still unread.
-/
theorem handshake_language (eof : IoError) (now : Nat) (peer : SocketAddr) (state : ServerState)
    (report : ConnectionReport) (input : Bytes) :
    (∃! o, Task.Runs eof (handshakeCall now) (handshake peer).run input (state, report) o) ∧
    (∀ o, Task.Runs eof (handshakeCall now) (handshake peer).run input (state, report) o ↔
      HandshakeSays eof now peer state report input o) ∧
    ∀ target written rest s,
      Task.Runs eof (handshakeCall now) (handshake peer).run input (state, report)
        ⟨.ok target, written, rest, s⟩ ↔
      ∃ greeting auth user reserved frame, OffersUserPass greeting ∧
        Verified state.config.users auth user ∧ TargetFrame frame (some target) ∧
        input = greeting ++ (auth ++ (0x05 :: 0x01 :: reserved :: frame ++ rest)) ∧
        written = [0x05, 0x02, 0x01, 0x00] ∧ s = (state, { report with user := some user }) := by
  refine ⟨?_, fun o => runs_handshake_iff, ?_⟩
  · obtain ⟨o, ho⟩ : ∃ o, HandshakeSays eof now peer state report input o :=
      handshakeSays_total input
    refine ⟨o, runs_handshake_iff.mpr ho, ?_⟩
    intro o' ho'
    have hserve := serve_of_handshakeSays (runs_handshake_iff.mp ho')
    rw [serve_of_handshakeSays ho] at hserve
    exact (Option.some.inj hserve).symm
  · intro target written rest s
    rw [runs_handshake_iff]
    constructor
    · intro h
      cases h with
      | accepted reserved rest hg ha hf =>
        exact ⟨_, _, _, reserved, _, hg, ha, hf, rfl, rfl, rfl⟩
    · rintro ⟨greeting, auth, user, reserved, frame, hg, ha, hf, rfl, rfl, rfl⟩
      exact .accepted reserved rest hg ha hf

end SocksServer
