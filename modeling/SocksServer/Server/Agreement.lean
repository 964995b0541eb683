import SocksServer.Auth.UserStore
import SocksServer.Infra.Duplex
import SocksServer.Server.Connection
import SocksServer.Socks.Client
import SocksServer.Socks.Roundtrip

/-!
# Client and server agree

`client_handshake` against `run_connection` over two reliable byte channels, with no I/O
error, handshake timeout or shutdown. The two were written separately; here each of them is
shown to read and write whole messages, and the two lists of messages to be dual. Then they
cannot get stuck half-way, in whatever pieces and in whatever order they move
(`Task.stuck_eq`).

* `does_client*`, `does_*` — what either party does at each exchange
* `answered_of_connectOutcome` — the server connects only where a connect is answered
* `handshake_agreement` — how the client ends, for every outcome of the connect phase
-/

namespace SocksServer

open Infra
open Infra.Task (Does Act Dual Waiting)

/-! ## Oracles -/

/-- The client asks for nothing. -/
def clientOracle : Task.Oracle ClientSig where
  await op := op.elim
  call c := c.elim

/--
What the server asks for. `net` answers the resolver and the connects, `none` when the
connect timeout comes first; the user store answers as it does.
-/
def connOracle (users : UserStore) (verdict : FailureVerdict)
    (net : (op : ConnOp) → Nat → Option op.Ret) : Task.Oracle ConnSig where
  await op n :=
    match op with
    | .relay => .pending
    | .lookupHost host port => (net (.lookupHost host port) n).elim .elapsed .ready
    | .tcpConnect addr => (net (.tcpConnect addr) n).elim .elapsed .ready
  call c :=
    match c with
    | .verify username password => users.verify username password
    | .recordFailure _ => verdict
    | .incrementAuthFailures => ()
    | .setUser _ => ()
    | .setTarget _ => ()
    | .connectToTarget _ => ()
    | .setTargetAddr _ => ()
    | .relayTcp => ()

/-- How the connect phase ends; `none` is the connect timeout. -/
def connectOutcome (O : Task.Oracle ConnSig) (policy : DestinationPolicy) (target : TargetAddr) :
    Option (Except ConnectError ConnectedTarget) :=
  match (Task.settle O 0 (connectToTarget policy target).timeout).2 with
  | .done outcome => outcome
  | _ => none

/-! ## What arrives at the server -/

namespace TargetAddr

/-- The target as the server reads it: flow label and scope id are not on the wire. -/
def onWire : TargetAddr → TargetAddr
  | .ip addr => .ip (.new addr.ip addr.port)
  | .domain host port => .domain host port

def HasValidDomain : TargetAddr → Prop
  | .ip _ => True
  | .domain host _ => strBytes host ≠ [] ∧ ∀ b ∈ strBytes host, b ∈ domainAlphabet

end TargetAddr

section Request

variable {S : Sig}

/-- What `Request::read_from` makes of an encoded target. -/
def readResult (target : TargetAddr) : Except ProtocolError Request :=
  match target with
  | .ip addr => .ok ⟨.connect, .ip (.new addr.ip addr.port)⟩
  | .domain host port =>
    match parseDomain (strBytes host) with
    | .ok host => .ok ⟨.connect, .domain host port⟩
    | .error e => .error e

/-- The server reads back the request the client has written, valid or not. -/
theorem feed_encoded_request {target : TargetAddr} {bytes : Bytes}
    (h : Request.encode ⟨.connect, target⟩ = .ok bytes) :
    bytes ≠ [] ∧ (Request.readFrom (S := S)).run.feed bytes = some (.done (readResult target)) := by
  cases target with
  | ip addr =>
    have hplain : pushSocketAddr [socksVersion, cmdConnect, 0x00] addr =
        pushSocketAddr [socksVersion, cmdConnect, 0x00] (.new addr.ip addr.port) := by
      cases addr <;> rfl
    obtain ⟨bytes', henc, hfeed⟩ := feed_request (S := S)
      (m := ⟨.connect, .ip (.new addr.ip addr.port)⟩) ⟨⟨cmdConnect, rfl⟩, isPlain_new _ _⟩
    have hb : bytes = bytes' := by
      have h' : Except.ok (pushSocketAddr [socksVersion, cmdConnect, 0x00] addr) = .ok bytes := h
      rw [hplain] at h'
      exact Except.ok.inj (h'.symm.trans henc)
    refine ⟨?_, hb ▸ hfeed⟩
    have hb' := Except.ok.inj h
    rw [← hb', pushSocketAddr_eq]
    simp
  | domain host port =>
    have hlen : (strBytes host).length ≤ 255 := by
      by_contra hgt
      simp only [Request.encode, TargetAddr.encodeInto, pushU8Prefixed, lengthByte,
        if_neg hgt] at h
      exact absurd h (by simp [bind, Except.bind])
    have henc : bytes = [socksVersion, cmdConnect, 0x00, atypDomain] ++
        (UInt8.ofNat (strBytes host).length :: strBytes host ++ (portBytes port ++ [])) := by
      have hinto := encodeInto_domain hlen port [socksVersion, cmdConnect, 0x00]
      rw [Except.ok.inj (h.symm.trans hinto)]
      simp
    refine ⟨by simp [henc], ?_⟩
    rw [henc]
    unfold Request.readFrom
    rw [feed_readBytes_bind (n := 4) rfl]
    dsimp only
    rw [if_neg (by simp)]
    show (TargetAddr.readFrom atypDomain >>= _).run.feed _ = _
    simp only [readFrom_domain, bind_assoc]
    rw [feed_readU8Prefixed_bind hlen, feed_readU16_bind]
    cases hp : parseDomain (strBytes host) with
    | ok host' =>
      simp only [readResult, hp]
      rfl
    | error e =>
      simp only [readResult, hp]
      rfl

theorem readResult_valid {target : TargetAddr} (h : target.HasValidDomain) :
    readResult target = .ok ⟨.connect, target.onWire⟩ := by
  cases target with
  | ip addr => rfl
  | domain host port =>
    have hp : parseDomain (strBytes host) = .ok host := parseDomain_ok_iff.mpr ⟨rfl, h.1, h.2⟩
    simp only [readResult, hp, TargetAddr.onWire]

theorem readResult_invalid {target : TargetAddr} (h : ¬ target.HasValidDomain) :
    readResult target = .error .invalidDomain := by
  cases target with
  | ip addr => exact absurd trivial h
  | domain host port =>
    have hp : parseDomain (strBytes host) = .error .invalidDomain := by
      cases hp : parseDomain (strBytes host) with
      | ok host' => exact absurd (parseDomain_ok_iff.mp hp).2 h
      | error e =>
        unfold parseDomain at hp
        dsimp only at hp
        split at hp
        · exact hp.symm
        · split at hp
          · simp at hp
          · exact hp.symm
    simp only [readResult, hp]

end Request

/-! ## Messages as bytes -/

section Messages

/-- Anything an encoder writes begins with a version byte. -/
theorem encode_userPass_ne_nil {m : UserPassRequest} {bytes : Bytes} (h : m.encode = .ok bytes)
    (hm : m.WellFormed) : bytes ≠ [] := by
  have henc := encode_userPassRequest hm
  rw [h] at henc
  rw [Except.ok.inj henc]
  simp

theorem encode_reply_ne_nil (code : ReplyCode) : (Reply.new code).encode ≠ [] := by
  simp [Reply.encode, pushSocketAddr_eq]

/-- The reply to a connector error is one that the client knows. -/
theorem exists_fromByte_replyCode (e : ConnectError) : ∃ b, ReplyCode.fromByte b = e.replyCode := by
  cases e with
  | denied r => exact ⟨2, rfl⟩
  | resolve e => exact ⟨4, rfl⟩
  | noAddresses => exact ⟨4, rfl⟩
  | connect e =>
    simp only [ConnectError.replyCode]
    split
    · exact ⟨5, rfl⟩
    · exact ⟨3, rfl⟩
    · exact ⟨4, rfl⟩
    · exact ⟨4, rfl⟩
    · exact ⟨1, rfl⟩

/-- The client reads back any reply of the table. -/
theorem feed_reply {S : Sig} {code : ReplyCode} (h : ∃ b, ReplyCode.fromByte b = code) :
    (Reply.readFrom (S := S)).run.feed (Reply.new code).encode =
      some (.done (.ok (Reply.new code))) := by
  obtain ⟨bytes, henc, hfeed⟩ := (reply_exact (S := S)).feeds (Reply.new code)
    ⟨h, isPlain_new (.v4 .unspecified) 0⟩
  rw [Except.ok.inj henc]
  exact hfeed

end Messages

/-! ## The client -/

section Client

theorem does_clientWrite {encoded : Except ProtocolError Bytes} {bytes : Bytes} (hne : bytes ≠ [])
    (h : encoded = .ok bytes) :
    Does clientOracle 0 (clientWrite encoded).run [.send bytes] 0 (.done (.ok ())) := by
  subst h
  exact Does.bind _ (Task.does_writeAll hne)

theorem does_clientRead {α : Type} {reader : Reader ClientSig α} {bytes : Bytes} {m : α}
    (hne : bytes ≠ []) (h : reader.run.feed bytes = some (.done (.ok m))) :
    Does clientOracle 0 (clientRead reader).run [.recv bytes] 0 (.done (.ok m)) :=
  Does.bind _ (Task.does_recv hne h)

variable {username password : String} {target : TargetAddr} {credentials request : Bytes}

/-- The client up to the answer to its credentials. -/
theorem does_client_authenticate (hne : credentials ≠ [])
    (hcred : UserPassRequest.encode ⟨strBytes username, strBytes password⟩ = .ok credentials)
    {status : UInt8} {v : List Act} {r : Task ClientSig (Except ClientError Reply)}
    (h : Does clientOracle 0
      (if !(UserPassResponse.mk status).isSuccess then throw .authRejected
      else do
        clientWrite (Request.encode { command := .connect, target })
        let reply ← clientRead Reply.readFrom
        if reply.code ≠ .succeeded then throw (.requestRejected reply.code)
        else return reply : ClientStep Reply).run v 0 r) :
    Does clientOracle 0 (clientHandshake username password target).run
      ([.send [5, 1, 2], .recv [5, 2], .send credentials, .recv [1, status]] ++ v) 0 r := by
  refine Does.exceptSeq (v := [.send [5, 1, 2]]) (does_clientWrite (by simp) rfl) ?_
  refine Does.exceptSeq (v := [.recv [5, 2]])
    (does_clientRead (m := ⟨methodUserPass⟩) (by simp) rfl) ?_
  rw [if_neg (by simp)]
  refine Does.exceptSeq (v := [.send credentials]) (does_clientWrite hne hcred) ?_
  exact Does.exceptSeq (v := [.recv [1, status]])
    (does_clientRead (m := ⟨status⟩) (by simp) rfl) h

/-- A client with the wrong password writes nothing after its credentials. -/
theorem does_client_rejected (hne : credentials ≠ [])
    (hcred : UserPassRequest.encode ⟨strBytes username, strBytes password⟩ = .ok credentials) :
    Does clientOracle 0 (clientHandshake username password target).run
      [.send [5, 1, 2], .recv [5, 2], .send credentials, .recv [1, 1]] 0
      (.done (.error .authRejected)) :=
  does_client_authenticate hne hcred (v := []) ⟨rfl, rfl⟩

/-- The client up to the reply. -/
theorem does_client_reply (hne : credentials ≠ [])
    (hcred : UserPassRequest.encode ⟨strBytes username, strBytes password⟩ = .ok credentials)
    (hne' : request ≠ []) (hreq : Request.encode ⟨.connect, target⟩ = .ok request)
    {code : ReplyCode} (hcode : ∃ b, ReplyCode.fromByte b = code) :
    Does clientOracle 0 (clientHandshake username password target).run
      [.send [5, 1, 2], .recv [5, 2], .send credentials, .recv [1, 0], .send request,
        .recv (Reply.new code).encode] 0
      (.done (if code = .succeeded then .ok (Reply.new .succeeded)
        else .error (.requestRejected code))) := by
  refine does_client_authenticate hne hcred (v := [.send request, .recv (Reply.new code).encode])
    ?_
  rw [if_neg (by decide)]
  refine Does.exceptSeq (v := [.send request]) (does_clientWrite hne' hreq) ?_
  refine Does.exceptSeq (v := [.recv (Reply.new code).encode]) (w := [])
    (does_clientRead (m := Reply.new code) (encode_reply_ne_nil code) (feed_reply hcode)) ?_
  by_cases hs : code = .succeeded
  · subst hs
    rw [if_pos rfl, if_neg (by simp [Reply.new])]
    exact ⟨rfl, rfl⟩
  · rw [if_neg hs, if_pos (by simpa [Reply.new] using hs)]
    exact ⟨rfl, rfl⟩

end Client

/-! ## The server -/

section Server

variable {users : UserStore} {verdict : FailureVerdict}
  {net : (op : ConnOp) → Nat → Option op.Ret} {n : Nat}

/-- Reading one message whose bytes are all there takes one event. -/
theorem does_readMessage {α : Type} {O : Task.Oracle ConnSig} {reader : Reader ConnSig α}
    {bytes : Bytes} {m : α} (hne : bytes ≠ [])
    (h : reader.run.feed bytes = some (.done (.ok m))) :
    Does O n (readMessage reader).run [.recv bytes] n (.done (.ok m)) :=
  Does.bind _ (Task.does_recv hne h)

/-- So does writing one. -/
theorem does_writeMessage {O : Task.Oracle ConnSig} {bytes : Bytes} (hne : bytes ≠ []) :
    Does O n (writeMessage bytes).run [.send bytes] n (.done (.ok ())) :=
  Does.bind _ (Task.does_writeAll hne)

theorem does_ofTask {α : Type} {O : Task.Oracle ConnSig} {p : Task ConnSig α} {acts : List Act}
    {m : Nat} {a : α} (h : Does O n p acts m (.done a)) :
    Does O n (Phase.ofTask p).run acts m (.done (.ok a)) := Does.bind _ h

theorem does_call {O : Task.Oracle ConnSig} {c : ConnCall} {r : c.Res} (h : O.call c = r) :
    Does O n (Phase.call c).run [.silent] n (.done (.ok r)) := by
  subst h
  exact does_ofTask Task.does_callOp

theorem does_sendReply {O : Task.Oracle ConnSig} {code : ReplyCode} :
    Does O n (sendReply code) [.send (Reply.new code).encode] n (.done ()) :=
  Does.bind _ (Does.timeout (Task.does_writeAll (encode_reply_ne_nil code)))

/-- The server takes the greeting of the client and selects username/password. -/
theorem does_negotiateMethod {O : Task.Oracle ConnSig} :
    Does O n negotiateMethod.run [.recv [5, 1, 2], .send [5, 2]] n (.done (.ok ())) := by
  refine Does.exceptSeq (v := [.recv [5, 1, 2]])
    (does_readMessage (m := ⟨[methodUserPass]⟩) (by simp) rfl) ?_
  rw [if_pos (by decide)]
  exact does_writeMessage (by decide)

variable {username password credentials request : Bytes} {peer : SocketAddr}

theorem does_authenticate_ok {user : String} (hne : credentials ≠ [])
    (hfeed : (UserPassRequest.readFrom (S := ConnSig)).run.feed credentials =
      some (.done (.ok ⟨username, password⟩)))
    (hverify : users.verify username password = some user) :
    Does (connOracle users verdict net) n (authenticate peer).run
      [.recv credentials, .silent, .silent, .send [1, 0]] n (.done (.ok ())) := by
  refine Does.exceptSeq (v := [.recv credentials]) (does_readMessage hne hfeed) ?_
  refine Does.exceptSeq (v := [.silent])
    (does_call (c := .verify username password) (r := some user) hverify) ?_
  refine Does.exceptSeq (v := [.silent]) (does_call rfl) ?_
  exact does_writeMessage (by decide)

theorem does_authenticate_failed (hne : credentials ≠ [])
    (hfeed : (UserPassRequest.readFrom (S := ConnSig)).run.feed credentials =
      some (.done (.ok ⟨username, password⟩)))
    (hverify : users.verify username password = none) :
    Does (connOracle users verdict net) n (authenticate peer).run
      [.recv credentials, .silent, .silent, .silent, .send [1, 1]] n
      (.done (.error .authFailed)) := by
  refine Does.exceptSeq (v := [.recv credentials]) (does_readMessage hne hfeed) ?_
  refine Does.exceptSeq (v := [.silent])
    (does_call (c := .verify username password) (r := none) hverify) ?_
  refine Does.exceptSeq (v := [.silent]) (does_call rfl) ?_
  refine Does.exceptSeq (v := [.silent]) (does_call rfl) ?_
  refine Does.exceptSeq (v := [.send [1, 1]]) (w := []) (a := .ok ())
    (does_ofTask (Task.does_writeAll (by decide))) ?_
  exact ⟨rfl, rfl⟩

/-- The request of a client, once its bytes are known. -/
theorem does_readConnectRequest_ok {O : Task.Oracle ConnSig} {target : TargetAddr}
    (hne : request ≠ []) (hfeed : (Request.readFrom (S := ConnSig)).run.feed request =
      some (.done (.ok ⟨.connect, target⟩))) :
    Does O n readConnectRequest.run [.recv request] n (.done (.ok target)) := by
  refine Does.exceptSeq (v := [.recv request]) (w := []) (a := .ok ⟨.connect, target⟩)
    (does_ofTask (Task.does_recv hne hfeed)) ?_
  exact ⟨rfl, rfl⟩

theorem does_readConnectRequest_invalid {O : Task.Oracle ConnSig} (hne : request ≠ [])
    (hfeed : (Request.readFrom (S := ConnSig)).run.feed request =
      some (.done (.error .invalidDomain))) :
    Does O n readConnectRequest.run [.recv request, .send (Reply.new .generalFailure).encode] n
      (.done (.error .invalidDomain)) := by
  refine Does.exceptSeq (v := [.recv request]) (a := .error .invalidDomain)
    (does_ofTask (Task.does_recv hne hfeed)) ?_
  refine Does.exceptSeq (v := [.send _]) (w := []) (does_ofTask does_sendReply) ?_
  exact ⟨rfl, rfl⟩

/-! ### The connect phase -/

/-- The address that was connected to is one whose connect was answered. -/
def ConnectAnswered (net : (op : ConnOp) → Nat → Option op.Ret)
    (outcome : Option (Except ConnectError ConnectedTarget)) : Prop :=
  ∀ connected, outcome = some (.ok connected) →
    ∃ n, net (.tcpConnect connected.addr) n = some (.ok ())

theorem settle_tryConnect (lastError : Option IoError) (addrs : List SocketAddr) (n : Nat) :
    ∃ m outcome, Task.settle (connOracle users verdict net) n (tryConnect lastError addrs).timeout =
      (m, .done outcome) ∧ ConnectAnswered net outcome := by
  -- the oracle counts the attempts, so `n` grows along the list
  induction addrs generalizing lastError n with
  | nil => exact ⟨n, _, rfl, by simp [ConnectAnswered]⟩
  | cons addr rest ih =>
    rw [tryConnect]
    cases hnet : net (.tcpConnect addr) n with
    | none =>
      exact ⟨n + 1, none, Task.settle_elapsed (S := ConnSig) (o := .tcpConnect addr)
        (by simp [connOracle, hnet]), by simp [ConnectAnswered]⟩
    | some r =>
      have hready : (connOracle users verdict net).await (.tcpConnect addr) n = .ready r := by
        simp [connOracle, hnet]
      cases r with
      | ok u =>
        refine ⟨n + 1, some (.ok { addr }),
          Task.settle_ready (S := ConnSig) (o := .tcpConnect addr) hready, ?_⟩
        rintro _ ⟨⟩
        exact ⟨n, hnet⟩
      | error e =>
        obtain ⟨m, outcome, h, hanswered⟩ := ih (some e) (n + 1)
        exact ⟨m, outcome,
          (Task.settle_ready (S := ConnSig) (o := .tcpConnect addr) hready).trans h, hanswered⟩

variable (users verdict net) in
theorem settle_connectToResolved (policy : DestinationPolicy) (resolved : List SocketAddr)
    (n : Nat) :
    ∃ m outcome, Task.settle (connOracle users verdict net) n
      (connectToResolved policy resolved).timeout = (m, .done outcome) ∧
        ConnectAnswered net outcome := by
  unfold connectToResolved
  dsimp only
  split
  · exact ⟨n, _, rfl, by simp [ConnectAnswered]⟩
  · exact settle_tryConnect _ _ _

variable (users verdict net) in
/-- **The connect phase** always comes to an end, and connects only where a connect is answered. -/
theorem settle_connectToTarget (policy : DestinationPolicy) (target : TargetAddr) :
    ∃ m, Task.settle (connOracle users verdict net) 0 (connectToTarget policy target).timeout =
      (m, .done (connectOutcome (connOracle users verdict net) policy target)) ∧
        ConnectAnswered net (connectOutcome (connOracle users verdict net) policy target) := by
  suffices h : ∃ m outcome, Task.settle (connOracle users verdict net) 0
      (connectToTarget policy target).timeout = (m, .done outcome) ∧
        ConnectAnswered net outcome by
    obtain ⟨m, outcome, h, hanswered⟩ := h
    have hout : connectOutcome (connOracle users verdict net) policy target = outcome := by
      rw [connectOutcome, h]
    rw [hout]
    exact ⟨m, h, hanswered⟩
  rw [connectToTarget]
  cases target with
  | ip addr => exact settle_connectToResolved users verdict net policy [addr] 0
  | domain host port =>
    cases hnet : net (.lookupHost host port) 0 with
    | none =>
      exact ⟨1, none, Task.settle_elapsed (S := ConnSig) (o := .lookupHost host port) (n := 0)
        (by simp [connOracle, hnet]), by simp [ConnectAnswered]⟩
    | some r =>
      have hready : (connOracle users verdict net).await (.lookupHost host port) 0 = .ready r := by
        simp [connOracle, hnet]
      cases r with
      | ok resolved =>
        obtain ⟨m, outcome, h, hanswered⟩ :=
          settle_connectToResolved users verdict net policy resolved 1
        exact ⟨m, outcome,
          (Task.settle_ready (S := ConnSig) (o := .lookupHost host port) hready).trans h,
          hanswered⟩
      | error e =>
        exact ⟨1, some (.error (.resolve e)),
          Task.settle_ready (S := ConnSig) (o := .lookupHost host port) hready,
          by simp [ConnectAnswered]⟩

/-- **A connect phase that succeeds** has an address whose connect was answered with success. -/
theorem answered_of_connectOutcome {policy : DestinationPolicy} {target : TargetAddr}
    {connected : ConnectedTarget}
    (h : connectOutcome (connOracle users verdict net) policy target = some (.ok connected)) :
    ∃ n, net (.tcpConnect connected.addr) n = some (.ok ()) := by
  obtain ⟨m, -, hanswered⟩ := settle_connectToTarget users verdict net policy target
  exact hanswered connected h

/-- The reply that the outcome of the connect phase calls for. -/
def connectReply : Option (Except ConnectError ConnectedTarget) → ReplyCode
  | some (.ok _) => .succeeded
  | some (.error e) => e.replyCode
  | none => .hostUnreachable

/-- The server at the entry of the relay. -/
def relaying : Task ConnSig CloseReason :=
  (Task.awaitOp (S := ConnSig) .relay).bind fun result => .done (.ofRelayEnd result)

theorem halted_relaying : Task.Halted (connOracle users verdict net) n relaying :=
  ⟨rfl, fun _ _ _ h => by cases h⟩

theorem halted_done {S : Sig} {α : Type} {O : Task.Oracle S} (a : α) :
    Task.Halted O n (.done a) := ⟨rfl, by simp⟩

theorem does_serveTarget {O : Task.Oracle ConnSig} {addr : SocketAddr} :
    Does O n (serveTarget addr) [.silent, .send (Reply.new .succeeded).encode, .silent] n
      relaying := by
  refine Does.seq (v := [.silent]) Task.does_callOp ?_
  refine Does.seq (v := [.send (Reply.new .succeeded).encode]) (a := some (.ok ()))
    (Does.timeout (Task.does_writeAll (encode_reply_ne_nil _))) ?_
  refine Does.seq (v := [.silent]) (w := []) Task.does_callOp ?_
  exact ⟨rfl, rfl⟩

/-- From the request on: silent steps, one reply, and then the relay or the end. -/
theorem does_serveRequest (policy : DestinationPolicy) (target : TargetAddr)
    {outcome : Option (Except ConnectError ConnectedTarget)}
    (hout : connectOutcome (connOracle users verdict net) policy target = outcome) :
    ∃ k j m q, Does (connOracle users verdict net) 0 (serveRequest policy target)
        (List.replicate k .silent ++
          (.send (Reply.new (connectReply outcome)).encode :: List.replicate j .silent)) m q ∧
      Task.Halted (connOracle users verdict net) m q ∧
      (connectReply outcome = .succeeded → q = relaying) := by
  obtain ⟨m, hsettle, -⟩ := settle_connectToTarget users verdict net policy target
  obtain ⟨k, hdoes⟩ := Task.does_settle (connOracle users verdict net) 0
    (connectToTarget policy target).timeout
  rw [hsettle, hout] at hdoes
  -- `set_target` comes before the `k` steps of the connector, `set_target_addr` after them
  match outcome, hdoes with
  | some (.ok connected), hdoes =>
    refine ⟨k + 1 + 1, 1, m, relaying, ?_, halted_relaying, fun _ => rfl⟩
    have hacts : List.replicate (k + 1 + 1) Act.silent = [.silent] ++ (List.replicate k .silent ++
        [.silent]) := by
      rw [List.replicate_succ, List.replicate_succ']
      rfl
    rw [hacts, List.append_assoc, List.append_assoc]
    exact Does.seq (v := [.silent]) Task.does_callOp (Does.seq hdoes does_serveTarget)
  | some (.error e), hdoes =>
    refine ⟨k + 1, 0, m, .done e.toCloseReason, ?_, halted_done _,
      fun h => absurd h e.replyCode_ne_succeeded⟩
    exact Does.seq (v := [.silent]) Task.does_callOp
      (Does.seq hdoes (Does.seq (v := [.send _]) (w := []) does_sendReply ⟨rfl, rfl⟩))
  | none, hdoes =>
    refine ⟨k + 1, 0, m, .done .connectTimeout, ?_, halted_done _, by simp [connectReply]⟩
    exact Does.seq (v := [.silent]) Task.does_callOp
      (Does.seq hdoes (Does.seq (v := [.send _]) (w := []) does_sendReply ⟨rfl, rfl⟩))

variable {policy : DestinationPolicy} {acts acts' : List Act}

/-- The server when its handshake says that the connection must be closed. -/
theorem does_run_closed {reason : CloseReason}
    (h : Does (connOracle users verdict net) 0 (handshake peer).run acts 0
      (.done (.error reason))) :
    Does (connOracle users verdict net) 0 (runConnection policy peer) acts 0 (.done reason) := by
  rw [← List.append_nil acts]
  exact Does.seq (w := []) (Does.timeout h) ⟨rfl, rfl⟩

/-- The server when its handshake gives a target. -/
theorem does_run_target {target : TargetAddr} {m : Nat} {q : Task ConnSig CloseReason}
    (h : Does (connOracle users verdict net) 0 (handshake peer).run acts 0 (.done (.ok target)))
    (h' : Does (connOracle users verdict net) 0 (serveRequest policy target) acts' m q) :
    Does (connOracle users verdict net) 0 (runConnection policy peer) (acts ++ acts') m q :=
  Does.seq (Does.timeout h) h'

/-- The server when the credentials are wrong. -/
theorem does_handshake_rejected (hne : credentials ≠ [])
    (hfeed : (UserPassRequest.readFrom (S := ConnSig)).run.feed credentials =
      some (.done (.ok ⟨username, password⟩)))
    (hverify : users.verify username password = none) :
    Does (connOracle users verdict net) 0 (handshake peer).run
      ([.recv [5, 1, 2], .send [5, 2]] ++
        [.recv credentials, .silent, .silent, .silent, .send [1, 1]]) 0
      (.done (.error .authFailed)) :=
  Does.exceptSeq does_negotiateMethod
    (Does.exceptError (does_authenticate_failed hne hfeed hverify))

/-- The server when the credentials are right. -/
theorem does_handshake_request {user : String} (hne : credentials ≠ [])
    (hfeed : (UserPassRequest.readFrom (S := ConnSig)).run.feed credentials =
      some (.done (.ok ⟨username, password⟩)))
    (hverify : users.verify username password = some user)
    {result : Except CloseReason TargetAddr}
    (hreq : Does (connOracle users verdict net) 0 readConnectRequest.run acts 0 (.done result)) :
    Does (connOracle users verdict net) 0 (handshake peer).run
      ([.recv [5, 1, 2], .send [5, 2]] ++
        ([.recv credentials, .silent, .silent, .send [1, 0]] ++ acts)) 0 (.done result) :=
  Does.exceptSeq does_negotiateMethod
    (Does.exceptSeq (does_authenticate_ok hne hfeed hverify) hreq)

end Server

/-! ## Agreement -/

section Agreement

variable {users : UserStore} {verdict : FailureVerdict}
  {net : (op : ConnOp) → Nat → Option op.Ret} {policy : DestinationPolicy} {peer : SocketAddr}
  {username password : String} {target : TargetAddr} {es : List (Task.Move ⊕ Task.Move)}
  {d : Task.Duplex ClientSig ConnSig (Except ClientError Reply) CloseReason}

/-- Client and server on a fresh connection. -/
def freshConnection (policy : DestinationPolicy) (peer : SocketAddr) (username password : String)
    (target : TargetAddr) : Task.Duplex ClientSig ConnSig (Except ClientError Reply) CloseReason :=
  ⟨⟨(clientHandshake username password target).run, [], 0⟩, ⟨runConnection policy peer, [], 0⟩⟩

/-- What the client makes of a reply. -/
def clientResult (code : ReplyCode) : Except ClientError Reply :=
  if code = .succeeded then .ok (Reply.new .succeeded) else .error (.requestRejected code)

theorem exists_fromByte_connectReply (outcome : Option (Except ConnectError ConnectedTarget)) :
    ∃ b, ReplyCode.fromByte b = connectReply outcome := by
  match outcome with
  | some (.ok connected) => exact ⟨0, rfl⟩
  | some (.error e) => exact exists_fromByte_replyCode e
  | none => exact ⟨4, rfl⟩

/-- The two parties up to the credentials, which both of them read as the same bytes. -/
theorem feed_credentials (huser : (strBytes username).length ≤ 255)
    (hpass : (strBytes password).length ≤ 255) :
    ∃ credentials, UserPassRequest.encode ⟨strBytes username, strBytes password⟩ = .ok credentials ∧
      credentials ≠ [] ∧ (UserPassRequest.readFrom (S := ConnSig)).run.feed credentials =
        some (.done (.ok ⟨strBytes username, strBytes password⟩)) := by
  have hm : UserPassRequest.WellFormed ⟨strBytes username, strBytes password⟩ := ⟨huser, hpass⟩
  obtain ⟨credentials, henc, hfeed⟩ := (userPassRequest_exact (S := ConnSig)).feeds _ hm
  exact ⟨credentials, henc, encode_userPass_ne_nil henc hm, hfeed⟩

variable (huser : (strBytes username).length ≤ 255) (hpass : (strBytes password).length ≤ 255)
  (hrun : run (Task.Duplex.step clientOracle (connOracle users verdict net))
    (freshConnection policy peer username password target) es = some d)
  (hstuck : ∀ e, d.step clientOracle (connOracle users verdict net) e = none)

include huser hpass hrun hstuck

theorem agreement_rejected
    (hverify : users.verify (strBytes username) (strBytes password) = none) :
    d.left = ⟨.done (.error .authRejected), [], 0⟩ := by
  obtain ⟨credentials, henc, hne, hfeed⟩ := feed_credentials huser hpass
  have hdual : Dual
      [.send [5, 1, 2], .recv [5, 2], .send credentials, .recv [1, 1]]
      [.recv [5, 1, 2], .send [5, 2], .recv credentials, .silent, .silent, .silent,
        .send [1, 1]] :=
    -- the client waits while the server checks, counts and records the failure
    .leftSend (.rightSend (.leftSend (Dual.rightSilents Task.waiting_recv (.rightSend .nil) 3)))
  exact (Task.stuck_eq (does_client_rejected hne henc)
    (does_run_closed (does_handshake_rejected hne hfeed hverify)) hdual (halted_done _)
    (halted_done _) hrun hstuck).1

/-- The part of the server that depends on the target: silent steps around one reply. -/
theorem agreement_reply (k j : Nat) {request : Bytes} {code : ReplyCode} {m : Nat}
    {q : Task ConnSig CloseReason}
    (hreq : Request.encode ⟨.connect, target⟩ = .ok request) (hne : request ≠ [])
    (hcode : ∃ b, ReplyCode.fromByte b = code)
    (hserver : ∀ credentials,
      (credentials ≠ [] ∧ (UserPassRequest.readFrom (S := ConnSig)).run.feed credentials =
        some (.done (.ok ⟨strBytes username, strBytes password⟩))) →
      Does (connOracle users verdict net) 0 (runConnection policy peer)
        ([.recv [5, 1, 2], .send [5, 2]] ++
          ([.recv credentials, .silent, .silent, .send [1, 0]] ++ (.recv request ::
            (List.replicate k .silent ++
              (.send (Reply.new code).encode :: List.replicate j .silent))))) m q)
    (hq : Task.Halted (connOracle users verdict net) m q) :
    d.left = ⟨.done (clientResult code), [], 0⟩ ∧ d.right = ⟨q, [], m⟩ := by
  obtain ⟨credentials, henc, hne', hfeed⟩ := feed_credentials huser hpass
  have hlast : Dual [.recv (Reply.new code).encode]
      (List.replicate k .silent ++
        (.send (Reply.new code).encode :: List.replicate j .silent)) := by
    refine Dual.rightSilents Task.waiting_recv (.rightSend ?_) k
    have h := Dual.rightSilents Task.waiting_nil .nil j
    rw [List.append_nil] at h
    exact h
  have hdual : Dual
      [.send [5, 1, 2], .recv [5, 2], .send credentials, .recv [1, 0], .send request,
        .recv (Reply.new code).encode] _ :=
    .leftSend (.rightSend (.leftSend
      (Dual.rightSilents Task.waiting_recv (.rightSend (.leftSend hlast)) 2)))
  exact Task.stuck_eq (does_client_reply hne' henc hne hreq hcode)
    (hserver credentials ⟨hne', hfeed⟩) hdual (halted_done _) hq hrun hstuck

theorem agreement_invalid {user : String} {request : Bytes}
    (hverify : users.verify (strBytes username) (strBytes password) = some user)
    (hreq : Request.encode ⟨.connect, target⟩ = .ok request) (hvalid : ¬ target.HasValidDomain) :
    d.left = ⟨.done (clientResult .generalFailure), [], 0⟩ := by
  obtain ⟨hne, hread⟩ := feed_encoded_request (S := ConnSig) hreq
  rw [readResult_invalid hvalid] at hread
  refine (agreement_reply huser hpass hrun hstuck 0 0 (q := .done .invalidDomain) (m := 0) hreq hne
    ⟨1, rfl⟩ ?_ (halted_done _)).1
  intro credentials h
  exact does_run_closed (does_handshake_request h.1 h.2 hverify
    (does_readConnectRequest_invalid hne hread))

theorem agreement_valid {user : String} {request : Bytes}
    (hverify : users.verify (strBytes username) (strBytes password) = some user)
    (hreq : Request.encode ⟨.connect, target⟩ = .ok request) (hvalid : target.HasValidDomain)
    {outcome : Option (Except ConnectError ConnectedTarget)}
    (hout : connectOutcome (connOracle users verdict net) policy target.onWire = outcome) :
    d.left = ⟨.done (clientResult (connectReply outcome)), [], 0⟩ ∧ d.right.inbox = [] ∧
      (connectReply outcome = .succeeded → d.right.task = relaying) := by
  obtain ⟨hne, hread⟩ := feed_encoded_request (S := ConnSig) hreq
  rw [readResult_valid hvalid] at hread
  obtain ⟨k, j, m, q, hserve, hhalt, hrelay⟩ := does_serveRequest policy target.onWire hout
  have hend := agreement_reply huser hpass hrun hstuck k j hreq hne
    (exists_fromByte_connectReply outcome) (fun credentials h => ?_) hhalt
  · refine ⟨hend.1, by rw [hend.2], ?_⟩
    intro hs
    rw [hend.2]
    exact hrelay hs
  · have hconn : Does _ 0 (runConnection policy peer) (_ ++ _) m q :=
      does_run_target (does_handshake_request h.1 h.2 hverify
        (does_readConnectRequest_ok hne hread)) hserve
    exact hconn

end Agreement

/--
**Agreement.** Whatever the schedule and however reads and writes are cut: when neither party
can move, the client has returned. It returns the success reply exactly when the credentials
are right, the domain is valid and the connect phase has connected, and then the server enters
the relay with nothing left in either channel. Otherwise its error says what the server chose.
-/
theorem handshake_agreement (users : UserStore) (verdict : FailureVerdict)
    (net : (op : ConnOp) → Nat → Option op.Ret) (policy : DestinationPolicy) (peer : SocketAddr)
    (username password : String) (target : TargetAddr)
    (huser : (strBytes username).length ≤ 255) (hpass : (strBytes password).length ≤ 255)
    (hreq : ∃ request, Request.encode ⟨.connect, target⟩ = .ok request)
    (es : List (Task.Move ⊕ Task.Move))
    (d : Task.Duplex ClientSig ConnSig (Except ClientError Reply) CloseReason)
    (hrun : run (Task.Duplex.step clientOracle (connOracle users verdict net))
      (freshConnection policy peer username password target) es = some d)
    (hstuck : ∀ e, d.step clientOracle (connOracle users verdict net) e = none) :
    let verified := users.verify (strBytes username) (strBytes password)
    let outcome := connectOutcome (connOracle users verdict net) policy target.onWire
    ∃ result, d.left.task = .done result ∧
      ((∃ reply, result = .ok reply ∧ reply.code = .succeeded) ↔
        verified.isSome ∧ target.HasValidDomain ∧ ∃ connected, outcome = some (.ok connected)) ∧
      (∀ reply, result = .ok reply → reply.code = .succeeded ∧ d.left.inbox = [] ∧
        d.right.inbox = [] ∧ d.right.task = relaying) ∧
      (result = .error .authRejected ↔ verified = none) ∧
      ∀ code, result = .error (.requestRejected code) ↔ verified.isSome ∧
        (¬ target.HasValidDomain ∧ code = .generalFailure ∨
          target.HasValidDomain ∧
            ((∃ e, outcome = some (.error e) ∧ code = e.replyCode) ∨
              outcome = none ∧ code = .hostUnreachable)) := by
  intro verified outcome
  obtain ⟨request, hreq⟩ := hreq
  cases hverify : verified with
  | none =>
    have hend := agreement_rejected huser hpass hrun hstuck hverify
    exact ⟨.error .authRejected, by rw [hend], by simp, by simp, by simp, by simp⟩
  | some user =>
    by_cases hvalid : target.HasValidDomain
    · obtain ⟨hleft, hinbox, hrelay⟩ := agreement_valid huser hpass hrun hstuck hverify hreq hvalid
        (show _ = outcome from rfl)
      refine ⟨clientResult (connectReply outcome), by rw [hleft], ?_⟩
      rw [hleft]
      clear_value outcome
      match outcome with
      | some (.ok connected) =>
        simp [clientResult, connectReply, Reply.new, hvalid, hinbox, hrelay rfl]
      | some (.error e) =>
        simp [clientResult, connectReply, e.replyCode_ne_succeeded, hvalid, eq_comm]
      | none => simp [clientResult, connectReply, hvalid, eq_comm]
    · have hend := agreement_invalid huser hpass hrun hstuck hverify hreq hvalid
      refine ⟨clientResult .generalFailure, by rw [hend], ?_⟩
      simp [clientResult, hvalid, eq_comm]

/-- A client that gets through, with its messages cut into pieces. -/
theorem handshake_agreement_to_relay :
    let users := UserStore.oneUser
    let O := connOracle users (.counted 1) fun
      | .lookupHost _ _, _ => none
      | .tcpConnect _, _ => some (.ok ())
      | .relay, _ => none
    let start := freshConnection ⟨[], false, []⟩ (.v4 (.new 203 0 113 5) 40000) "a" "b"
      (.ip (.v4 (.new 8 8 8 8) 53))
    ∃ es d, run (Task.Duplex.step clientOracle O) start es = some d ∧
      (∀ e, d.step clientOracle O e = none) ∧
      ∃ reply, d.left.task = .done (.ok reply) ∧ d.right.task = relaying := by
  intro users O start
  let es : List (Task.Move ⊕ Task.Move) :=
    [.inl (.send [5]), .inr (.recv 1), .inl (.send [1, 2]), .inr (.recv 1), .inr (.recv 1),
      .inr (.send [5, 2]), .inl (.recv 1), .inl (.recv 1), .inl (.send [1, 1, 97, 1, 98]),
      .inr (.recv 1), .inr (.recv 1), .inr (.recv 1), .inr (.recv 1), .inr (.recv 1), .inr .silent,
      .inr .silent, .inr (.send [1, 0]), .inl (.recv 1), .inl (.recv 1),
      .inl (.send [5, 1, 0, 1, 8, 8, 8, 8, 0, 53]), .inr (.recv 4), .inr (.recv 4), .inr (.recv 2),
      .inr .silent, .inr .silent, .inr .silent, .inr .silent,
      .inr (.send [5, 0, 0, 1, 0, 0, 0, 0, 0, 0]), .inl (.recv 4), .inr .silent, .inl (.recv 4),
      .inl (.recv 2)]
  have hblocked : (run (Task.Duplex.step clientOracle O) start es).map
      (fun d => d.left.blocked clientOracle && d.right.blocked O) = some true := by
    decide +kernel
  obtain ⟨d, hrun, hd⟩ := Option.map_eq_some_iff.mp hblocked
  have hstuck := Task.Duplex.step_of_blocked hd
  obtain ⟨result, hresult, hok, hrelay, -, -⟩ := handshake_agreement users _ _ _ _ "a" "b" _
    (by decide +kernel) (by decide +kernel) ⟨_, rfl⟩ es d hrun hstuck
  obtain ⟨reply, rfl, -⟩ := hok.mpr ⟨by decide +kernel, trivial, ⟨_⟩, by rfl⟩
  exact ⟨es, d, hrun, hstuck, reply, hresult, (hrelay reply rfl).2.2.2⟩

end SocksServer
