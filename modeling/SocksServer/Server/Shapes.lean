import SocksServer.Infra.Shape
import SocksServer.Server.ConnectContract
import SocksServer.Server.Connection
import SocksServer.Socks.Roundtrip

/-!
# What each phase of a connection can ask for

Whatever the client sends and whatever fails: the errors a reader can end with, the names it
lets through, the calls a phase can make and the futures it can wait for. One lemma for each
reader and each phase; the properties of the server rest on them.
-/

namespace SocksServer

open Infra

/-! ## Readers -/

/-- What can be wrong with a greeting. -/
def GreetingError : ProtocolError → Prop
  | .io _ | .unsupportedVersion _ | .noMethods => True
  | _ => False

/-- What can be wrong with credentials. -/
def UserPassError : ProtocolError → Prop
  | .io _ | .unsupportedAuthVersion _ => True
  | _ => False

/-- What can be wrong with a request. -/
def RequestError : ProtocolError → Prop
  | .io _ | .unsupportedVersion _ | .unsupportedAddressType _ | .invalidDomain => True
  | _ => False

/-- Letters, digits, `-`, `_`, `.` and `:`, and at least one of them. -/
def ValidHost (host : String) : Prop :=
  strBytes host ≠ [] ∧ ∀ b ∈ strBytes host, b ∈ domainAlphabet

def TargetAddr.HasValidHost : TargetAddr → Prop
  | .ip _ => True
  | .domain host _ => ValidHost host

/-- The reader ends with a message in `M` or with an error in `E`, and only reads. -/
def Reads {α : Type} (E : ProtocolError → Prop) (M : α → Prop) (reader : Reader ConnSig α) : Prop :=
  reader.run.All (fun _ => False) (fun _ => False) fun
    | .ok m => M m
    | .error e => E e

section Reads

variable {E : ProtocolError → Prop} {α β : Type} {M : α → Prop} {N : β → Prop}

/-- One reader after the other. -/
theorem Reads.bind {x : Reader ConnSig α} {f : α → Reader ConnSig β} (hx : Reads E M x)
    (hf : ∀ a, M a → Reads E N (f a)) : Reads E N (x >>= f) := by
  refine Task.All.except_bind (Task.All.post ?_ hx)
  intro r hr
  cases r with
  | ok a => exact hf a hr
  | error e => exact hr

theorem reads_throw {e : ProtocolError} (he : E e) : Reads E M (throw e) := he

theorem reads_pure {a : α} (ha : M a) : Reads E M (pure a) := ha

section Fields

variable (hio : ∀ e, E (.io e))

include hio

/-- A field can only fail with an I/O error. -/
theorem reads_readBytes (n : Nat) : Reads E (fun _ => True) (readBytes n) := by
  refine Task.All.bind (Task.all_readExact ?_)
  intro r
  cases r with
  | ok bs => trivial
  | error e => exact hio e

theorem reads_readU8 : Reads E (fun _ => True) readU8 :=
  (reads_readBytes hio 1).bind fun _ _ => reads_pure trivial

theorem reads_readU16 : Reads E (fun _ => True) readU16 :=
  (reads_readBytes hio 2).bind fun _ _ => reads_pure trivial

theorem reads_readU8Prefixed : Reads E (fun _ => True) readU8Prefixed :=
  (reads_readU8 hio).bind fun _ _ => reads_readBytes hio _

end Fields

/-- How reading a greeting can end. -/
theorem reads_greeting : Reads GreetingError (fun _ => True) Greeting.readFrom := by
  have hio : ∀ e, GreetingError (.io e) := fun _ => trivial
  refine (reads_readU8 hio).bind ?_
  intro version _
  split
  · exact reads_throw trivial
  · refine (reads_readU8 hio).bind ?_
    intro count _
    split
    · exact reads_throw trivial
    · exact (reads_readBytes hio _).bind fun _ _ => reads_pure trivial

/-- How reading credentials can end. -/
theorem reads_userPassRequest : Reads UserPassError (fun _ => True) UserPassRequest.readFrom := by
  have hio : ∀ e, UserPassError (.io e) := fun _ => trivial
  refine (reads_readU8 hio).bind ?_
  intro version _
  split
  · exact reads_throw trivial
  · exact (reads_readU8Prefixed hio).bind fun _ _ =>
      (reads_readU8Prefixed hio).bind fun _ _ => reads_pure trivial

theorem parseDomain_error {raw : Bytes} {e : ProtocolError} (h : parseDomain raw = .error e) :
    e = .invalidDomain := by
  unfold parseDomain at h
  dsimp only at h
  split at h
  · exact (Except.error.inj h).symm
  · split at h
    · cases h
    · exact (Except.error.inj h).symm

/-- A name is looked at before it is returned. -/
theorem reads_targetAddr (addressType : UInt8) :
    Reads RequestError TargetAddr.HasValidHost (TargetAddr.readFrom addressType) := by
  have hio : ∀ e, RequestError (.io e) := fun _ => trivial
  unfold TargetAddr.readFrom
  split
  · exact (reads_readBytes hio 4).bind fun _ _ =>
      (reads_readU16 hio).bind fun _ _ => reads_pure trivial
  · split
    · exact (reads_readBytes hio 16).bind fun _ _ =>
        (reads_readU16 hio).bind fun _ _ => reads_pure trivial
    · split
      · refine (reads_readU8Prefixed hio).bind fun raw _ => (reads_readU16 hio).bind ?_
        intro port _
        split
        · next host hparse =>
          obtain ⟨rfl, hne, hbytes⟩ := parseDomain_ok_iff.mp hparse
          exact reads_pure ⟨hne, hbytes⟩
        · next e he =>
          rw [parseDomain_error he]
          exact reads_throw trivial
      · exact reads_throw trivial

/-- How reading a request can end; the name it gives has been checked. -/
theorem reads_request :
    Reads RequestError (fun request => request.target.HasValidHost) Request.readFrom := by
  refine (reads_readBytes (fun _ => trivial) 4).bind ?_
  intro header _
  dsimp only
  split
  · exact reads_throw trivial
  · exact (reads_targetAddr _).bind fun _ h => reads_pure h

end Reads

/-! ## Calls and futures -/

/-- Calls that `authenticate` makes. -/
def AuthCall (peer : SocketAddr) : ConnCall → Prop
  | .verify _ _ | .incrementAuthFailures | .setUser _ => True
  | .recordFailure ip => ip = peer.ip
  | _ => False

/-- Calls from the request on. -/
def ServeCall : ConnCall → Prop
  | .setTarget _ | .connectToTarget _ | .setTargetAddr _ | .relayTcp => True
  | _ => False

/-- What a connection may wait for. -/
def OpAllowed (policy : DestinationPolicy) : ConnOp → Prop
  | .lookupHost host _ => ValidHost host
  | .tcpConnect addr => IsCanonical addr.ip ∧ policy.check addr = .ok ()
  | .relay => True

/-! ## Why a connection ends -/

namespace CloseReason

/-- A reason that the handshake gives, whatever the timers do. -/
def OfHandshake : CloseReason → Prop
  | .handshakeIo _ | .protocol _ | .noAcceptableAuthMethod | .authFailed | .commandNotSupported _
  | .addressTypeNotSupported _ | .invalidDomain => True
  | _ => False

/-- A reason that only the code behind a timer or behind `force_close` gives. -/
def TimerEnd : CloseReason → Prop
  | .handshakeTimeout | .connectTimeout | .shutdown => True
  | _ => False

/-- A protocol error ends the handshake. -/
theorem ofHandshake_ofProtocolError (error : ProtocolError) :
    (ofProtocolError error).OfHandshake := by
  cases error <;> trivial

/-- The handshake itself gives no reason of the timers. -/
theorem OfHandshake.not_timerEnd {reason : CloseReason} (h : reason.OfHandshake) :
    ¬ reason.TimerEnd := by
  cases reason <;> first | exact not_false | exact h.elim

theorem not_timerEnd_ofRelayEnd (result : RelayEnd) : ¬ (ofRelayEnd result).TimerEnd := by
  cases result <;> exact not_false

theorem not_timerEnd_toCloseReason (error : ConnectError) : ¬ error.toCloseReason.TimerEnd := by
  cases error <;> exact not_false

end CloseReason

/-- How a phase of the handshake ends, whatever the timers do. -/
def PhaseEnd {α : Type} (M : α → Prop) : Except CloseReason α → Prop
  | .ok a => M a
  | .error reason => reason.OfHandshake

/-! ## Handshake -/

section Handshake

variable {O : ConnOp → Prop} {C : ConnCall → Prop} {α β : Type} {M : α → Prop} {N : β → Prop}

theorem all_phase_bind {x : Phase α} {f : α → Phase β} (hx : x.run.All O C (PhaseEnd M))
    (hf : ∀ a, M a → (f a).run.All O C (PhaseEnd N)) : (x >>= f).run.All O C (PhaseEnd N) := by
  refine Task.All.except_bind (Task.All.post ?_ hx)
  intro r hr
  cases r with
  | ok a => exact hf a hr
  | error reason => exact hr

/-- A reader asks for no future and calls nothing. -/
theorem Reads.all {E : ProtocolError → Prop} {reader : Reader ConnSig α} (h : Reads E M reader) :
    reader.run.All O C fun
      | .ok m => M m
      | .error e => E e :=
  Task.All.mono (fun _ => False.elim) (fun _ => False.elim) (fun _ h => h) h

/-- A message is read, or ends the handshake. -/
theorem all_readMessage {E : ProtocolError → Prop} {reader : Reader ConnSig α}
    (h : Reads E M reader) : (readMessage reader).run.All O C (PhaseEnd M) := by
  refine Task.All.bind (Task.All.post ?_ h.all)
  intro r hr
  cases r with
  | ok m => exact hr
  | error error => exact CloseReason.ofHandshake_ofProtocolError error

theorem all_ofTask {p : Task ConnSig α} (hp : p.All O C fun _ => True) :
    (Phase.ofTask p).run.All O C (PhaseEnd fun _ => True) :=
  Task.All.bind (Task.All.post (fun _ _ => trivial) hp)

theorem all_call {c : ConnCall} (hc : C c) :
    (Phase.call c).run.All O C (PhaseEnd fun _ => True) :=
  all_ofTask (Task.all_callOp (S := ConnSig) hc fun _ => trivial)

theorem all_writeMessage (bytes : Bytes) :
    (writeMessage bytes).run.All O C (PhaseEnd fun _ => True) := by
  refine Task.All.bind (Task.all_writeAll ?_)
  intro r
  cases r <;> trivial

theorem all_sendReply (code : ReplyCode) : (sendReply code).All O C fun _ => True :=
  Task.All.bind (Task.All.timeout trivial (Task.all_writeAll fun _ => trivial))

/-- An answer, and then the end of the connection. -/
theorem all_lastWord {p : Task ConnSig α} (hp : p.All O C fun _ => True) {reason : CloseReason}
    (hreason : reason.OfHandshake) :
    (do let _ ← Phase.ofTask p; throw reason : Phase β).run.All O C (PhaseEnd N) :=
  all_phase_bind (all_ofTask hp) fun _ _ => hreason

/-- The method negotiation calls nothing. -/
theorem all_negotiateMethod : negotiateMethod.run.All O C (PhaseEnd fun _ => True) := by
  refine all_phase_bind (all_readMessage reads_greeting) ?_
  intro greeting _
  split
  · exact all_writeMessage _
  · exact all_lastWord (Task.all_writeAll fun _ => trivial) trivial

/-- What the authentication calls. -/
theorem all_authenticate {peer : SocketAddr} (hC : ∀ c, AuthCall peer c → C c) :
    (authenticate peer).run.All O C (PhaseEnd fun _ => True) := by
  refine all_phase_bind (all_readMessage reads_userPassRequest) ?_
  intro credentials _
  refine all_phase_bind (all_call (hC _ trivial)) ?_
  intro user _
  cases user with
  | some user => exact all_phase_bind (all_call (hC _ trivial)) fun _ _ => all_writeMessage _
  | none =>
    refine all_phase_bind (all_call (hC _ trivial)) fun _ _ => ?_
    refine all_phase_bind (all_call (hC _ rfl)) fun _ _ => ?_
    exact all_lastWord (Task.all_writeAll fun _ => trivial) trivial

/-- The request calls nothing, and its target is a valid one. -/
theorem all_readConnectRequest :
    readConnectRequest.run.All O C (PhaseEnd TargetAddr.HasValidHost) := by
  refine Task.All.except_bind (Task.All.bind (Task.All.post ?_ reads_request.all))
  intro r hr
  cases r with
  | ok request =>
    show ((if request.command = .connect then pure request.target else do
      Phase.ofTask (sendReply .commandNotSupported)
      throw (.commandNotSupported request.command) : Phase TargetAddr).run).All _ _ _
    split
    · exact hr
    · exact all_lastWord (all_sendReply _) trivial
  | error e =>
    cases e with
    | unsupportedAddressType addressType =>
      exact all_lastWord (all_sendReply .addressTypeNotSupported) trivial
    | invalidDomain => exact all_lastWord (all_sendReply .generalFailure) trivial
    | _ => trivial

/-- **The handshake** awaits nothing, and asks for a valid host or ends for a reason of its own. -/
theorem all_handshake {peer : SocketAddr} (hC : ∀ c, AuthCall peer c → C c) :
    (handshake peer).run.All O C (PhaseEnd TargetAddr.HasValidHost) :=
  all_phase_bind all_negotiateMethod fun _ _ =>
    all_phase_bind (all_authenticate hC) fun _ _ => all_readConnectRequest

end Handshake

/-! ## Connection -/

section Connection

variable {policy : DestinationPolicy} {O : ConnOp → Prop} {C : ConnCall → Prop}

section Connector

variable (hO : ∀ op, OpAllowed policy op → op ≠ .relay → O op)

include hO

/-- Only the addresses of the list are connected to. -/
theorem all_tryConnect {addrs : List SocketAddr} {lastError : Option IoError}
    (h : ∀ addr ∈ addrs, OpAllowed policy (.tcpConnect addr)) :
    (tryConnect lastError addrs).All O C fun _ => True := by
  induction addrs generalizing lastError with
  | nil => trivial
  | cons addr rest ih =>
    refine Task.All.bind (Task.all_awaitOp (S := ConnSig)
      (hO _ (h addr List.mem_cons_self) (by rintro ⟨⟩)) ?_)
    intro r
    cases r with
    | ok u => trivial
    | error e => exact ih fun a ha => h a (List.mem_cons_of_mem _ ha)

/-- Of the resolved addresses only the allowed ones are connected to. -/
theorem all_connectToResolved (resolved : List SocketAddr) :
    (connectToResolved policy resolved).All O C fun _ => True := by
  unfold connectToResolved
  rw [foldl_sortOut]
  dsimp only
  split
  · trivial
  · refine all_tryConnect hO ?_
    intro addr haddr
    have hmem := List.mem_of_mem_take haddr
    exact ⟨isCanonical_of_mem hmem, (mem_allowedAddrs.mp hmem).2⟩

/-- What the connector looks up and connects to. -/
theorem all_connectToTarget {target : TargetAddr} (hC : C (.connectToTarget target))
    (h : ∀ host port, target = .domain host port → O (.lookupHost host port)) :
    (connectToTarget policy target).All O C fun _ => True := by
  refine Task.All.bind (Task.all_callOp (S := ConnSig) hC ?_)
  intro _
  cases target with
  | ip addr => exact all_connectToResolved hO _
  | domain host port =>
    refine Task.All.bind (Task.all_awaitOp (S := ConnSig) (h host port rfl) ?_)
    intro r
    cases r with
    | ok resolved => exact all_connectToResolved hO _
    | error e => trivial

variable (hrelay : O .relay) (hC : ∀ c, ServeCall c → C c)

include hrelay hC

omit hO in
/-- Behind the connector the relay is all that is awaited. -/
theorem all_serveTarget (addr : SocketAddr) : (serveTarget addr).All O C (· ≠ .shutdown) := by
  refine Task.All.bind (Task.all_callOp (S := ConnSig) (hC _ trivial) fun _ => ?_)
  refine Task.All.bind (Task.All.timeout (by rintro ⟨⟩) (Task.all_writeAll ?_))
  intro r
  cases r with
  | error e => rintro ⟨⟩
  | ok u =>
    refine Task.All.bind (Task.all_callOp (S := ConnSig) (hC .relayTcp trivial) fun _ => ?_)
    refine Task.All.bind (Task.all_awaitOp (S := ConnSig) hrelay ?_)
    intro result
    cases result <;> rintro ⟨⟩

/-- What is awaited and called behind the handshake. -/
theorem all_serveRequest {target : TargetAddr}
    (h : ∀ host port, target = .domain host port → O (.lookupHost host port)) :
    (serveRequest policy target).All O C (· ≠ .shutdown) := by
  have hreply : ∀ code (reason : CloseReason), reason ≠ .shutdown →
      ((sendReply code).bind fun () => .done reason).All O C (· ≠ .shutdown) :=
    fun code _ hreason => Task.All.bind (Task.All.post (fun _ _ => hreason) (all_sendReply code))
  refine Task.All.bind (Task.all_callOp (S := ConnSig) (hC _ trivial) fun _ => ?_)
  refine Task.All.bind (Task.All.timeout (hreply _ _ (by rintro ⟨⟩)) (Task.All.post ?_
    (all_connectToTarget hO (hC _ trivial) h)))
  intro r _
  cases r with
  | error e => exact hreply _ _ (by cases e <;> rintro ⟨⟩)
  | ok connected => exact all_serveTarget hrelay hC _

end Connector

/-- **A connection task waits only for what is allowed.** -/
theorem all_serveConnection (policy : DestinationPolicy) (peer : SocketAddr) :
    (serveConnection policy peer).All (OpAllowed policy) (fun _ => True) fun _ => True := by
  refine Task.All.bind (Task.All.timeout trivial ?_)
  refine Task.All.bind (Task.All.timeout trivial (Task.All.post ?_
    (all_handshake fun _ _ => trivial)))
  intro r hr
  cases r with
  | error reason => trivial
  | ok target =>
    refine Task.All.post (fun _ _ => trivial)
      (all_serveRequest (fun _ h _ => h) trivial (fun _ _ => trivial) ?_)
    rintro host port rfl
    exact hr

/-- **`force_close` is the outermost scope of a connection**, and the only way to `shutdown`. -/
theorem scoped_serveConnection (policy : DestinationPolicy) (peer : SocketAddr) :
    (serveConnection policy peer).Scoped (· ≠ .shutdown) .shutdown := by
  refine Task.scoped_timeout (O := fun _ => True) (C := fun _ => True) ?_
  refine Task.All.bind (Task.All.timeout (by rintro ⟨⟩)
    (Task.All.post ?_ (all_handshake fun _ _ => trivial)))
  intro r hr
  cases r with
  | error reason =>
    rintro rfl
    exact hr
  | ok target =>
    exact all_serveRequest (fun _ _ _ => trivial) trivial (fun _ _ => trivial) fun _ _ _ => trivial

/-- Nothing is awaited before `connect_to_target`. -/
theorem guarded_serveConnection (policy : DestinationPolicy) (peer : SocketAddr) :
    (serveConnection policy peer).Guarded fun c =>
      ∃ target, c = ConnCall.connectToTarget target := by
  refine Task.Guarded.bind (Task.Guarded.timeout ?_) fun _ => trivial
  refine Task.Guarded.bind (Task.All.guarded (all_handshake fun _ h => h)).timeout ?_
  rintro (_ | (reason | target))
  · trivial
  · trivial
  · -- `set_target` returns, and `connect_to_target` is what the guard waits for
    exact .inr fun _ => .inl ⟨target, rfl⟩

end Connection

end SocksServer
