import SocksServer.Policy.BanHistory
import SocksServer.Server.ConnectionSafety
import SocksServer.Server.ServerState

/-!
# `server/socks_server.rs`: the whole server

`SocksServer::run` with all its tasks, as one state machine. A step is one half of an `admit`,
one event of one connection task or of its relay, the end of a connection, a purge of the ban
list, or a step of the shutdown. The tasks take their steps in any order.

Time does not run backwards. The ban list reads the clock before it takes its lock, so the
stamp of a call may be older than the step. `wait_for_connections` gives up when its limit is
over, or later. The timers of a connection may fire at any time, except that the cancellation
branch of `serve_connection` needs `force_close`.

* `RunStep`, `Move` — all that a step can do, with its guards
* `move_of_step` — that is all; what every step keeps is proved from it
* `Change` — the same, without what happens inside of a connection
* `step_eq_some` — when a step can be made; runs that are built step by step are built with it
-/

namespace SocksServer

open Infra

/-! ## State -/

/-- Time force-closed connections get to write their final log line. -/
def forceCloseWait : Nat := durationFromSecs 1

/-- Where `run` stands. -/
inductive RunPhase where
  | accepting
  /-- `admit` has let this client past the ban check. -/
  | admitting (peer : SocketAddr)
  /-- The listening socket is closed and `drain` is entered. -/
  | draining
  /-- In `wait_for_connections`, before or after `force_close`; its limit ends at `deadline`. -/
  | waiting (forced : Bool) (deadline : Nat)
  | graceOver
  | forceClosed
  | drained
  deriving DecidableEq, Repr

/-- The accept loop still runs. -/
def RunPhase.accepts : RunPhase → Bool
  | .accepting => true
  | .admitting _ => true
  | _ => false

/-- A task that runs `serve_connection`. -/
structure Connection where
  context : ConnectionContext
  permit : Permit
  task : Task ConnSig CloseReason
  world : ConnWorld
  /-- From `relay_tcp` on. -/
  relay : Option RelayState

/-- What an observer of the server sees. -/
inductive ServerLog where
  /-- The ban check of `admit` has let a client pass. -/
  | passed (peer : SocketAddr)
  /-- What became of a client that `accept()` returned. -/
  | accepted (peer : SocketAddr) (admission : Admission)
  /-- A credential check, and when it was made. -/
  | verified (context : ConnectionContext) (result : Option String) (now : Nat)
  /-- A call of `record_failure`, with the stamp it had. -/
  | failureRecorded (ip : IpAddr) (verdict : FailureVerdict) (stamp : Nat)
  /-- A `record_failure` started a ban. -/
  | banTriggered (ip : IpAddr) (t0 : Nat)
  | finished (context : ConnectionContext) (reason : CloseReason) (counters : RelayCounters)
  deriving DecidableEq

structure Server where
  state : ServerState
  connections : List Connection
  phase : RunPhase
  now : Nat
  /-- Newest last. -/
  log : List ServerLog

inductive ServerEvent where
  /-- `accept()` returns a client, and `admit` runs up to the ban check. -/
  | accept (peer : SocketAddr) (stamp : Nat)
  /-- The rest of `admit`. -/
  | tryAcquire
  | acceptFailed (error : IoError)
  /-- An event of the task of connection number `i`. -/
  | connection (i : Nat) (event : Task.Event ConnSig) (stamp : Nat)
  /-- The relay of connection `i` is entered: what either peer sends, and whether it closes. -/
  | relayTcp (i : Nat) (client target : Bytes × Bool)
  | pump (i : Nat) (side : Side) (outcome : Outcome)
  /-- `run_connection` of connection `i` has ended; its permit is dropped last. -/
  | finish (i : Nat)
  | purge (stamp : Nat)
  | shutdown
  /-- The next step of `drain`. -/
  | drain
  /-- The timer of `wait_for_connections` fires. -/
  | waitElapsed

def ServerEvent.isAccept : ServerEvent → Bool
  | .accept _ _ => true
  | _ => false

/-! ## Connections -/

namespace Connection

/-- `serve_connection`, just spawned. -/
def new (config : ServerConfig) (context : ConnectionContext) (permit : Permit) : Connection where
  context
  permit
  task := serveConnection config.destinationPolicy context.peer
  world := .new
  relay := none

/-- `report.counters` -/
def counters (c : Connection) : RelayCounters := c.relay.elim ⟨0, 0⟩ RelayState.counters

/-- The task and its report after an event. -/
def step (users : UserStore) (c : Connection) (event : Task.Event ConnSig) : Option Connection :=
  ((connWorld users).step (c.task, c.world) event).map fun (task, world) => { c with task, world }

/-- The relay answers when it has ended, and is dropped with the scope around it. -/
def relayStep (c : Connection) : Task.Event ConnSig → Option Connection
  | .answered .relay result =>
    if c.relay.any (·.status = .ended result) then some c else none
  -- wherever the timer stands, the relay is inside of its scope
  | .elapsed _ => some { c with relay := c.relay.map fun relay => (relay.step .drop).getD relay }
  -- `enterRelay` takes this one
  | .returned .relayTcp _ => none
  | _ => some c

/-- The outermost timer of a connection is `force_close`. -/
def mayHappen (c : Connection) (forceClose : Bool) : Task.Event ConnSig → Bool
  | .elapsed i => i + 1 < c.task.timers || forceClose
  | _ => true

end Connection

/-- What an event of a connection task does to the shared state. -/
def ServerState.connectionStep (state : ServerState) (stamp : Nat) :
    Task.Event ConnSig → Option ServerState
  | .returned (.recordFailure ip) verdict =>
    let (answer, banList) := state.banList.recordFailure ip stamp
    if answer = verdict then some { state with banList } else none
  | .returned .incrementAuthFailures _ =>
    some { state with stats.authFailures := state.stats.authFailures.increment }
  | _ => some state

/-- `serve_connection` after `run_connection`. -/
def ServerState.finish (state : ServerState) (c : Connection) (reason : CloseReason) :
    ServerState :=
  let stats := state.stats
  let stats := { stats with
    bytesIn := stats.bytesIn.add (UInt64.ofNat c.counters.clientToTarget)
    bytesOut := stats.bytesOut.add (UInt64.ofNat c.counters.targetToClient) }
  let stats :=
    match reason with
    | .deniedByPolicy _ => { stats with deniedByPolicy := stats.deniedByPolicy.increment }
    | _ => stats
  { state with stats, connectionPermits := state.connectionPermits.dropPermit c.permit }

/-! ## Steps -/

namespace Server

def new (config : ServerConfig) (now : Nat) : Server :=
  { state := .new config, connections := [], phase := .accepting, now, log := [] }

/-- What an observer sees of an event of a connection task. -/
def observe (s : Server) (context : ConnectionContext) (stamp : Nat) :
    Task.Event ConnSig → List ServerLog
  | .returned (.verify _ _) result => [.verified context result s.now]
  | .returned (.recordFailure ip) verdict =>
    .failureRecorded ip verdict stamp ::
      if s.state.banList.triggers ip stamp then [.banTriggered ip stamp] else []
  | _ => []

def setConnection (s : Server) (i : Nat) (c : Connection) : Server :=
  { s with connections := s.connections.set i c }

/-- `tokio::spawn` of an admitted connection. -/
def spawn (s : Server) : Admission → Server
  | .admitted context permit =>
    { s with connections := s.connections ++ [Connection.new s.state.config context permit] }
  | _ => s

/-- `accept()`, and `admit` up to the ban check. -/
def accept (s : Server) (peer : SocketAddr) (stamp : Nat) : Server :=
  match checkClient s.state peer stamp with
  | (.ok peer, state) => { s with state, phase := .admitting peer, log := s.log ++ [.passed peer] }
  | (.error admission, state) =>
    { s with state, log := s.log ++ [.accepted (canonicalAddr peer) admission] }

/-- The rest of `admit`. -/
def tryAcquire (s : Server) (peer : SocketAddr) : Server :=
  let (admission, state) := admitClient s.state peer
  spawn { s with
    state, phase := .accepting, log := s.log ++ [.accepted peer admission] } admission

def connectionStep (s : Server) (i : Nat) (c : Connection) (event : Task.Event ConnSig)
    (stamp : Nat) : Option Server :=
  if c.mayHappen s.state.forceClose event then
    (s.state.connectionStep stamp event).bind fun state =>
    (c.relayStep event).bind fun c =>
    (c.step s.state.config.users event).map fun c =>
      setConnection { s with state, log := s.log ++ s.observe c.context stamp event } i c
  else none

def enterRelay (s : Server) (i : Nat) (c : Connection) (client target : Bytes × Bool) :
    Option Server :=
  (c.step s.state.config.users (.returned .relayTcp ())).map fun c =>
    s.setConnection i { c with
      relay := some (.new s.state.config.timeouts.idle s.now (.new client.1 client.2)
        (.new target.1 target.2)) }

def pumpStep (s : Server) (i : Nat) (c : Connection) (side : Side) (outcome : Outcome) :
    Option Server :=
  c.relay.bind fun relay => (relay.step (.pump side s.now outcome)).map fun relay =>
    s.setConnection i { c with relay := some relay }

def finish (s : Server) (i : Nat) (c : Connection) : Option Server :=
  match c.task with
  | .done reason => some { s with
      state := s.state.finish c reason
      connections := s.connections.eraseIdx i
      log := s.log ++ [.finished c.context reason c.counters] }
  | _ => none

/-- The limit of `wait_for_connections`. -/
def waitLimit (s : Server) (forced : Bool) : Nat :=
  if forced then forceCloseWait else s.state.config.timeouts.shutdownGrace

/-- The first poll of `wait_for_connections`. -/
def startWaiting (s : Server) (forced : Bool) : Server :=
  { s with
    phase := .waiting forced (s.now + s.waitLimit forced)
    state.connectionPermits :=
      s.state.connectionPermits.acquireMany s.state.config.maxConnections.toNat }

/-- `wait_for_connections` returns; the permits it has, if any, are dropped. -/
def stopWaiting (s : Server) (phase : RunPhase) : Server :=
  { s with phase, state.connectionPermits := s.state.connectionPermits.dropAcquire }

/-- `drain`, up to its next await point or observable step. -/
def drain (s : Server) : Option Server :=
  match s.phase with
  | .draining => some (s.startWaiting false)
  | .waiting _ _ =>
    if s.state.connectionPermits.acquired then some (s.stopWaiting .drained) else none
  -- some connections are still open after the grace period
  | .graceOver => some { s with phase := .forceClosed, state.forceClose := true }
  | .forceClosed => some (s.startWaiting true)
  | _ => none

/-- The limit is over. An acquire that is complete wins against the timer. -/
def waitElapsed (s : Server) : Option Server :=
  match s.phase with
  | .waiting forced deadline =>
    if s.now < deadline ∨ s.state.connectionPermits.acquired then none
    else some (s.stopWaiting (if forced then .drained else .graceOver))
  | _ => none

/-- One step, at the time it is made. -/
def act (s : Server) : ServerEvent → Option Server
  | .accept peer stamp =>
    if s.phase = .accepting ∧ stamp ≤ s.now then some (s.accept peer stamp) else none
  | .tryAcquire =>
    match s.phase with
    | .admitting peer => some (s.tryAcquire peer)
    | _ => none
  | .acceptFailed _ => if s.phase = .accepting then some s else none
  | .connection i event stamp =>
    if stamp ≤ s.now then
      s.connections[i]?.bind fun c => s.connectionStep i c event stamp
    else none
  | .relayTcp i client target => s.connections[i]?.bind fun c => s.enterRelay i c client target
  | .pump i side outcome => s.connections[i]?.bind fun c => s.pumpStep i c side outcome
  | .finish i => s.connections[i]?.bind fun c => s.finish i c
  | .purge stamp =>
    if s.phase ≠ .drained ∧ stamp ≤ s.now then
      some { s with state.banList := (s.state.banList.purge stamp).2 }
    else none
  | .shutdown => if s.phase = .accepting then some { s with phase := .draining } else none
  | .drain => s.drain
  | .waitElapsed => s.waitElapsed

def step (s : Server) (e : Nat × ServerEvent) : Option Server :=
  if s.now ≤ e.1 then { s with now := e.1 }.act e.2 else none

end Server

/-! ## What a step can do -/

/-- The entry is about a client that has not been admitted. -/
def ServerLog.ofLoop : ServerLog → Prop
  | .passed _ => True
  | .accepted _ admission => ∀ context permit, admission ≠ .admitted context permit
  | _ => False

/-- A step of the accept loop, of `drain` or of the purger, but for an admission. -/
inductive RunStep (s : Server) : ServerEvent → Server → Prop
  | notWhitelisted (peer : SocketAddr) {stamp : Nat} : s.phase = .accepting →
    s.state.config.clientAcl.isAllowed (canonicalIp peer.ip) = false →
    RunStep s (.accept peer stamp) { s with
      state.stats.rejectedNotWhitelisted := s.state.stats.rejectedNotWhitelisted.increment
      log := s.log ++ [.accepted (canonicalAddr peer) .rejectedNotWhitelisted] }
  | banned (peer : SocketAddr) {stamp : Nat} : s.phase = .accepting → stamp ≤ s.now →
    s.state.config.clientAcl.isAllowed (canonicalIp peer.ip) = true →
    s.state.banList.isBanned (canonicalIp peer.ip) stamp = true →
    RunStep s (.accept peer stamp) { s with
      state.stats.rejectedBanned := s.state.stats.rejectedBanned.increment
      log := s.log ++ [.accepted (canonicalAddr peer) .rejectedBanned] }
  | passed (peer : SocketAddr) {stamp : Nat} : s.phase = .accepting → stamp ≤ s.now →
    s.state.config.clientAcl.isAllowed (canonicalIp peer.ip) = true →
    s.state.banList.isBanned (canonicalIp peer.ip) stamp = false →
    RunStep s (.accept peer stamp) { s with
      phase := .admitting (canonicalAddr peer)
      log := s.log ++ [.passed (canonicalAddr peer)] }
  | overLimit {peer : SocketAddr} : s.phase = .admitting peer →
    s.state.connectionPermits.available = 0 →
    RunStep s .tryAcquire { s with
      state.stats.rejectedOverLimit := s.state.stats.rejectedOverLimit.increment
      phase := .accepting
      log := s.log ++ [.accepted peer .rejectedOverLimit] }
  | acceptFailed (error : IoError) : s.phase = .accepting → RunStep s (.acceptFailed error) s
  | purge {stamp : Nat} : stamp ≤ s.now →
    RunStep s (.purge stamp) { s with state.banList := (s.state.banList.purge stamp).2 }
  | shutdown : s.phase = .accepting → RunStep s .shutdown { s with phase := .draining }
  | startWaiting : s.phase = .draining → RunStep s .drain (s.startWaiting false)
  | allFinished {forced : Bool} {deadline : Nat} : s.phase = .waiting forced deadline →
    s.state.connectionPermits.acquired = true → RunStep s .drain (s.stopWaiting .drained)
  | graceOver {deadline : Nat} : s.phase = .waiting false deadline → deadline ≤ s.now →
    s.state.connectionPermits.acquired = false →
    RunStep s .waitElapsed (s.stopWaiting .graceOver)
  | forceClose : s.phase = .graceOver →
    RunStep s .drain { s with phase := .forceClosed, state.forceClose := true }
  | waitAgain : s.phase = .forceClosed → RunStep s .drain (s.startWaiting true)
  | notInTime {deadline : Nat} : s.phase = .waiting true deadline → deadline ≤ s.now →
    s.state.connectionPermits.acquired = false → RunStep s .waitElapsed (s.stopWaiting .drained)

/-- All that a step can do, with its guards. -/
inductive Move (s : Server) : ServerEvent → Server → Prop
  | run {e : ServerEvent} {s' : Server} : RunStep s e s' → Move s e s'
  | admitted {peer : SocketAddr} {permits : Semaphore} : s.phase = .admitting peer →
    permits.free + 1 = s.state.connectionPermits.free →
    permits.waitsFor = s.state.connectionPermits.waitsFor →
    Move s .tryAcquire { s with
      state := { s.state with
        connectionPermits := permits
        stats.accepted := s.state.stats.accepted.increment
        lastConnectionId := s.state.lastConnectionId + 1 }
      phase := .accepting
      connections := s.connections ++
        [.new s.state.config ⟨s.state.lastConnectionId + 1, peer⟩ ⟨1⟩]
      log := s.log ++
        [.accepted peer (.admitted ⟨s.state.lastConnectionId + 1, peer⟩ ⟨1⟩)] }
  | task (i : Nat) (event : Task.Event ConnSig) {stamp : Nat} {c c₁ c₂ : Connection}
    {state : ServerState} : stamp ≤ s.now → s.connections[i]? = some c →
    c.mayHappen s.state.forceClose event = true →
    s.state.connectionStep stamp event = some state → c.relayStep event = some c₁ →
    c₁.step s.state.config.users event = some c₂ →
    Move s (.connection i event stamp)
      (.setConnection { s with state, log := s.log ++ s.observe c.context stamp event } i c₂)
  | relayTcp (i : Nat) (client target : Bytes × Bool) {c c' : Connection} :
    s.connections[i]? = some c → c.step s.state.config.users (.returned .relayTcp ()) = some c' →
    Move s (.relayTcp i client target) (s.setConnection i { c' with
      relay := some (.new s.state.config.timeouts.idle s.now (.new client.1 client.2)
        (.new target.1 target.2)) })
  | pump (i : Nat) (side : Side) (outcome : Outcome) {c : Connection} {relay relay' : RelayState} :
    s.connections[i]? = some c → c.relay = some relay →
    relay.step (.pump side s.now outcome) = some relay' →
    Move s (.pump i side outcome) (s.setConnection i { c with relay := some relay' })
  | finish (i : Nat) {c : Connection} {reason : CloseReason} : s.connections[i]? = some c →
    c.task = .done reason →
    Move s (.finish i) { s with
      state := s.state.finish c reason
      connections := s.connections.eraseIdx i
      log := s.log ++ [.finished c.context reason c.counters] }

section Move

variable {s s' : Server}

/-- A connection keeps its context. -/
theorem map_context_set {i : Nat} {c c' : Connection} (hc : s.connections[i]? = some c)
    (hcontext : c'.context = c.context) :
    (s.connections.set i c').map Connection.context = s.connections.map Connection.context := by
  obtain ⟨hi, rfl⟩ := List.getElem?_eq_some_iff.mp hc
  rw [List.map_set, hcontext, ← List.map_set, List.set_getElem_self]

theorem Connection.step_context {users : UserStore} {c c' : Connection} {event : Task.Event ConnSig}
    (h : c.step users event = some c') : c'.context = c.context ∧ c'.permit = c.permit := by
  obtain ⟨x, -, rfl⟩ := Option.map_eq_some_iff.mp h
  exact ⟨rfl, rfl⟩

theorem Connection.relayStep_context {c c' : Connection} {event : Task.Event ConnSig}
    (h : c.relayStep event = some c') : c'.context = c.context ∧ c'.permit = c.permit := by
  unfold relayStep at h
  split at h
  · split at h
    · obtain rfl := Option.some.inj h
      exact ⟨rfl, rfl⟩
    · simp at h
  · obtain rfl := Option.some.inj h
    exact ⟨rfl, rfl⟩
  · simp at h
  · obtain rfl := Option.some.inj h
    exact ⟨rfl, rfl⟩

/-- An event of a connection task leaves the connection who it is. -/
theorem Connection.context_of_task {users : UserStore} {c c₁ c₂ : Connection}
    {event : Task.Event ConnSig} (hrelay : c.relayStep event = some c₁)
    (hstep : c₁.step users event = some c₂) :
    c₂.context = c.context ∧ c₂.permit = c.permit :=
  ⟨(step_context hstep).1.trans (relayStep_context hrelay).1,
    (step_context hstep).2.trans (relayStep_context hrelay).2⟩

theorem move_of_accept {peer : SocketAddr} {stamp : Nat} (hphase : s.phase = .accepting)
    (hstamp : stamp ≤ s.now) : Move s (.accept peer stamp) (s.accept peer stamp) := by
  unfold Server.accept
  cases hresult : checkClient s.state peer stamp with
  | mk result state =>
    rcases checkClient_cases hresult with ⟨rfl, hacl, rfl⟩ | ⟨rfl, hacl, hban, rfl⟩ |
      ⟨rfl, hacl, hban, rfl⟩
    · exact .run (.notWhitelisted peer hphase hacl)
    · exact .run (.banned peer hphase hstamp hacl hban)
    · exact .run (.passed peer hphase hstamp hacl hban)

theorem move_of_tryAcquire {peer : SocketAddr} (hphase : s.phase = .admitting peer) :
    Move s .tryAcquire (s.tryAcquire peer) := by
  unfold Server.tryAcquire
  cases hresult : admitClient s.state peer with
  | mk admission state =>
    rcases admitClient_cases hresult with ⟨rfl, havailable, rfl⟩ |
      ⟨permits, rfl, hfree, hwaits, rfl⟩
    · exact .run (.overLimit hphase havailable)
    · exact .admitted hphase hfree hwaits

theorem move_of_connectionStep {i : Nat} {c : Connection} {event : Task.Event ConnSig}
    {stamp : Nat} (hstamp : stamp ≤ s.now) (hc : s.connections[i]? = some c)
    (h : s.connectionStep i c event stamp = some s') : Move s (.connection i event stamp) s' := by
  unfold Server.connectionStep at h
  split at h
  · next hmay =>
    obtain ⟨state, hstate, h⟩ := Option.bind_eq_some_iff.mp h
    obtain ⟨c₁, hrelay, h⟩ := Option.bind_eq_some_iff.mp h
    obtain ⟨c₂, hstep, rfl⟩ := Option.map_eq_some_iff.mp h
    rw [(Connection.context_of_task hrelay hstep).1]
    exact .task i event hstamp hc hmay hstate hrelay hstep
  · simp at h

theorem runStep_of_drain (h : s.drain = some s') : RunStep s .drain s' := by
  unfold Server.drain at h
  split at h
  · next hphase =>
    obtain rfl := Option.some.inj h
    exact .startWaiting hphase
  · next forced deadline hphase =>
    split at h
    · next hacquired =>
      obtain rfl := Option.some.inj h
      exact .allFinished hphase hacquired
    · simp at h
  · next hphase =>
    obtain rfl := Option.some.inj h
    exact .forceClose hphase
  · next hphase =>
    obtain rfl := Option.some.inj h
    exact .waitAgain hphase
  · simp at h

theorem runStep_of_waitElapsed (h : s.waitElapsed = some s') : RunStep s .waitElapsed s' := by
  unfold Server.waitElapsed at h
  split at h
  · next forced deadline hphase =>
    split at h
    · simp at h
    · next hnot =>
      obtain rfl := Option.some.inj h
      rw [not_or, Nat.not_lt, Bool.not_eq_true] at hnot
      cases forced with
      | false => exact .graceOver hphase hnot.1 hnot.2
      | true => exact .notInTime hphase hnot.1 hnot.2
  · simp at h

theorem move_of_act {e : ServerEvent} (h : s.act e = some s') : Move s e s' := by
  cases e with
  | accept peer stamp =>
    simp only [Server.act] at h
    split at h
    · next hguard =>
      obtain rfl := Option.some.inj h
      exact move_of_accept hguard.1 hguard.2
    · simp at h
  | tryAcquire =>
    simp only [Server.act] at h
    split at h
    · next peer hphase =>
      obtain rfl := Option.some.inj h
      exact move_of_tryAcquire hphase
    · simp at h
  | connection i event stamp =>
    simp only [Server.act] at h
    split at h
    · next hstamp =>
      obtain ⟨c, hc, h⟩ := Option.bind_eq_some_iff.mp h
      exact move_of_connectionStep hstamp hc h
    · simp at h
  | relayTcp i client target =>
    obtain ⟨c, hc, h⟩ := Option.bind_eq_some_iff.mp h
    obtain ⟨c', hstep, rfl⟩ := Option.map_eq_some_iff.mp h
    exact .relayTcp i client target hc hstep
  | pump i side outcome =>
    obtain ⟨c, hc, h⟩ := Option.bind_eq_some_iff.mp h
    obtain ⟨relay, hrelay, h⟩ := Option.bind_eq_some_iff.mp h
    obtain ⟨relay', hstep, rfl⟩ := Option.map_eq_some_iff.mp h
    exact .pump i side outcome hc hrelay hstep
  | finish i =>
    obtain ⟨c, hc, h⟩ := Option.bind_eq_some_iff.mp h
    unfold Server.finish at h
    split at h
    · next reason htask =>
      obtain rfl := Option.some.inj h
      exact .finish i hc htask
    · simp at h
  | acceptFailed error =>
    simp only [Server.act] at h
    split at h
    · next hphase =>
      obtain rfl := Option.some.inj h
      exact .run (.acceptFailed error hphase)
    · simp at h
  | purge stamp =>
    simp only [Server.act] at h
    split at h
    · next hguard =>
      obtain rfl := Option.some.inj h
      exact .run (.purge hguard.2)
    · simp at h
  | shutdown =>
    simp only [Server.act] at h
    split at h
    · next hphase =>
      obtain rfl := Option.some.inj h
      exact .run (.shutdown hphase)
    · simp at h
  | drain => exact .run (runStep_of_drain h)
  | waitElapsed => exact .run (runStep_of_waitElapsed h)

/-- **When a step can be made**: time does not run backwards, and the event can happen then. -/
theorem step_eq_some {e : Nat × ServerEvent} :
    s.step e = some s' ↔ s.now ≤ e.1 ∧ Server.act { s with now := e.1 } e.2 = some s' := by
  unfold Server.step
  split
  · next hnow => exact (and_iff_right hnow).symm
  · next hnow => exact iff_of_false (by rintro ⟨⟩) fun h => hnow h.1

/-- **What a step can do.** -/
theorem move_of_step {e : Nat × ServerEvent} (h : s.step e = some s') :
    s.now ≤ e.1 ∧ Move { s with now := e.1 } e.2 s' :=
  (step_eq_some.mp h).imp_right move_of_act

/-- The accept loop, `drain` and the purger leave connections alone. -/
theorem RunStep.frame {e : ServerEvent} (h : RunStep s e s') :
    s'.connections = s.connections ∧ s'.state.config = s.state.config ∧
      s'.state.stats.authFailures = s.state.stats.authFailures ∧
      ∃ entries, s'.log = s.log ++ entries ∧ ∀ entry ∈ entries, entry.ofLoop := by
  cases h with
  | notWhitelisted peer => exact ⟨rfl, rfl, rfl, _, rfl, by simp [ServerLog.ofLoop]⟩
  | banned peer => exact ⟨rfl, rfl, rfl, _, rfl, by simp [ServerLog.ofLoop]⟩
  | passed peer => exact ⟨rfl, rfl, rfl, _, rfl, by simp [ServerLog.ofLoop]⟩
  | overLimit => exact ⟨rfl, rfl, rfl, _, rfl, by simp [ServerLog.ofLoop]⟩
  | _ => exact ⟨rfl, rfl, rfl, [], (List.append_nil _).symm, by simp⟩

end Move

/-! ## What the others see of a step -/

/-- What an event of a connection task does outside of it. -/
inductive SharedChange (s : Server) (c : ConnectionContext) :
    ServerState → List ServerLog → Prop
  | none : SharedChange s c s.state []
  | verified (result : Option String) :
    SharedChange s c s.state [.verified c result s.now]
  | authFailure : SharedChange s c
    { s.state with stats.authFailures := s.state.stats.authFailures.increment } []
  | recordFailure (ip : IpAddr) {stamp : Nat} : stamp ≤ s.now → SharedChange s c
    { s.state with banList := (s.state.banList.recordFailure ip stamp).2 }
    (.failureRecorded ip (s.state.banList.recordFailure ip stamp).1 stamp ::
      if s.state.banList.triggers ip stamp then [.banTriggered ip stamp] else [])

/-- What a step can do, as far as the others see it. -/
inductive Change (s : Server) : Server → Prop
  | run {e : ServerEvent} {s' : Server} : RunStep s e s' → Change s s'
  | admitted {peer : SocketAddr} {permits : Semaphore} : s.phase = .admitting peer →
    permits.free + 1 = s.state.connectionPermits.free →
    permits.waitsFor = s.state.connectionPermits.waitsFor →
    Change s { s with
      state := { s.state with
        connectionPermits := permits
        stats.accepted := s.state.stats.accepted.increment
        lastConnectionId := s.state.lastConnectionId + 1 }
      phase := .accepting
      connections := s.connections ++
        [.new s.state.config ⟨s.state.lastConnectionId + 1, peer⟩ ⟨1⟩]
      log := s.log ++
        [.accepted peer (.admitted ⟨s.state.lastConnectionId + 1, peer⟩ ⟨1⟩)] }
  | connection (i : Nat) {c c' : Connection} {state : ServerState} {entries : List ServerLog} :
    s.connections[i]? = some c → c'.context = c.context → c'.permit = c.permit →
    SharedChange s c.context state entries →
    Change s { s with state, connections := s.connections.set i c', log := s.log ++ entries }
  | finish (i : Nat) {c : Connection} (reason : CloseReason) : s.connections[i]? = some c →
    Change s { s with
      state := s.state.finish c reason
      connections := s.connections.eraseIdx i
      log := s.log ++ [.finished c.context reason c.counters] }

section Change

variable {s s' : Server}

theorem sharedChange_of_connectionStep {state : ServerState} {event : Task.Event ConnSig}
    {stamp : Nat} (context : ConnectionContext) (hstamp : stamp ≤ s.now)
    (h : s.state.connectionStep stamp event = some state) :
    SharedChange s context state (s.observe context stamp event) := by
  unfold ServerState.connectionStep at h
  split at h
  · next ip verdict =>
    cases hr : s.state.banList.recordFailure ip stamp with
    | mk answer banList =>
      have hchange := SharedChange.recordFailure (s := s) (c := context) ip hstamp
      rw [hr] at h hchange
      dsimp only at h
      split at h
      · next hanswer =>
        obtain rfl := Option.some.inj h
        rw [hanswer] at hchange
        exact hchange
      · simp at h
  · obtain rfl := Option.some.inj h
    exact .authFailure
  · next hrecord hincrement =>
    obtain rfl := Option.some.inj h
    unfold Server.observe
    split
    · exact .verified _
    · next ip verdict => exact absurd rfl (hrecord ip verdict)
    · exact .none

/-- A step within one connection that nobody else sees. -/
theorem change_setConnection {i : Nat} {c c' : Connection} (hc : s.connections[i]? = some c)
    (hcontext : c'.context = c.context) (hpermit : c'.permit = c.permit) :
    Change s (s.setConnection i c') := by
  have h := Change.connection i hc hcontext hpermit .none
  rw [List.append_nil] at h
  exact h

theorem Move.change {e : ServerEvent} (h : Move s e s') : Change s s' := by
  cases h with
  | run hrun => exact .run hrun
  | admitted hphase hfree hwaits => exact .admitted hphase hfree hwaits
  | @task i event stamp c c₁ c₂ state hstamp hc hmay hstate hrelay hstep =>
    obtain ⟨hcontext, hpermit⟩ := Connection.context_of_task hrelay hstep
    exact .connection i hc hcontext hpermit (sharedChange_of_connectionStep _ hstamp hstate)
  | relayTcp i client target hc hstep =>
    obtain ⟨hcontext, hpermit⟩ := Connection.step_context hstep
    exact change_setConnection hc hcontext hpermit
  | pump i side outcome hc hrelay hstep => exact change_setConnection hc rfl rfl
  | finish i hc htask => exact .finish i _ hc

/-- **What a step can do**, as far as the others see it. -/
theorem change_of_step {e : Nat × ServerEvent} (h : s.step e = some s') :
    s.now ≤ e.1 ∧ Change { s with now := e.1 } s' :=
  (move_of_step h).imp_right Move.change

end Change

/-! ## A small server -/

/-- Two connections allowed, one user, a ban after one failure. -/
def smallConfig : ServerConfig where
  listenAddress := .v4 (.new 0 0 0 0) 1080
  users := .oneUser
  maxConnections := 2
  timeouts := ⟨durationFromSecs 15, durationFromSecs 10, durationFromSecs 300, durationFromSecs 30⟩
  statsInterval := durationFromSecs 60
  clientAcl := ⟨[]⟩
  destinationPolicy := ⟨[], false, []⟩
  ban := ⟨1, durationFromSecs 600, durationFromSecs 3600, 100000⟩

end SocksServer
