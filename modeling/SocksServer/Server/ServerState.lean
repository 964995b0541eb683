import SocksServer.Config.ServerConfig
import SocksServer.Infra.Semaphore
import SocksServer.Relay.Bidirectional

/-!
# `server/server_stats.rs`, `server/server_state.rs` and `admit`

What the accept loop and the connection tasks share. The counters are `u64` and wrap. `usize`
has 64 bits, so the number of permits is `max_connections` itself.

`checkClient_cases` and `admitClient_cases` say all that `admit` can do; nothing later unfolds it.
-/

namespace SocksServer

open Infra

/-! ## Counters -/

/-- Monotonic event counter. -/
structure Counter where
  value : UInt64
  deriving DecidableEq, Repr

namespace Counter

def add (c : Counter) (value : UInt64) : Counter := ⟨c.value + value⟩

def increment (c : Counter) : Counter := c.add 1

end Counter

structure ServerStats where
  /-- Connections that passed the whitelist, ban and limit checks. -/
  accepted : Counter
  rejectedNotWhitelisted : Counter
  rejectedBanned : Counter
  rejectedOverLimit : Counter
  authFailures : Counter
  /-- Requests refused by the destination policy. -/
  deniedByPolicy : Counter
  /-- Client → target bytes of closed connections. -/
  bytesIn : Counter
  /-- Target → client bytes of closed connections. -/
  bytesOut : Counter
  deriving DecidableEq, Repr

/-- `ServerStats::default()` -/
def ServerStats.zero : ServerStats := ⟨⟨0⟩, ⟨0⟩, ⟨0⟩, ⟨0⟩, ⟨0⟩, ⟨0⟩, ⟨0⟩, ⟨0⟩⟩

/-! ## Shared state -/

/-- Everything connection tasks share. -/
structure ServerState where
  config : ServerConfig
  banList : BanListInner
  stats : ServerStats
  /-- One permit per open client connection, `max_connections` in total. -/
  connectionPermits : Semaphore
  /-- Cancelled when the shutdown grace period is over. -/
  forceClose : Bool
  lastConnectionId : UInt64

structure ConnectionContext where
  id : UInt64
  peer : SocketAddr
  deriving DecidableEq, Repr

namespace ServerState

def new (config : ServerConfig) : ServerState where
  config
  banList := .new config.ban
  stats := .zero
  connectionPermits := .new config.maxConnections.toNat
  forceClose := false
  lastConnectionId := 0

def nextConnectionId (state : ServerState) : UInt64 × ServerState :=
  (state.lastConnectionId + 1, { state with lastConnectionId := state.lastConnectionId + 1 })

/-- Client connections currently open (each one holds a permit). -/
def activeConnections (state : ServerState) : Nat :=
  state.config.maxConnections.toNat - state.connectionPermits.available

end ServerState

/-! ## Admission

No lock is held between the ban check of `admit` and its `try_acquire_owned`. Other tasks can come
in between, so `admit` is two steps here.
-/

/-- What becomes of a client that `accept()` returned. -/
inductive Admission where
  | rejectedNotWhitelisted
  | rejectedBanned
  | rejectedOverLimit
  /-- `serve_connection` is spawned with this context and permit. -/
  | admitted (context : ConnectionContext) (permit : Permit)
  deriving DecidableEq, Repr

/--
`admit`, up to the ban check: the client, when it passes, or why it is dropped. `stamp` is what
the ban list reads from the clock.
-/
def checkClient (state : ServerState) (peer : SocketAddr) (stamp : Nat) :
    Except Admission SocketAddr × ServerState :=
  let peer := canonicalAddr peer
  if !state.config.clientAcl.isAllowed peer.ip then
    (.error .rejectedNotWhitelisted, { state with
      stats.rejectedNotWhitelisted := state.stats.rejectedNotWhitelisted.increment })
  else if state.banList.isBanned peer.ip stamp then
    (.error .rejectedBanned, { state with
      stats.rejectedBanned := state.stats.rejectedBanned.increment })
  else (.ok peer, state)

/-- `admit`, from `try_acquire_owned` on. -/
def admitClient (state : ServerState) (peer : SocketAddr) : Admission × ServerState :=
  match state.connectionPermits.tryAcquire with
  | none => (.rejectedOverLimit, { state with
      stats.rejectedOverLimit := state.stats.rejectedOverLimit.increment })
  | some (permit, connectionPermits) =>
    let state := { state with
      connectionPermits, stats.accepted := state.stats.accepted.increment }
    let (id, state) := state.nextConnectionId
    (.admitted { id, peer } permit, state)

section Cases

variable {state state' : ServerState} {peer : SocketAddr} {stamp : Nat}

/-- **What the checks before the permit can do**, with their guards. -/
theorem checkClient_cases {result : Except Admission SocketAddr}
    (h : checkClient state peer stamp = (result, state')) :
    (result = .error .rejectedNotWhitelisted ∧
      state.config.clientAcl.isAllowed (canonicalIp peer.ip) = false ∧
      state' = { state with
        stats.rejectedNotWhitelisted := state.stats.rejectedNotWhitelisted.increment }) ∨
    (result = .error .rejectedBanned ∧
      state.config.clientAcl.isAllowed (canonicalIp peer.ip) = true ∧
      state.banList.isBanned (canonicalIp peer.ip) stamp = true ∧
      state' = { state with stats.rejectedBanned := state.stats.rejectedBanned.increment }) ∨
    (result = .ok (canonicalAddr peer) ∧
      state.config.clientAcl.isAllowed (canonicalIp peer.ip) = true ∧
      state.banList.isBanned (canonicalIp peer.ip) stamp = false ∧ state' = state) := by
  unfold checkClient at h
  simp only [ip_canonicalAddr] at h
  split at h
  · next hacl =>
    obtain ⟨rfl, rfl⟩ := Prod.mk.inj h
    exact .inl ⟨rfl, by simpa using hacl, rfl⟩
  · next hacl =>
    have hallowed : state.config.clientAcl.isAllowed (canonicalIp peer.ip) = true := by
      simpa using hacl
    split at h
    · next hban =>
      obtain ⟨rfl, rfl⟩ := Prod.mk.inj h
      exact .inr (.inl ⟨rfl, hallowed, hban, rfl⟩)
    · next hban =>
      obtain ⟨rfl, rfl⟩ := Prod.mk.inj h
      exact .inr (.inr ⟨rfl, hallowed, by simpa using hban, rfl⟩)

/-- **What becomes of a client that is past the ban check**, with the guards. -/
theorem admitClient_cases {admission : Admission}
    (h : admitClient state peer = (admission, state')) :
    (admission = .rejectedOverLimit ∧ state.connectionPermits.available = 0 ∧
      state' = { state with
        stats.rejectedOverLimit := state.stats.rejectedOverLimit.increment }) ∨
    ∃ connectionPermits, admission = .admitted ⟨state.lastConnectionId + 1, peer⟩ ⟨1⟩ ∧
      connectionPermits.free + 1 = state.connectionPermits.free ∧
      connectionPermits.waitsFor = state.connectionPermits.waitsFor ∧
      state' = { state with
        connectionPermits, stats.accepted := state.stats.accepted.increment,
        lastConnectionId := state.lastConnectionId + 1 } := by
  unfold admitClient at h
  split at h
  · next hnone =>
    obtain ⟨rfl, rfl⟩ := Prod.mk.inj h
    exact .inl ⟨rfl, Semaphore.tryAcquire_eq_none.mp hnone, rfl⟩
  · next permit connectionPermits hsome =>
    obtain ⟨rfl, hfree, hwaits⟩ := Semaphore.tryAcquire_eq_some hsome
    obtain ⟨rfl, rfl⟩ := Prod.mk.inj h
    exact .inr ⟨connectionPermits, rfl, hfree, hwaits, rfl⟩

end Cases

end SocksServer
