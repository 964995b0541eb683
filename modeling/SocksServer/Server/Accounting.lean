import SocksServer.Server.Run
import Mathlib.Data.List.Perm.Basic

/-!
# Permits, counters and connection ids

What holds between two steps of the server, in whatever order its tasks move.

* `PermitsHeld` — every open connection holds one permit, and `wait_for_connections` asks for all
* `Books` — counters and ids against what an observer has seen
* `admission_accounting` — both, in every reachable state
* `active_connections_exact` — when `active_connections` is the number of open connections
-/

namespace SocksServer

open Infra

/-! ## Permits -/

/-- What `wait_for_connections` asks for while `run` stands there. -/
def RunPhase.waitsFor (all : Nat) : RunPhase → Option Nat
  | .waiting _ _ => some all
  | _ => none

/-- Every open connection holds one permit, and nobody else holds any. -/
structure PermitsHeld (config : ServerConfig) (s : Server) : Prop where
  config_eq : s.state.config = config
  free : s.state.connectionPermits.free + s.connections.length = config.maxConnections.toNat
  one : ∀ c ∈ s.connections, c.permit = ⟨1⟩
  waitsFor : s.state.connectionPermits.waitsFor = s.phase.waitsFor config.maxConnections.toNat

/-- What a connection task changes in the shared state has nothing to do with admission. -/
theorem SharedChange.frame {s : Server} {c : ConnectionContext} {state : ServerState}
    {entries : List ServerLog} (h : SharedChange s c state entries) :
    state.config = s.state.config ∧ state.connectionPermits = s.state.connectionPermits ∧
      state.lastConnectionId = s.state.lastConnectionId ∧
      state.stats = { s.state.stats with authFailures := state.stats.authFailures } := by
  cases h <;> exact ⟨rfl, rfl, rfl, rfl⟩

namespace PermitsHeld

variable {config : ServerConfig} {s s' : Server}

theorem new (config : ServerConfig) (now : Nat) : PermitsHeld config (.new config now) where
  config_eq := rfl
  free := rfl
  one := by simp [Server.new]
  waitsFor := rfl

/-- The new connection has the permit that is no longer free. -/
theorem admitted (h : PermitsHeld config s) {peer : SocketAddr} (hphase : s.phase = .admitting peer)
    {permits : Semaphore} (hfree : permits.free + 1 = s.state.connectionPermits.free)
    (hwaits : permits.waitsFor = s.state.connectionPermits.waitsFor) (stats : ServerStats)
    (id : UInt64) (context : ConnectionContext) (log : List ServerLog) :
    PermitsHeld config { s with
      state := { s.state with connectionPermits := permits, stats, lastConnectionId := id }
      phase := .accepting
      connections := s.connections ++ [.new s.state.config context ⟨1⟩]
      log } := by
  refine ⟨h.config_eq, ?_, ?_, ?_⟩
  · have := h.free
    simp only [List.length_append, List.length_singleton]
    omega
  · intro c hc
    rcases List.mem_append.mp hc with hc | hc
    · exact h.one c hc
    · rw [List.mem_singleton.mp hc]
      rfl
  · rw [hwaits, h.waitsFor, hphase]
    rfl

/-- A step of a connection leaves the permits alone. -/
theorem connection (h : PermitsHeld config s) {i : Nat} {c c' : Connection} {state : ServerState}
    {entries : List ServerLog} (hc : s.connections[i]? = some c) (hpermit : c'.permit = c.permit)
    (hshared : SharedChange s c.context state entries) :
    PermitsHeld config { s with
      state, connections := s.connections.set i c', log := s.log ++ entries } := by
  obtain ⟨hconfig, hpermits, -, -⟩ := hshared.frame
  refine ⟨hconfig.trans h.config_eq, ?_, ?_, ?_⟩
  · rw [hpermits, List.length_set]
    exact h.free
  · intro x hx
    rcases List.mem_or_eq_of_mem_set hx with hx | rfl
    · exact h.one x hx
    · rw [hpermit]
      exact h.one c (List.mem_of_getElem? hc)
  · rw [hpermits]
    exact h.waitsFor

/-- A connection that ends gives its permit back, whatever the reason. -/
theorem finish (h : PermitsHeld config s) {i : Nat} {c : Connection} (reason : CloseReason)
    (hc : s.connections[i]? = some c) (log : List ServerLog) :
    PermitsHeld config { s with
      state := s.state.finish c reason, connections := s.connections.eraseIdx i, log } := by
  obtain ⟨hi, -⟩ := List.getElem?_eq_some_iff.mp hc
  refine ⟨h.config_eq, ?_, fun x hx => h.one x (List.mem_of_mem_eraseIdx hx), ?_⟩
  · have hfree := h.free
    have hlen := List.length_eraseIdx_of_lt hi
    have hone := h.one c (List.mem_of_getElem? hc)
    simp only [ServerState.finish, Semaphore.free_dropPermit, hone, hlen]
    omega
  · simp only [ServerState.finish, Semaphore.waitsFor_dropPermit]
    exact h.waitsFor

/-- `wait_for_connections` starts: all free permits are there for it. -/
theorem startWaiting (h : PermitsHeld config s)
    (hphase : s.phase = .draining ∨ s.phase = .forceClosed)
    (forced : Bool) : PermitsHeld config (s.startWaiting forced) := by
  have hwaits : s.state.connectionPermits.waitsFor = none := by
    rw [h.waitsFor]
    rcases hphase with hphase | hphase <;> rw [hphase] <;> rfl
  refine ⟨h.config_eq, ?_, h.one, ?_⟩
  · simp only [Server.startWaiting, Semaphore.free_acquireMany hwaits]
    exact h.free
  · simp only [Server.startWaiting, Semaphore.waitsFor_acquireMany, h.config_eq]
    rfl

/-- It ends: acquired or not, what was taken is given back. -/
theorem stopWaiting (h : PermitsHeld config s) {phase : RunPhase}
    (hphase : phase.waitsFor config.maxConnections.toNat = none) :
    PermitsHeld config (s.stopWaiting phase) := by
  refine ⟨h.config_eq, ?_, h.one, ?_⟩
  · simp only [Server.stopWaiting, Semaphore.free_dropAcquire]
    exact h.free
  · simp only [Server.stopWaiting, Semaphore.waitsFor_dropAcquire]
    exact hphase.symm

/-- A step of `run` that touches no permit and does not wait. -/
theorem phase (h : PermitsHeld config s)
    (hpermits : s'.state.connectionPermits = s.state.connectionPermits)
    (hconfig : s'.state.config = s.state.config) (hconnections : s'.connections = s.connections)
    (hphase : ∀ all, s'.phase.waitsFor all = s.phase.waitsFor all) : PermitsHeld config s' := by
  refine ⟨hconfig.trans h.config_eq, ?_, ?_, ?_⟩
  · rw [hpermits, hconnections]
    exact h.free
  · rw [hconnections]
    exact h.one
  · rw [hpermits, hphase]
    exact h.waitsFor

theorem run (h : PermitsHeld config s) {e : ServerEvent} (hrun : RunStep s e s') :
    PermitsHeld config s' := by
  cases hrun with
  | notWhitelisted peer => exact h.phase rfl rfl rfl fun _ => rfl
  | banned peer => exact h.phase rfl rfl rfl fun _ => rfl
  | passed peer hphase => exact h.phase rfl rfl rfl fun _ => by rw [hphase]; rfl
  | overLimit hphase => exact h.phase rfl rfl rfl fun _ => by rw [hphase]; rfl
  | acceptFailed error => exact h
  | purge => exact h.phase rfl rfl rfl fun _ => rfl
  | shutdown hphase => exact h.phase rfl rfl rfl fun _ => by rw [hphase]; rfl
  | startWaiting hphase => exact h.startWaiting (.inl hphase) false
  | allFinished => exact h.stopWaiting rfl
  | graceOver => exact h.stopWaiting rfl
  | forceClose hphase => exact h.phase rfl rfl rfl fun _ => by rw [hphase]; rfl
  | waitAgain hphase => exact h.startWaiting (.inr hphase) true
  | notInTime => exact h.stopWaiting rfl

theorem change (h : PermitsHeld config s) (hchange : Change s s') :
    PermitsHeld config s' := by
  cases hchange with
  | run hrun => exact h.run hrun
  | admitted hphase hfree hwaits => exact h.admitted hphase hfree hwaits _ _ _ _
  | connection i hc _ hpermit hshared => exact h.connection hc hpermit hshared
  | finish i reason hc => exact h.finish reason hc _

theorem step (h : PermitsHeld config s) {e : Nat × ServerEvent} (hs : s.step e = some s') :
    PermitsHeld config s' := by
  have hnow : PermitsHeld config { s with now := e.1 } := ⟨h.config_eq, h.free, h.one, h.waitsFor⟩
  exact hnow.change (change_of_step hs).2

end PermitsHeld

/-- In every reachable state. -/
theorem permitsHeld_of_run {config : ServerConfig} {start : Nat} {es : List (Nat × ServerEvent)}
    {s : Server} (h : run Server.step (.new config start) es = some s) : PermitsHeld config s :=
  run_invariant (fun _ _ _ hs he => hs.step he) (PermitsHeld.new config start) h

/-! ## The number of active connections -/

/-- While `wait_for_connections` waits for all permits, every connection seems active. -/
theorem activeConnections_eq {config : ServerConfig} {s : Server} (h : PermitsHeld config s) :
    s.state.activeConnections =
      match s.phase with
      | .waiting _ _ => config.maxConnections.toNat
      | _ => s.connections.length := by
  have hfree := h.free
  have hwaits := h.waitsFor
  unfold ServerState.activeConnections
  rw [h.config_eq]
  cases hp : s.phase with
  | waiting forced deadline =>
    rw [hp] at hwaits
    have := Semaphore.available_of_waitsFor hwaits (by omega)
    simp only
    omega
  | _ =>
    rw [hp] at hwaits
    have := Semaphore.free_of_waitsFor_none hwaits
    simp only
    omega

/--
**What `active_connections` counts.** It is the number of open connections in every reachable
state except while `wait_for_connections` waits for the permits of some of them: what it has
taken counts as well.
-/
theorem active_connections_exact (config : ServerConfig) (start : Nat)
    (es : List (Nat × ServerEvent)) (s : Server)
    (h : run Server.step (.new config start) es = some s) :
    s.state.activeConnections = s.connections.length ↔
      (∀ forced deadline, s.phase ≠ .waiting forced deadline) ∨
        s.connections.length = config.maxConnections.toNat := by
  rw [activeConnections_eq (permitsHeld_of_run h)]
  cases s.phase with
  | waiting forced deadline => simp [eq_comm]
  | _ => simp

/-- The grace period is over and one connection is left: it is counted again. -/
theorem active_connections_exact_after_grace :
    ∃ s, run Server.step (.new smallConfig 0)
        [(0, .accept (.v4 (.new 203 0 113 5) 40000) 0), (0, .tryAcquire), (1, .shutdown),
          (2, .drain), (30000000002, .waitElapsed)] = some s ∧
      s.connections.length = 1 ∧ s.state.activeConnections = 1 := by
  have hrun : (run Server.step (.new smallConfig 0)
      [(0, .accept (.v4 (.new 203 0 113 5) 40000) 0), (0, .tryAcquire), (1, .shutdown),
        (2, .drain), (30000000002, .waitElapsed)]).map (fun s => (s.connections.length, s.phase)) =
      some (1, .graceOver) := by
    decide +kernel
  obtain ⟨s, hs, hlen⟩ := Option.map_eq_some_iff.mp hrun
  obtain ⟨hlen, hphase⟩ := Prod.mk.inj hlen
  have hactive := (active_connections_exact smallConfig 0 _ s hs).mpr (.inl (by simp [hphase]))
  exact ⟨s, hs, hlen, hactive.trans hlen⟩

/-- While `drain` waits for one connection of two, both permits count as active. -/
theorem active_connections_counts_waiter :
    ¬ ∀ (config : ServerConfig) (start : Nat) (es : List (Nat × ServerEvent)) (s : Server),
      run Server.step (.new config start) es = some s →
        s.state.activeConnections = s.connections.length := by
  intro h
  have hrun : (run Server.step (.new smallConfig 0)
      [(0, .accept (.v4 (.new 203 0 113 5) 40000) 0), (0, .tryAcquire), (1, .shutdown),
        (2, .drain)]).map (fun s => (s.state.activeConnections, s.connections.length)) = some (2, 1) := by
    decide +kernel
  obtain ⟨s, hs, hcounts⟩ := Option.map_eq_some_iff.mp hrun
  obtain ⟨hactive, hlen⟩ := Prod.mk.inj hcounts
  have := h smallConfig 0 _ s hs
  omega

/-! ## Counters and ids -/

namespace ServerLog

def isAccepted : ServerLog → Bool
  | .accepted _ _ => true
  | _ => false

def admitted? : ServerLog → Option ConnectionContext
  | .accepted _ (.admitted context _) => some context
  | _ => none

def finished? : ServerLog → Option (ConnectionContext × RelayCounters)
  | .finished context _ counters => some (context, counters)
  | _ => none

end ServerLog

/-- Admitted connections, oldest first. -/
def admittedIn (log : List ServerLog) : List ConnectionContext := log.filterMap ServerLog.admitted?

/-- Finished connections with their relay counters. -/
def finishedIn (log : List ServerLog) : List (ConnectionContext × RelayCounters) :=
  log.filterMap ServerLog.finished?

/-- Client → target bytes of the finished connections. -/
def bytesInOf (log : List ServerLog) : Nat := ((finishedIn log).map (·.2.clientToTarget)).sum

/-- Target → client bytes of the finished connections. -/
def bytesOutOf (log : List ServerLog) : Nat := ((finishedIn log).map (·.2.targetToClient)).sum

/--
Counters and ids agree with what an observer has seen, and the open connections are those
that were admitted and have not finished.
-/
structure Books (stats : ServerStats) (lastId : UInt64) (opened : List ConnectionContext)
    (log : List ServerLog) : Prop where
  accepts : stats.accepted.value + stats.rejectedNotWhitelisted.value +
    stats.rejectedBanned.value + stats.rejectedOverLimit.value =
      UInt64.ofNat (log.countP ServerLog.isAccepted)
  accepted : stats.accepted.value = UInt64.ofNat (admittedIn log).length
  lastId_eq : lastId = UInt64.ofNat (admittedIn log).length
  ids : ∀ k context, (admittedIn log)[k]? = some context → context.id = UInt64.ofNat (k + 1)
  opened_perm : (admittedIn log).Perm (opened ++ (finishedIn log).map Prod.fst)
  bytesIn : stats.bytesIn.value = UInt64.ofNat (bytesInOf log)
  bytesOut : stats.bytesOut.value = UInt64.ofNat (bytesOutOf log)

/-- The books of a server. -/
def Server.Balanced (s : Server) : Prop :=
  Books s.state.stats s.state.lastConnectionId (s.connections.map Connection.context) s.log

section Log

variable (log entries : List ServerLog)

theorem admittedIn_append : admittedIn (log ++ entries) = admittedIn log ++ admittedIn entries :=
  List.filterMap_append

theorem finishedIn_append : finishedIn (log ++ entries) = finishedIn log ++ finishedIn entries :=
  List.filterMap_append

theorem bytesInOf_append : bytesInOf (log ++ entries) = bytesInOf log + bytesInOf entries := by
  simp [bytesInOf, finishedIn_append]

theorem bytesOutOf_append : bytesOutOf (log ++ entries) = bytesOutOf log + bytesOutOf entries := by
  simp [bytesOutOf, finishedIn_append]

end Log

namespace Books

variable {stats stats' : ServerStats} {lastId : UInt64} {opened : List ConnectionContext}
  {log entries : List ServerLog}

/-- The books of a new server. -/
theorem empty : Books .zero 0 [] [] where
  accepts := rfl
  accepted := rfl
  lastId_eq := rfl
  ids := by simp [admittedIn]
  opened_perm := List.Perm.refl _
  bytesIn := rfl
  bytesOut := rfl

/-- Entries about neither admission nor the end of a connection, and the other counters. -/
theorem other (h : Books stats lastId opened log)
    (haccepted : entries.countP ServerLog.isAccepted = 0) (hadmitted : admittedIn entries = [])
    (hfinished : finishedIn entries = [])
    (hstats : stats' = { stats with authFailures := stats'.authFailures }) :
    Books stats' lastId opened (log ++ entries) := by
  rw [hstats]
  constructor
  · rw [List.countP_append, haccepted]
    exact h.accepts
  · rw [admittedIn_append, hadmitted, List.append_nil]
    exact h.accepted
  · rw [admittedIn_append, hadmitted, List.append_nil]
    exact h.lastId_eq
  · rw [admittedIn_append, hadmitted, List.append_nil]
    exact h.ids
  · rw [admittedIn_append, finishedIn_append, hadmitted, hfinished, List.append_nil,
      List.append_nil]
    exact h.opened_perm
  · rw [bytesInOf_append, bytesInOf, bytesInOf, hfinished]
    exact h.bytesIn
  · rw [bytesOutOf_append, bytesOutOf, bytesOutOf, hfinished]
    exact h.bytesOut

/-- A client that is turned away: one of three counters, and nothing else. -/
theorem reject (h : Books stats lastId opened log) (peer : SocketAddr) {admission : Admission}
    (hnot : ∀ context permit, admission ≠ .admitted context permit)
    (haccepted : stats'.accepted = stats.accepted) (hbytesIn : stats'.bytesIn = stats.bytesIn)
    (hbytesOut : stats'.bytesOut = stats.bytesOut)
    (hsum : stats'.rejectedNotWhitelisted.value + stats'.rejectedBanned.value +
        stats'.rejectedOverLimit.value =
      stats.rejectedNotWhitelisted.value + stats.rejectedBanned.value +
        stats.rejectedOverLimit.value + 1) :
    Books stats' lastId opened (log ++ [.accepted peer admission]) := by
  have hadmitted : admittedIn [.accepted peer admission] = [] := by
    cases admission with
    | admitted context permit => exact absurd rfl (hnot context permit)
    | _ => rfl
  constructor
  · rw [List.countP_append, UInt64.ofNat_add, ← h.accepts, haccepted]
    show _ = _ + 1
    grind
  · rw [admittedIn_append, hadmitted, List.append_nil, haccepted]
    exact h.accepted
  · rw [admittedIn_append, hadmitted, List.append_nil]
    exact h.lastId_eq
  · rw [admittedIn_append, hadmitted, List.append_nil]
    exact h.ids
  · rw [admittedIn_append, finishedIn_append, hadmitted, List.append_nil]
    exact List.append_nil _ ▸ h.opened_perm
  · rw [bytesInOf_append, hbytesIn]
    exact h.bytesIn
  · rw [bytesOutOf_append, hbytesOut]
    exact h.bytesOut

/-- An admitted client gets the next id. -/
theorem admitted (h : Books stats lastId opened log) (peer : SocketAddr)
    (context : ConnectionContext) (permit : Permit) (hid : context.id = lastId + 1) :
    Books { stats with accepted := stats.accepted.increment } (lastId + 1) (opened ++ [context])
      (log ++ [.accepted peer (.admitted context permit)]) := by
  have hadmitted : admittedIn (log ++ [.accepted peer (.admitted context permit)]) =
      admittedIn log ++ [context] := admittedIn_append _ _
  have hfinished : finishedIn (log ++ [.accepted peer (.admitted context permit)]) =
      finishedIn log := (finishedIn_append _ _).trans (List.append_nil _)
  have hnext : lastId + 1 = UInt64.ofNat ((admittedIn log).length + 1) := by
    rw [UInt64.ofNat_add, h.lastId_eq]
    rfl
  constructor
  · rw [List.countP_append, UInt64.ofNat_add, ← h.accepts]
    show stats.accepted.value + 1 + _ + _ + _ = _ + 1
    grind
  · rw [hadmitted, List.length_append, List.length_singleton, ← hnext, h.lastId_eq, ← h.accepted]
    rfl
  · rw [hadmitted, List.length_append, List.length_singleton]
    exact hnext
  · intro k context' hk
    rw [hadmitted, List.getElem?_append] at hk
    split at hk
    · exact h.ids k context' hk
    · next hlt =>
      -- the last one
      obtain ⟨hlen, rfl⟩ := List.getElem?_eq_some_iff.mp hk
      have hk' : k = (admittedIn log).length := by
        rw [List.length_singleton] at hlen
        omega
      subst hk'
      simpa [hid] using hnext
  · -- the new context is last among the admitted and stands before the finished ones here
    rw [hadmitted, hfinished]
    have hswap : (opened ++ (finishedIn log).map Prod.fst ++ [context]).Perm
        (opened ++ [context] ++ (finishedIn log).map Prod.fst) := by
      rw [List.append_assoc, List.append_assoc]
      exact List.perm_append_comm.append_left opened
    exact (h.opened_perm.append_right [context]).trans hswap
  · rw [bytesInOf, hfinished]
    exact h.bytesIn
  · rw [bytesOutOf, hfinished]
    exact h.bytesOut

/-- A connection ends: its relay counters are added. -/
theorem finish (h : Books stats lastId opened log) {context : ConnectionContext}
    {rest : List ConnectionContext} (hrest : opened.Perm (context :: rest)) (reason : CloseReason)
    (counters : RelayCounters)
    (hstats : stats' = { stats with
      bytesIn := stats.bytesIn.add (UInt64.ofNat counters.clientToTarget)
      bytesOut := stats.bytesOut.add (UInt64.ofNat counters.targetToClient)
      deniedByPolicy := stats'.deniedByPolicy }) :
    Books stats' lastId rest (log ++ [.finished context reason counters]) := by
  have hadmitted : admittedIn (log ++ [.finished context reason counters]) = admittedIn log :=
    (admittedIn_append _ _).trans (List.append_nil _)
  rw [hstats]
  constructor
  · rw [List.countP_append]
    exact h.accepts
  · rw [hadmitted]
    exact h.accepted
  · rw [hadmitted]
    exact h.lastId_eq
  · rw [hadmitted]
    exact h.ids
  · rw [hadmitted, finishedIn_append, List.map_append, ← List.append_assoc]
    have hperm : (opened ++ (finishedIn log).map Prod.fst).Perm
        (context :: (rest ++ (finishedIn log).map Prod.fst)) := hrest.append_right _
    exact h.opened_perm.trans (hperm.trans (List.perm_append_singleton _ _).symm)
  · rw [bytesInOf_append, UInt64.ofNat_add, ← h.bytesIn]
    simp [bytesInOf, finishedIn, ServerLog.finished?, Counter.add]
  · rw [bytesOutOf_append, UInt64.ofNat_add, ← h.bytesOut]
    simp [bytesOutOf, finishedIn, ServerLog.finished?, Counter.add]

end Books

/-- What a connection task shows of itself is about neither admission nor its end. -/
theorem SharedChange.silent {s : Server} {c : ConnectionContext} {state : ServerState}
    {entries : List ServerLog} (h : SharedChange s c state entries) :
    entries.countP ServerLog.isAccepted = 0 ∧ admittedIn entries = [] ∧
      finishedIn entries = [] := by
  cases h with
  | recordFailure ip _ =>
    split
    · exact ⟨rfl, rfl, rfl⟩
    · exact ⟨rfl, rfl, rfl⟩
  | _ => exact ⟨rfl, rfl, rfl⟩

theorem add_one_left (a b c : UInt64) : a + 1 + b + c = a + b + c + 1 := by grind

theorem add_one_middle (a b c : UInt64) : a + (b + 1) + c = a + b + c + 1 := by grind

namespace Server.Balanced

variable {s s' : Server}

/-- A step of the accept loop or of the shutdown. -/
theorem run (h : s.Balanced) {e : ServerEvent} (hrun : RunStep s e s') : s'.Balanced := by
  cases hrun with
  | notWhitelisted peer =>
    refine Books.reject h _ (by simp) rfl rfl rfl ?_
    exact add_one_left _ _ _
  | banned peer =>
    refine Books.reject h _ (by simp) rfl rfl rfl ?_
    exact add_one_middle _ _ _
  | passed peer => exact Books.other h rfl rfl rfl rfl
  | overLimit =>
    refine Books.reject h _ (by simp) rfl rfl rfl ?_
    exact (UInt64.add_assoc _ _ _).symm
  | _ => exact h

/-- A step of a connection changes no counter of the books. -/
theorem connection (h : s.Balanced) {i : Nat} {c c' : Connection} {state : ServerState}
    {entries : List ServerLog} (hc : s.connections[i]? = some c)
    (hcontext : c'.context = c.context) (hshared : SharedChange s c.context state entries) :
    Balanced { s with
      state, connections := s.connections.set i c', log := s.log ++ entries } := by
  obtain ⟨-, -, hid, hstats⟩ := hshared.frame
  obtain ⟨haccepted, hadmitted, hfinished⟩ := hshared.silent
  unfold Balanced
  rw [map_context_set hc hcontext, hid]
  exact Books.other h haccepted hadmitted hfinished hstats

theorem finish (h : s.Balanced) {i : Nat} {c : Connection} (reason : CloseReason)
    (hc : s.connections[i]? = some c) :
    Balanced { s with
      state := s.state.finish c reason
      connections := s.connections.eraseIdx i
      log := s.log ++ [.finished c.context reason c.counters] } := by
  obtain ⟨hi, rfl⟩ := List.getElem?_eq_some_iff.mp hc
  have hperm : (s.connections.map Connection.context).Perm
      (s.connections[i].context :: (s.connections.eraseIdx i).map Connection.context) :=
    ((List.getElem_cons_eraseIdx_perm hi).map Connection.context).symm
  refine Books.finish h hperm reason _ ?_
  unfold ServerState.finish
  dsimp only
  split <;> rfl

theorem change (h : s.Balanced) (hchange : Change s s') : s'.Balanced := by
  cases hchange with
  | run hrun => exact h.run hrun
  | @admitted peer =>
    have hbooks := Books.admitted h peer ⟨s.state.lastConnectionId + 1, peer⟩ ⟨1⟩ rfl
    unfold Balanced
    rw [List.map_append]
    exact hbooks
  | connection i hc hcontext _ hshared => exact h.connection hc hcontext hshared
  | finish i reason hc => exact h.finish reason hc

theorem step (h : s.Balanced) {e : Nat × ServerEvent} (hs : s.step e = some s') :
    s'.Balanced := by
  have hnow : Balanced { s with now := e.1 } := h
  exact hnow.change (change_of_step hs).2

end Server.Balanced

theorem balanced_of_run {config : ServerConfig} {start : Nat} {es : List (Nat × ServerEvent)}
    {s : Server} (h : run Server.step (.new config start) es = some s) : s.Balanced :=
  run_invariant (fun _ _ _ hs he => Server.Balanced.step hs he)
    (show Server.Balanced (.new config start) from Books.empty) h

/-! ## `accept()` calls -/

/-- Clients whose `admit` is under way. -/
def Server.pending (s : Server) : Nat :=
  match s.phase with
  | .admitting _ => 1
  | _ => 0

/-- A step of `run`: an `accept()` is settled, or under way, or there is none. -/
theorem RunStep.countP_accepted {s s' : Server} {e : ServerEvent} (h : RunStep s e s') :
    s'.log.countP ServerLog.isAccepted + s'.pending =
      s.log.countP ServerLog.isAccepted + s.pending + e.isAccept.toNat := by
  cases h with
  | notWhitelisted peer hphase =>
    simp [Server.pending, hphase, ServerLog.isAccepted, ServerEvent.isAccept]
  | banned peer hphase => simp [Server.pending, hphase, ServerLog.isAccepted, ServerEvent.isAccept]
  | passed peer hphase => simp [Server.pending, hphase, ServerLog.isAccepted, ServerEvent.isAccept]
  | overLimit hphase => simp [Server.pending, hphase, ServerLog.isAccepted, ServerEvent.isAccept]
  | acceptFailed error hphase => rfl
  | purge => rfl
  | shutdown hphase => simp [Server.pending, hphase, ServerEvent.isAccept]
  | startWaiting hphase => simp [Server.pending, hphase, ServerEvent.isAccept, Server.startWaiting]
  | allFinished hphase => simp [Server.pending, hphase, ServerEvent.isAccept, Server.stopWaiting]
  | graceOver hphase => simp [Server.pending, hphase, ServerEvent.isAccept, Server.stopWaiting]
  | forceClose hphase => simp [Server.pending, hphase, ServerEvent.isAccept]
  | waitAgain hphase => simp [Server.pending, hphase, ServerEvent.isAccept, Server.startWaiting]
  | notInTime hphase => simp [Server.pending, hphase, ServerEvent.isAccept, Server.stopWaiting]

/-- **Every client that `accept` returned** is in the log, or in `admit`. -/
theorem Move.countP_accepted {s s' : Server} {e : ServerEvent} (h : Move s e s') :
    s'.log.countP ServerLog.isAccepted + s'.pending =
      s.log.countP ServerLog.isAccepted + s.pending + e.isAccept.toNat := by
  cases h with
  | run hrun => exact hrun.countP_accepted
  | admitted hphase => simp [Server.pending, hphase, ServerLog.isAccepted, ServerEvent.isAccept]
  | @task i event stamp c _ _ _ hstamp hc hmay hstate =>
    have hsilent := (sharedChange_of_connectionStep c.context hstamp hstate).silent.1
    simp only [Server.setConnection, List.countP_append, hsilent]
    rfl
  | relayTcp => rfl
  | pump => rfl
  | finish =>
    simp only [List.countP_append]
    rfl

/-- Every `accept()` that returns a client is settled in the log, or is under way. -/
theorem countP_accepted_of_run {s s' : Server} {es : List (Nat × ServerEvent)}
    (h : run Server.step s es = some s') :
    s'.log.countP ServerLog.isAccepted + s'.pending =
      s.log.countP ServerLog.isAccepted + s.pending + es.countP fun e => e.2.isAccept := by
  induction es generalizing s with
  | nil =>
    obtain rfl := Option.some.inj h
    rfl
  | cons e es ih =>
    obtain ⟨mid, hstep, hrest⟩ := run_cons h
    have hmid : mid.log.countP ServerLog.isAccepted + mid.pending =
        s.log.countP ServerLog.isAccepted + s.pending + e.2.isAccept.toNat :=
      (move_of_step hstep).2.countP_accepted
    rw [ih hrest, hmid, List.countP_cons]
    have hone : (if e.2.isAccept = true then 1 else 0) = e.2.isAccept.toNat := by
      cases e.2.isAccept <;> rfl
    rw [hone]
    omega

/-! ## The accounts -/

/-- Permits that connection tasks hold. -/
def Server.heldPermits (s : Server) : Nat := (s.connections.map fun c => c.permit.permits).sum

/-- Every connection holds one permit. -/
theorem PermitsHeld.heldPermits {config : ServerConfig} {s : Server} (h : PermitsHeld config s) :
    s.heldPermits = s.connections.length := by
  have hone : (s.connections.map fun c => c.permit.permits) = s.connections.map fun _ => 1 :=
    List.map_congr_left fun c hc => by rw [h.one c hc]
  rw [Server.heldPermits, hone]
  simp

/-- An `accept()` of `peer` in the state `s`, up to the ban check. -/
structure AcceptAccounts (config : ServerConfig) (s : Server) (peer : SocketAddr) (stamp : Nat)
    (s' : Server) : Prop where
  /-- A client that is not whitelisted or is banned gets no further, and costs a counter only. -/
  rejected : config.clientAcl.isAllowed (canonicalIp peer.ip) = false ∨
      s.state.banList.isBanned (canonicalIp peer.ip) stamp = true →
    s'.phase = .accepting ∧ s'.connections = s.connections ∧
      s'.state.connectionPermits = s.state.connectionPermits ∧
      s'.state.lastConnectionId = s.state.lastConnectionId
  /-- Any other client is on its way, and costs nothing yet. -/
  passed : config.clientAcl.isAllowed (canonicalIp peer.ip) = true →
      s.state.banList.isBanned (canonicalIp peer.ip) stamp = false →
    s'.phase = .admitting (canonicalAddr peer) ∧ s'.connections = s.connections ∧
      s'.state = s.state

structure Accounts (config : ServerConfig) (es : List (Nat × ServerEvent)) (s : Server) :
    Prop where
  /-- The connections that are open are those admitted and not finished. -/
  opened : (admittedIn s.log).Perm
    (s.connections.map Connection.context ++ (finishedIn s.log).map Prod.fst)
  onePermit : ∀ c ∈ s.connections, c.permit = ⟨1⟩
  atMost : s.connections.length ≤ config.maxConnections.toNat
  permits : s.heldPermits + s.state.connectionPermits.free = config.maxConnections.toNat
  /-- Every client that `accept()` returned is in a counter, or its `admit` is under way. -/
  accepts : s.state.stats.accepted.value + s.state.stats.rejectedNotWhitelisted.value +
    s.state.stats.rejectedBanned.value + s.state.stats.rejectedOverLimit.value +
    UInt64.ofNat s.pending = UInt64.ofNat (es.countP fun e => e.2.isAccept)
  accepted : s.state.stats.accepted.value = UInt64.ofNat (admittedIn s.log).length
  held : (admittedIn s.log).length = s.heldPermits + (finishedIn s.log).length
  accept : ∀ now peer stamp s', s.step (now, .accept peer stamp) = some s' →
    s.phase = .accepting ∧ AcceptAccounts config s peer stamp s'
  /-- Over the limit only when every permit is held by a connection. -/
  overLimit : ∀ now peer s', s.step (now, .tryAcquire) = some s' →
    s'.log = s.log ++ [.accepted peer .rejectedOverLimit] →
      s.heldPermits = config.maxConnections.toNat
  /-- The `k`-th connection, counted from 1, has id `k`. -/
  ids : ∀ k context, (admittedIn s.log)[k]? = some context → context.id = UInt64.ofNat (k + 1)
  ids_nodup : (admittedIn s.log).length < 2 ^ 64 →
    ((admittedIn s.log).map ConnectionContext.id).Nodup
  bytesIn : s.state.stats.bytesIn.value =
    UInt64.ofNat ((finishedIn s.log).map (·.2.clientToTarget)).sum
  bytesOut : s.state.stats.bytesOut.value =
    UInt64.ofNat ((finishedIn s.log).map (·.2.targetToClient)).sum

section Step

variable {config : ServerConfig} {s s' : Server} {now : Nat}

/-- What an `accept` does to the counters. -/
theorem acceptAccounts (h : PermitsHeld config s) {stamp : Nat} {peer : SocketAddr}
    (hs : s.step (now, .accept peer stamp) = some s') :
    s.phase = .accepting ∧ AcceptAccounts config s peer stamp s' := by
  cases (move_of_step hs).2 with
  | run hrun =>
    cases hrun with
    | notWhitelisted _ hphase hacl =>
      refine ⟨hphase, fun _ => ⟨hphase, rfl, rfl, rfl⟩, ?_⟩
      intro hallowed _
      rw [← h.config_eq] at hallowed
      rw [hallowed] at hacl
      cases hacl
    | banned _ hphase _ _ hban =>
      refine ⟨hphase, fun _ => ⟨hphase, rfl, rfl, rfl⟩, ?_⟩
      intro _ hunbanned
      rw [hunbanned] at hban
      cases hban
    | passed _ hphase _ hallowed hunbanned =>
      rw [h.config_eq] at hallowed
      refine ⟨hphase, ?_, fun _ _ => ⟨rfl, rfl, rfl⟩⟩
      rintro (hacl | hban)
      · rw [hallowed] at hacl
        cases hacl
      · rw [hunbanned] at hban
        cases hban

/-- A client is over the limit when all permits are held. -/
theorem heldPermits_of_overLimit (h : PermitsHeld config s) {peer : SocketAddr}
    (hs : s.step (now, .tryAcquire) = some s')
    (hlog : s'.log = s.log ++ [.accepted peer .rejectedOverLimit]) :
    s.heldPermits = config.maxConnections.toNat := by
  cases (move_of_step hs).2 with
  | run hrun =>
    cases hrun with
    | overLimit hphase havailable =>
      have hwaits := h.waitsFor
      rw [show s.phase = _ from hphase] at hwaits
      have hfree := Semaphore.free_of_waitsFor_none hwaits
      have hall := h.free
      rw [show s.state.connectionPermits.available = 0 from havailable] at hfree
      rw [h.heldPermits]
      omega
  | admitted hphase =>
    have heq := List.append_cancel_left hlog
    simp at heq

end Step

/-- Ids repeat only after `2 ^ 64` admissions. -/
theorem nodup_ids {contexts : List ConnectionContext}
    (hids : ∀ k context, contexts[k]? = some context → context.id = UInt64.ofNat (k + 1))
    (hlen : contexts.length < 2 ^ 64) : (contexts.map ConnectionContext.id).Nodup := by
  rw [List.nodup_iff_getElem?_ne_getElem?]
  intro i j hij hj heq
  rw [List.length_map] at hj
  have hid : ∀ k (hk : k < contexts.length), (contexts.map ConnectionContext.id)[k]? =
      some (UInt64.ofNat (k + 1)) := by
    intro k hk
    rw [List.getElem?_map, List.getElem?_eq_getElem hk]
    exact congrArg some (hids k _ (List.getElem?_eq_getElem hk))
  rw [hid i (by omega), hid j hj] at heq
  have hsize : UInt64.size = 2 ^ 64 := rfl
  have hnat := congrArg UInt64.toNat (Option.some.inj heq)
  rw [UInt64.toNat_ofNat_of_lt' (by omega), UInt64.toNat_ofNat_of_lt' (by omega)] at hnat
  omega

/--
**Admission and accounting.** In every reachable state, whatever the order in which clients
come, connections end and the server shuts down, and whatever happens while an `admit` is
under way: each admitted connection holds one permit until it ends, counters and ids follow,
and the byte counters are the sums over the connections that have ended.
-/
theorem admission_accounting (config : ServerConfig) (start : Nat)
    (es : List (Nat × ServerEvent)) (s : Server)
    (h : run Server.step (.new config start) es = some s) : Accounts config es s := by
  have hheld := permitsHeld_of_run h
  have hbooks : Books _ _ _ s.log := balanced_of_run h
  have hperm := hbooks.opened_perm
  refine ⟨hperm, hheld.one, ?_, ?_, ?_, hbooks.accepted, ?_, fun now peer stamp s' hs =>
    acceptAccounts hheld hs, fun now peer s' hs => heldPermits_of_overLimit hheld hs, hbooks.ids,
    nodup_ids hbooks.ids, hbooks.bytesIn, hbooks.bytesOut⟩
  · have := hheld.free
    omega
  · have := hheld.free
    rw [hheld.heldPermits]
    omega
  · rw [hbooks.accepts, ← UInt64.ofNat_add, countP_accepted_of_run h]
    simp [Server.new, Server.pending]
  · have hlen := hperm.length_eq
    rw [List.length_append, List.length_map, List.length_map] at hlen
    rw [hheld.heldPermits, hlen]

/-- Two clients are served, a third one is over the limit, and one of the two hangs up. -/
theorem admission_accounting_three_clients :
    let client := SocketAddr.v4 (.new 203 0 113 5)
    let es : List (Nat × ServerEvent) :=
      [(0, .accept (client 40000) 0), (0, .tryAcquire), (1, .accept (client 40001) 1),
        (1, .tryAcquire), (2, .accept (client 40002) 2), (2, .tryAcquire),
        (3, .connection 0 (.readFailed .earlyEof) 3), (4, .finish 0)]
    ∃ s, run Server.step (.new smallConfig 0) es = some s ∧
      s.connections.map Connection.context = [⟨2, client 40001⟩] ∧ s.heldPermits = 1 ∧
      s.state.stats.rejectedOverLimit.value = 1 ∧ Accounts smallConfig es s := by
  intro client es
  have hrun : (run Server.step (.new smallConfig 0) es).map (fun s =>
      (s.connections.map Connection.context, s.heldPermits,
        s.state.stats.rejectedOverLimit.value)) = some ([⟨2, client 40001⟩], 1, 1) := by
    decide +kernel
  obtain ⟨s, hs, hobs⟩ := Option.map_eq_some_iff.mp hrun
  obtain ⟨hopened, hobs⟩ := Prod.mk.inj hobs
  obtain ⟨hheld, hover⟩ := Prod.mk.inj hobs
  exact ⟨s, hs, hopened, hheld, hover, admission_accounting smallConfig 0 es s hs⟩

end SocksServer
