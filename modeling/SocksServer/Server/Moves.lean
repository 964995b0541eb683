import SocksServer.Server.Accounting

/-!
# Connections of the server

What is proved about one connection holds of every connection of the server, in whatever order
its tasks move.

* `Kept` — a property of connections that every move keeps
* `Kept.of_run` — it holds of every connection in every reachable state
* `records_of_step` — what an event does to the task and to the log of a connection
* `kept_of_step` — what every event of a task keeps holds of the tasks in the server
* `inSpec_of_run` — every connection stands where `serve_connection` can stand
-/

namespace SocksServer

open Infra

/-! ## Properties of connections -/

/--
A property of connections that every move keeps. It may use the log of the server, to which
entries are only added. A client is admitted from the whitelist, by its canonical address.
-/
structure Kept (config : ServerConfig) (P : List ServerLog → Connection → Prop) : Prop where
  later : ∀ {log : List ServerLog} {c : Connection} (entries : List ServerLog), P log c →
    P (log ++ entries) c
  new : ∀ (log : List ServerLog) (peer : SocketAddr) (id : UInt64),
    config.clientAcl.isAllowed peer.ip = true → IsCanonical peer.ip →
    P (log ++ [.accepted peer (.admitted ⟨id, peer⟩ ⟨1⟩)]) (.new config ⟨id, peer⟩ ⟨1⟩)
  task : ∀ {s : Server} {c c₁ c₂ : Connection} {event : Task.Event ConnSig} (stamp : Nat),
    P s.log c → c.mayHappen s.state.forceClose event = true → c.relayStep event = some c₁ →
    c₁.step config.users event = some c₂ → P (s.log ++ s.observe c.context stamp event) c₂
  relayTcp : ∀ {log : List ServerLog} {c c' : Connection} (now : Nat) (client target : Bytes × Bool),
    P log c → c.step config.users (.returned .relayTcp ()) = some c' →
    P log { c' with relay := some (.new config.timeouts.idle now (.new client.1 client.2)
      (.new target.1 target.2)) }
  pump : ∀ {log : List ServerLog} {c : Connection} {relay relay' : RelayState} (side : Side)
    (now : Nat) (outcome : Outcome), P log c → c.relay = some relay →
    relay.step (.pump side now outcome) = some relay' →
    P log { c with relay := some relay' }

/-- The client that `admit` is about is on the whitelist, and known by its canonical address. -/
def Server.Screened (config : ServerConfig) (s : Server) : Prop :=
  ∀ peer, s.phase = .admitting peer →
    config.clientAcl.isAllowed peer.ip = true ∧ IsCanonical peer.ip

theorem screened_new (config : ServerConfig) (start : Nat) :
    (Server.new config start).Screened config := by
  rintro peer ⟨⟩

theorem Server.Screened.move {config : ServerConfig} {s s' : Server} {e : ServerEvent}
    (h : s.Screened config) (hconfig : s.state.config = config) (hmove : Move s e s') :
    s'.Screened config := by
  cases hmove with
  | run hrun =>
    cases hrun with
    | passed peer _ _ hallowed =>
      rintro _ ⟨⟩
      rw [hconfig] at hallowed
      rw [ip_canonicalAddr]
      exact ⟨hallowed, canonicalIp_idem _⟩
    | notWhitelisted | banned | acceptFailed | purge => exact h
    | _ => rintro _ ⟨⟩
  | admitted => rintro _ ⟨⟩
  | _ => exact h

namespace Kept

variable {config : ServerConfig} {P : List ServerLog → Connection → Prop} {s s' : Server}

/-- A step within connection `i`; the others only see the log grow. -/
theorem set (h : Kept config P) (hs : ∀ c ∈ s.connections, P s.log c) {i : Nat} {c' : Connection}
    {entries : List ServerLog} (hc' : P (s.log ++ entries) c') :
    ∀ c ∈ s.connections.set i c', P (s.log ++ entries) c := by
  intro c hc
  rcases List.mem_or_eq_of_mem_set hc with hc | rfl
  · exact h.later _ (hs c hc)
  · exact hc'

theorem set_quiet (h : Kept config P) (hs : ∀ c ∈ s.connections, P s.log c) {i : Nat}
    {c' : Connection} (hc' : P s.log c') : ∀ c ∈ s.connections.set i c', P s.log c := by
  rw [← List.append_nil s.log] at hc' ⊢
  exact h.set hs hc'

theorem move (h : Kept config P) (hconfig : s.state.config = config) (hscreened : s.Screened config)
    (hs : ∀ c ∈ s.connections, P s.log c) {e : ServerEvent} (hmove : Move s e s') :
    ∀ c ∈ s'.connections, P s'.log c := by
  cases hmove with
  | run hrun =>
    obtain ⟨hconnections, -, -, entries, hlog, -⟩ := hrun.frame
    rw [hconnections, hlog]
    exact fun c hc => h.later _ (hs c hc)
  | admitted hphase =>
    intro c hc
    rcases List.mem_append.mp hc with hc | hc
    · exact h.later _ (hs c hc)
    · obtain ⟨hallowed, hcanonical⟩ := hscreened _ hphase
      rw [List.mem_singleton.mp hc, hconfig]
      exact h.new _ _ _ hallowed hcanonical
  | task i event hstamp hc hmay hstate hrelay hstep =>
    rw [hconfig] at hstep
    exact h.set hs (h.task _ (hs _ (List.mem_of_getElem? hc)) hmay hrelay hstep)
  | relayTcp i client target hc hstep =>
    rw [hconfig] at hstep ⊢
    exact h.set_quiet hs (h.relayTcp s.now client target (hs _ (List.mem_of_getElem? hc)) hstep)
  | pump i side outcome hc hrelay hstep =>
    exact h.set_quiet hs (h.pump side s.now outcome (hs _ (List.mem_of_getElem? hc)) hrelay hstep)
  | finish i hc htask => exact fun c hc => h.later _ (hs c (List.mem_of_mem_eraseIdx hc))

/-- **Connections in the server.** What every move keeps holds in every reachable state. -/
theorem of_run (h : Kept config P) {start : Nat} {es : List (Nat × ServerEvent)}
    (hrun : run Server.step (.new config start) es = some s) :
    ∀ c ∈ s.connections, P s.log c := by
  refine (run_invariant (I := fun s => PermitsHeld config s ∧ s.Screened config ∧
    ∀ c ∈ s.connections, P s.log c) ?_
    ⟨.new config start, screened_new config start, by simp [Server.new]⟩ hrun).2.2
  rintro s e s' ⟨hpermits, hscreened, hs⟩ he
  obtain ⟨-, hmove⟩ := move_of_step he
  exact ⟨hpermits.step he, hscreened.move (s := { s with now := e.1 }) hpermits.config_eq hmove,
    h.move (s := { s with now := e.1 }) hpermits.config_eq hscreened hs hmove⟩

end Kept

/-! ## Tasks in the server -/

section Tasks

variable {config : ServerConfig}

/-- An event that reaches a task, with what it does to the world of the connection. -/
theorem Connection.step_eq {users : UserStore} {c c' : Connection} {event : Task.Event ConnSig}
    (h : c.step users event = some c') :
    (connWorld users).step (c.task, c.world) event = some (c'.task, c'.world) ∧
      c'.relay = c.relay ∧ c'.context = c.context := by
  obtain ⟨⟨task, world⟩, hstep, rfl⟩ := Option.map_eq_some_iff.mp h
  exact ⟨hstep, rfl, rfl⟩

/-- The relay is apart from the task. -/
theorem Connection.relayStep_task {c c' : Connection} {event : Task.Event ConnSig}
    (h : c.relayStep event = some c') : c'.task = c.task ∧ c'.world = c.world := by
  unfold relayStep at h
  split at h
  · split at h
    · obtain rfl := Option.some.inj h
      exact ⟨rfl, rfl⟩
    · simp at h
  · obtain rfl := Option.some.inj h
    exact ⟨rfl, rfl⟩
  · simp at h
  · obtain rfl := Option.some.inj h
    exact ⟨rfl, rfl⟩

/-- The task of a connection sees the event it is given. -/
theorem Connection.step_after_relayStep {users : UserStore} {c c₁ c₂ : Connection}
    {event : Task.Event ConnSig} (hrelay : c.relayStep event = some c₁)
    (hstep : c₁.step users event = some c₂) :
    (connWorld users).step (c.task, c.world) event = some (c₂.task, c₂.world) := by
  obtain ⟨htask, hworld⟩ := relayStep_task hrelay
  rw [← htask, ← hworld]
  exact (step_eq hstep).1

/-- What an event writes into the log of a connection. -/
inductive Records (users : UserStore) (w : ConnWorld) : Task.Event ConnSig → List ConnLog → Prop
  | nothing {e : Task.Event ConnSig} :
    (∀ username password result, e ≠ .returned (.verify username password) result) →
    Records users w e []
  | verified {username password : Bytes} {result : Option String} :
    users.verify username password = result →
    Records users w (.returned (.verify username password) result)
      [.verified username password result]
  | authFailure : Records users w (.returned .incrementAuthFailures ()) [.authFailure]
  | failureRecorded (ip : IpAddr) {verdict : FailureVerdict} :
    Records users w (.returned (.recordFailure ip) verdict) [.failureRecorded ip]
  | connectToTarget (target : TargetAddr) :
    Records users w (.returned (.connectToTarget target) ()) [.connectToTarget target w.consumed]
  | connected (addr : SocketAddr) :
    Records users w (.answered (.tcpConnect addr) (.ok ())) [.connected addr]
  | relayStarted : Records users w (.returned .relayTcp ()) [.relayStarted w.written]
  | relayEnded (result : RelayEnd) :
    Records users w (.answered .relay result) [.relayEnded result]

theorem records_of_effect {users : UserStore} {w w' : ConnWorld} {e : Task.Event ConnSig}
    (h : (connWorld users).effect w e = some w') :
    ∃ entries, w'.log = w.log ++ entries ∧ Records users w e entries := by
  cases e with
  | answered op r =>
    cases op with
    | tcpConnect addr =>
      cases r with
      | ok u =>
        obtain rfl : w.record (.connected addr) = w' := Option.some.inj h
        exact ⟨_, rfl, .connected addr⟩
      | error error =>
        obtain rfl : w = w' := Option.some.inj h
        exact ⟨[], by simp, .nothing (by rintro _ _ _ ⟨⟩)⟩
    | relay =>
      obtain rfl : w.record (.relayEnded r) = w' := Option.some.inj h
      exact ⟨_, rfl, .relayEnded r⟩
    | lookupHost host port =>
      obtain rfl : w = w' := Option.some.inj h
      exact ⟨[], by simp, .nothing (by rintro _ _ _ ⟨⟩)⟩
  | returned c r =>
    cases c with
    | verify username password =>
      simp only [World.effect, connWorld, ConnWorld.call] at h
      split at h
      · next hverify =>
        rw [← Option.some.inj h]
        exact ⟨_, rfl, .verified hverify⟩
      · simp at h
    | incrementAuthFailures =>
      obtain rfl : w.record .authFailure = w' := Option.some.inj h
      exact ⟨_, rfl, .authFailure⟩
    | recordFailure ip =>
      obtain rfl : w.record (.failureRecorded ip) = w' := Option.some.inj h
      exact ⟨_, rfl, .failureRecorded ip⟩
    | connectToTarget target =>
      obtain rfl : w.record (.connectToTarget target w.consumed) = w' := Option.some.inj h
      exact ⟨_, rfl, .connectToTarget target⟩
    | relayTcp =>
      obtain rfl : w.record (.relayStarted w.written) = w' := Option.some.inj h
      exact ⟨_, rfl, .relayStarted⟩
    | _ =>
      rw [← Option.some.inj h]
      exact ⟨[], by simp, .nothing (by rintro _ _ _ ⟨⟩)⟩
  | _ =>
    rw [← Option.some.inj h]
    exact ⟨[], by simp [connWorld, ConnWorld.recv, ConnWorld.send],
      .nothing (by rintro _ _ _ ⟨⟩)⟩

/-- A step of a connection, by its task and by its log. -/
theorem records_of_step {users : UserStore} {task task' : Task ConnSig CloseReason}
    {w w' : ConnWorld} {e : Task.Event ConnSig}
    (h : (connWorld users).step (task, w) e = some (task', w')) :
    task.step e = some task' ∧ ∃ entries, w'.log = w.log ++ entries ∧ Records users w e entries := by
  obtain ⟨p, hp, hmap⟩ := Option.bind_eq_some_iff.mp h
  obtain ⟨w₁, heffect, heq⟩ := Option.map_eq_some_iff.mp hmap
  obtain ⟨rfl, rfl⟩ := Prod.mk.inj heq
  exact ⟨hp, records_of_effect heffect⟩

/-- A property of the task and its world that every event keeps. -/
theorem kept_of_step {P : SocketAddr → Task ConnSig CloseReason → ConnWorld → Prop}
    (hnew : ∀ peer, P peer (serveConnection config.destinationPolicy peer) .new)
    (hstep : ∀ {peer : SocketAddr} {task task' : Task ConnSig CloseReason} {w w' : ConnWorld}
      {e : Task.Event ConnSig}, P peer task w →
      (connWorld config.users).step (task, w) e = some (task', w') → P peer task' w') :
    Kept config fun _ c => P c.context.peer c.task c.world where
  later _ hc := hc
  new _ peer _ _ _ := hnew peer
  task := by
    intro s c c₁ c₂ event stamp hc _ hrelay hc'
    rw [(Connection.context_of_task hrelay hc').1]
    exact hstep hc (Connection.step_after_relayStep hrelay hc')
  relayTcp := by
    intro log c c' now client target hc hc'
    show P c'.context.peer c'.task c'.world
    rw [(Connection.step_context hc').1]
    exact hstep hc (Connection.step_eq hc').1
  pump _ _ _ hc _ _ := hc

/-! ## Where a connection stands -/

/-- The connection stands in one of its states, and ends in one of its ends. -/
def Connection.InSpec (users : UserStore) (c : Connection) : Prop :=
  c.task.wp (connWorld users) (ConnAt c.context.peer) (ConnEnds c.context.peer) c.world

/-- **The connections of a server** do what `serve_connection` does. -/
theorem kept_inSpec (config : ServerConfig) : Kept config fun _ c => c.InSpec config.users :=
  kept_of_step (P := fun peer task w =>
    task.wp (connWorld config.users) (ConnAt peer) (ConnEnds peer) w)
    (wp_serveConnection config.users _) fun hwp hstep => Task.wp_step hwp hstep

namespace Connection.InSpec

variable {users : UserStore} {c : Connection}

theorem cases (h : c.InSpec users) :
    (∃ reason, c.task = .done reason ∧ ConnEnds c.context.peer reason c.world) ∨
      ConnAt c.context.peer c.task.settled c.world := Task.wp_invariant h

/-- A connection that has ended. -/
theorem ends (h : c.InSpec users) {reason : CloseReason} (htask : c.task = .done reason) :
    ConnEnds c.context.peer reason c.world := by
  unfold InSpec at h
  rwa [htask] at h

end Connection.InSpec

theorem inSpec_of_run {start : Nat} {es : List (Nat × ServerEvent)} {s : Server}
    (h : run Server.step (.new config start) es = some s) :
    ∀ c ∈ s.connections, c.InSpec s.state.config.users := by
  rw [(permitsHeld_of_run h).config_eq]
  exact (kept_inSpec config).of_run h

end Tasks

end SocksServer
