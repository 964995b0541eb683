import SocksServer.Server.ClosedLine

/-!
# Access control of the whole server

What the server does towards the network, in whatever order its tasks move: it looks up a name,
connects or relays only for a client from the whitelist that has shown the password of a
configured user, only to canonical addresses that the destination policy allows, and it gives
the resolver only names of letters, digits and `-_.:`.

* `kept_allowed` — what a connection waits for is allowed, and so is what it has connected
* `kept_beforeConnector` — it waits for nothing before `connect_to_target`
* `access_control` — the two together with the order of things in one connection
-/

namespace SocksServer

open Infra

/-! ## The server -/

section Server

variable (config : ServerConfig)

/-- A client is admitted from the whitelist, and known by its canonical address. -/
theorem kept_whitelisted :
    Kept config fun _ c => config.clientAcl.isAllowed c.context.peer.ip = true ∧
      IsCanonical c.context.peer.ip where
  later _ h := h
  new _ _ _ hallowed hcanonical := ⟨hallowed, hcanonical⟩
  task := by
    intro s c c₁ c₂ event stamp h _ hrelay hstep
    rw [(Connection.step_context hstep).1, (Connection.relayStep_context hrelay).1]
    exact h
  relayTcp := by
    intro log c c' now client target h hstep
    show _ = true ∧ IsCanonical c'.context.peer.ip
    rw [(Connection.step_context hstep).1]
    exact h
  pump _ _ _ h _ _ := h

/-- What is waited for is allowed, and so is what has been connected. -/
theorem kept_allowed :
    Kept config fun _ c => c.task.All (OpAllowed config.destinationPolicy) (fun _ => True) (fun _ => True) ∧
      ∀ addr, .connected addr ∈ c.world.log →
        OpAllowed config.destinationPolicy (.tcpConnect addr) := by
  refine kept_of_step (P := fun _ task w =>
    task.All (OpAllowed config.destinationPolicy) (fun _ => True) (fun _ => True) ∧
      ∀ addr, .connected addr ∈ w.log → OpAllowed config.destinationPolicy (.tcpConnect addr))
    (fun peer => ⟨all_serveConnection _ peer, by simp [ConnWorld.new]⟩) ?_
  rintro peer task task' w w' event ⟨hall, hconnected⟩ hstep
  obtain ⟨htask, entries, hlog, hrecords⟩ := records_of_step hstep
  refine ⟨hall.step htask, ?_⟩
  intro addr hmem
  rw [hlog] at hmem
  rcases List.mem_append.mp hmem with hmem | hmem
  · exact hconnected addr hmem
  · cases hrecords with
    | connected addr' =>
      -- an address is connected when it was waited for
      obtain rfl : addr = addr' := by simpa using hmem
      cases task <;> simp only [Task.step, reduceCtorEq] at htask
      case await op t k =>
        split at htask
        · next hop =>
          subst hop
          exact hall.1
        · simp at htask
    | _ => simp at hmem

/-- Before the connector has been entered, nothing is waited for and nothing is connected. -/
def BeforeConnector (task : Task ConnSig CloseReason) (w : ConnWorld) : Prop :=
  task.Guarded (fun call => ∃ target, call = ConnCall.connectToTarget target) ∧
    ∀ addr, .connected addr ∉ w.log

theorem kept_beforeConnector :
    Kept config fun _ c => BeforeConnector c.task c.world ∨
      ∃ target consumed, .connectToTarget target consumed ∈ c.world.log := by
  refine kept_of_step (P := fun _ task w => BeforeConnector task w ∨
      ∃ target consumed, .connectToTarget target consumed ∈ w.log)
    (fun peer => .inl ⟨guarded_serveConnection _ peer, by simp [ConnWorld.new]⟩) ?_
  intro peer task task' w w' event h hstep
  obtain ⟨htask, entries, hlog, hrecords⟩ := records_of_step hstep
  rcases h with ⟨hguarded, hnone⟩ | ⟨target, consumed, hmem⟩
  · rcases hguarded.step htask with hguarded' | ⟨call, r, rfl, target, rfl⟩
    · refine .inl ⟨hguarded', ?_⟩
      intro addr hmem
      rw [hlog] at hmem
      rcases List.mem_append.mp hmem with hmem | hmem
      · exact hnone addr hmem
      · -- a connect is answered only where it is awaited
        cases hrecords with
        | connected addr' =>
          cases task <;> simp only [Task.step, reduceCtorEq] at htask
          exact hguarded.elim
        | _ => simp at hmem
    · -- the call that the guard waits for writes the entry
      have heffect : w.record (.connectToTarget target w.consumed) = w' := by
        obtain ⟨p, -, hmap⟩ := Option.bind_eq_some_iff.mp hstep
        obtain ⟨w₁, heffect, heq⟩ := Option.map_eq_some_iff.mp hmap
        exact (Option.some.inj heffect).trans (Prod.mk.inj heq).2
      refine .inr ⟨target, w.consumed, ?_⟩
      rw [← heffect]
      exact List.mem_append_right _ (List.mem_singleton.mpr rfl)
  · refine .inr ⟨target, consumed, ?_⟩
    rw [hlog]
    exact List.mem_append_left _ hmem

/-- A credential check of a connection is in the log of the server. -/
theorem kept_verified :
    Kept config fun log c => ∀ username password user,
      .verified username password (some user) ∈ c.world.log →
        config.users.verify username password = some user ∧
          ∃ t, .verified c.context (some user) t ∈ log where
  later entries h username password user hmem := by
    obtain ⟨hverify, t, ht⟩ := h username password user hmem
    exact ⟨hverify, t, List.mem_append_left _ ht⟩
  new _ _ _ _ := by simp [Connection.new, ConnWorld.new]
  task := by
    intro s c c₁ c₂ event stamp h _ hrelay hstep username password user hmem
    obtain ⟨-, entries, hlog, hrecords⟩ :=
      records_of_step (Connection.step_after_relayStep hrelay hstep)
    have hcontext : c₂.context = c.context :=
      (Connection.step_context hstep).1.trans (Connection.relayStep_context hrelay).1
    rw [hlog] at hmem
    rw [hcontext]
    rcases List.mem_append.mp hmem with hmem | hmem
    · obtain ⟨hverify, t, ht⟩ := h username password user hmem
      exact ⟨hverify, t, List.mem_append_left _ ht⟩
    · cases hrecords with
      | verified hverify =>
        simp only [List.mem_singleton, ConnLog.verified.injEq] at hmem
        obtain ⟨rfl, rfl, rfl⟩ := hmem
        exact ⟨hverify, s.now, List.mem_append_right _ (List.mem_singleton.mpr rfl)⟩
      | _ => simp at hmem
  relayTcp := by
    intro log c c' now client target h hstep username password user hmem
    obtain ⟨hworld, -, hcontext⟩ := Connection.step_eq hstep
    obtain ⟨-, entries, hlog, hrecords⟩ := records_of_step hworld
    change .verified username password (some user) ∈ c'.world.log at hmem
    show _ ∧ ∃ t, .verified c'.context (some user) t ∈ log
    rw [hlog] at hmem
    rw [hcontext]
    rcases List.mem_append.mp hmem with hmem | hmem
    · exact h username password user hmem
    · cases hrecords <;> simp at hmem
  pump _ _ _ h _ _ := h

end Server

/-- The client of a connection has shown the password of `user`. -/
def ShownPassword (config : ServerConfig) (log : List ServerLog) (c : Connection) (user : String) :
    Prop :=
  (∃ username password, config.users.verify username password = some user ∧
    .verified username password (some user) ∈ c.world.log) ∧
  ∃ t, .verified c.context (some user) t ∈ log

/-- What a connection may do towards the network. -/
structure AccessRight (config : ServerConfig) (log : List ServerLog) (c : Connection) : Prop where
  whitelisted : config.clientAcl.isAllowed c.context.peer.ip = true ∧ IsCanonical c.context.peer.ip
  /-- Before it looks up a name, connects or relays. -/
  awaits : ∀ op t k, c.task = .await op t k →
    OpAllowed config.destinationPolicy op ∧ ∃ user, ShownPassword config log c user
  relays : c.relay ≠ none → (∃ user, ShownPassword config log c user) ∧
    ∃ addr, .connected addr ∈ c.world.log ∧ OpAllowed config.destinationPolicy (.tcpConnect addr)

/-- Of a log that is safe: whoever got to the connector has shown a password. -/
theorem exists_verified_of_safe {w : ConnWorld} (h : LogSafe w.log) {target : TargetAddr}
    {consumed : Bytes} (hmem : .connectToTarget target consumed ∈ w.log) :
    ∃ username password user, .verified username password (some user) ∈ w.log := by
  obtain ⟨before, after, hsplit⟩ := List.append_of_mem hmem
  obtain ⟨⟨username, password, user, hverified⟩, -⟩ := h _ _ _ hsplit
  exact ⟨username, password, user, by rw [hsplit]; exact List.mem_append_left _ hverified⟩

/-- The relay of a connection is between it and a connected target. -/
theorem exists_connected_of_safe {w : ConnWorld} (h : LogSafe w.log) (hrelays : w.relays = true) :
    ∃ addr, .connected addr ∈ w.log := by
  obtain ⟨entry, hmem, hentry⟩ := List.any_eq_true.mp hrelays
  cases entry with
  | relayStarted written =>
    obtain ⟨before, after, hsplit⟩ := List.append_of_mem hmem
    obtain ⟨⟨addr, haddr⟩, -⟩ := h _ _ _ hsplit
    exact ⟨addr, by rw [hsplit]; exact List.mem_append_left _ haddr⟩
  | _ => simp at hentry

/--
**Access control.** In every reachable state of the server and for each of its connections: the
client is on the whitelist; a name is looked up, a connect is under way or a relay runs only
after this client has shown the password of a configured user; the name has no character that
the resolver could misread; and every address connected to is canonical and allowed by the
destination policy.
-/
theorem access_control (config : ServerConfig) (start : Nat) (es : List (Nat × ServerEvent))
    (s : Server) (h : run Server.step (.new config start) es = some s) (c : Connection)
    (hc : c ∈ s.connections) : AccessRight config s.log c := by
  have hsafe : LogSafe c.world.log := by
    rcases ((kept_inSpec config).of_run h c hc).cases with ⟨reason, -, hends⟩ | hat
    · exact hends.safe.log
    · exact hat.safe.log
  obtain ⟨hall, hconnected⟩ := (kept_allowed config).of_run h c hc
  have hshown : (∃ target consumed, .connectToTarget target consumed ∈ c.world.log) →
      ∃ user, ShownPassword config s.log c user := by
    rintro ⟨target, consumed, hmem⟩
    obtain ⟨username, password, user, hmem⟩ := exists_verified_of_safe hsafe hmem
    obtain ⟨hverify, ht⟩ := (kept_verified config).of_run h c hc username password user hmem
    exact ⟨user, ⟨username, password, hverify, hmem⟩, ht⟩
  have hbefore := (kept_beforeConnector config).of_run h c hc
  refine ⟨(kept_whitelisted config).of_run h c hc, ?_, ?_⟩
  · intro op t k htask
    rw [htask] at hall hbefore
    refine ⟨hall.1, hshown ?_⟩
    rcases hbefore with ⟨hguarded, -⟩ | hentered
    · exact hguarded.elim
    · exact hentered
  · intro hrelay
    have hrelays : c.world.relays = true := by
      by_contra hnone
      exact hrelay ((kept_noRelay config).of_run h c hc (by simpa using hnone))
    obtain ⟨addr, haddr⟩ := exists_connected_of_safe hsafe hrelays
    refine ⟨hshown ?_, addr, haddr, hconnected addr haddr⟩
    rcases hbefore with ⟨-, hnone⟩ | hentered
    · exact absurd haddr (hnone addr)
    · exact hentered

/-- The future that a connection awaits, if it is not its stream. -/
def Connection.awaits? (c : Connection) : Option ConnOp :=
  match c.task with
  | .await op _ _ => some op
  | _ => none

/-- A client that has logged in and waits for its target. -/
theorem access_control_connecting :
    ∃ s c, run Server.step (.new smallConfig 0)
        ((0, .accept (.v4 (.new 203 0 113 5) 40000) 0) :: (0, .tryAcquire) ::
          [.received [5], .received [1], .received [2], .sent [5, 2], .received [1], .received [1],
            .received [97], .received [1], .received [98], .returned (.verify [97] [98]) (some "a"),
            .returned (.setUser "a") (), .sent [1, 0], .received [5, 1, 0, 1],
            .received [8, 8, 8, 8], .received [0, 53],
            .returned (.setTarget (.ip (.v4 (.new 8 8 8 8) 53))) (),
            .returned (.connectToTarget (.ip (.v4 (.new 8 8 8 8) 53))) ()].map
          fun event => (1, .connection 0 event 1)) = some s ∧
      c ∈ s.connections ∧ c.awaits? = some (.tcpConnect (.v4 (.new 8 8 8 8) 53)) ∧
      AccessRight smallConfig s.log c := by
  have hrun : (run Server.step (.new smallConfig 0)
        ((0, .accept (.v4 (.new 203 0 113 5) 40000) 0) :: (0, .tryAcquire) ::
          [.received [5], .received [1], .received [2], .sent [5, 2], .received [1], .received [1],
            .received [97], .received [1], .received [98], .returned (.verify [97] [98]) (some "a"),
            .returned (.setUser "a") (), .sent [1, 0], .received [5, 1, 0, 1],
            .received [8, 8, 8, 8], .received [0, 53],
            .returned (.setTarget (.ip (.v4 (.new 8 8 8 8) 53))) (),
            .returned (.connectToTarget (.ip (.v4 (.new 8 8 8 8) 53))) ()].map
          fun event => (1, .connection 0 event 1))).map
        (fun s => s.connections.map Connection.awaits?) =
      some [some (.tcpConnect (.v4 (.new 8 8 8 8) 53))] := by
    decide +kernel
  obtain ⟨s, hs, hconnections⟩ := Option.map_eq_some_iff.mp hrun
  have hmem :
      some (.tcpConnect (.v4 (.new 8 8 8 8) 53)) ∈ s.connections.map Connection.awaits? := by
    simp [hconnections]
  obtain ⟨c, hc, hawaits⟩ := List.mem_map.mp hmem
  exact ⟨s, c, hs, hc, hawaits, access_control smallConfig 0 _ s hs c hc⟩

end SocksServer
