import SocksServer.Server.Moves
import SocksServer.Server.Shapes

/-!
# Shutdown

`run` stops accepting, gives open connections a grace period and closes what is left
(`drain` of `server/socks_server.rs`).

* `Orderly` — what every step keeps
* `Signalled` — how long ago the signal came, from where `run` stands
* `shutdown_orderly` — no connection is interrupted before the grace period is over, and no
  client connection is open when `wait_for_connections` says so
* `shutdown_completes` — whatever clients, targets and the resolver do or do not do, `run` and
  every connection can come to an end by the steps of the server alone
-/

namespace SocksServer

open Infra

/-! ## Where `run` stands -/

/-- What `run` has done about `force_close` by then, if that is settled. -/
def RunPhase.forceClose? : RunPhase → Option Bool
  | .accepting => some false
  | .admitting _ => some false
  | .draining => some false
  | .waiting forced _ => some forced
  | .graceOver => some false
  | .forceClosed => some true
  | .drained => none

/-- `run` stays where it is, and no client is admitted. -/
structure SamePhase (s s' : Server) : Prop where
  phase : s'.phase = s.phase
  forceClose : s'.state.forceClose = s.state.forceClose
  now : s'.now = s.now
  connections : (s'.connections.map Connection.context).Sublist
    (s.connections.map Connection.context)

section Phases

variable {s s' : Server}

theorem ServerState.connectionStep_forceClose {state state' : ServerState} {stamp : Nat}
    {event : Task.Event ConnSig} (h : state.connectionStep stamp event = some state') :
    state'.forceClose = state.forceClose := by
  unfold connectionStep at h
  split at h
  · dsimp only at h
    split at h
    · rw [← Option.some.inj h]
    · simp at h
  · rw [← Option.some.inj h]
  · rw [← Option.some.inj h]

/-- A step within one connection. -/
theorem samePhase_set {i : Nat} {c c' : Connection} {state : ServerState} {log : List ServerLog}
    (hc : s.connections[i]? = some c) (hcontext : c'.context = c.context)
    (hforce : state.forceClose = s.state.forceClose) :
    SamePhase s (.setConnection { s with state, log } i c') := by
  refine ⟨rfl, hforce, rfl, ?_⟩
  simp only [Server.setConnection]
  rw [map_context_set hc hcontext]

/-- What a step is to `run`: its own, the end of an admission, or nothing. -/
theorem Move.phase {e : ServerEvent} (h : Move s e s') :
    RunStep s e s' ∨ SamePhase s s' ∨ (∃ peer, s.phase = .admitting peer) ∧
      s'.phase = .accepting ∧ s'.state.forceClose = s.state.forceClose := by
  cases h with
  | run hrun => exact .inl hrun
  | admitted hphase => exact .inr (.inr ⟨⟨_, hphase⟩, rfl, rfl⟩)
  | task i event _ hc _ hstate hrelay hstep =>
    exact .inr (.inl (samePhase_set hc (Connection.context_of_task hrelay hstep).1
      (ServerState.connectionStep_forceClose hstate)))
  | relayTcp i client target hc hstep =>
    exact .inr (.inl (samePhase_set hc (Connection.step_context hstep).1 rfl))
  | pump i side outcome hc _ _ => exact .inr (.inl (samePhase_set hc rfl rfl))
  | finish i hc htask =>
    exact .inr (.inl ⟨rfl, rfl, rfl, (List.eraseIdx_sublist _ _).map _⟩)

/-- `wait_for_connections` has got every permit when no client connection is open. -/
theorem PermitsHeld.acquired_iff {config : ServerConfig} (h : PermitsHeld config s)
    {forced : Bool} {deadline : Nat} (hphase : s.phase = .waiting forced deadline) :
    s.state.connectionPermits.acquired = true ↔ s.connections = [] := by
  have hwaits : s.state.connectionPermits.waitsFor = some config.maxConnections.toNat := by
    rw [h.waitsFor, hphase]
    rfl
  have hfree := h.free
  rw [Semaphore.acquired_iff_of_waitsFor hwaits (by omega), ← List.length_eq_zero_iff]
  omega

end Phases

/-! ## What every step keeps -/

/-- `force_close` is the only way to `shutdown`, and ends a task at once. -/
def Interruptible (forceClose : Bool) (task : Task ConnSig CloseReason) : Prop :=
  task.Scoped (· ≠ .shutdown) .shutdown ∨ forceClose = true ∧ task = .done .shutdown

structure Orderly (s : Server) : Prop where
  force : ∀ forced, s.phase.forceClose? = some forced → s.state.forceClose = forced
  clean : s.phase = .drained → s.state.forceClose = false → s.connections = []
  tasks : ∀ c ∈ s.connections, Interruptible s.state.forceClose c.task
  log : ∀ context counters, .finished context .shutdown counters ∈ s.log →
    s.state.forceClose = true

section Orderly

variable {config : ServerConfig} {s s' : Server}

theorem Interruptible.mono {forceClose forceClose' : Bool} {task : Task ConnSig CloseReason}
    (h : Interruptible forceClose task) (hmono : forceClose = true → forceClose' = true) :
    Interruptible forceClose' task := h.imp_right fun hdone => ⟨hmono hdone.1, hdone.2⟩

/-- The cancellation branch needs `force_close`; every other event stays below it. -/
theorem Interruptible.step {forceClose : Bool} {c : Connection} {event : Task.Event ConnSig}
    {task : Task ConnSig CloseReason} (h : Interruptible forceClose c.task)
    (hmay : c.mayHappen forceClose event = true) (hstep : c.task.step event = some task) :
    Interruptible forceClose task := by
  rcases h with h | ⟨-, hdone⟩
  · rcases h.step hstep with h | ⟨i, rfl, hi, hdone⟩
    · exact .inl h
    · -- the outermost timer, so `force_close` is cancelled
      have hforce : forceClose = true := by
        simp only [Connection.mayHappen, Bool.or_eq_true, decide_eq_true_eq] at hmay
        exact hmay.resolve_left (by omega)
      exact .inr ⟨hforce, hdone⟩
  · rw [hdone] at hstep
    cases event <;> simp [Task.step] at hstep

theorem Orderly.new (config : ServerConfig) (now : Nat) : Orderly (.new config now) where
  force forced h := Option.some.inj h
  clean h := by cases h
  tasks := by simp [Server.new]
  log := by simp [Server.new]

/-- `force_close` is cancelled for good. -/
theorem forceClose_of_move {e : ServerEvent} (h : Move s e s')
    (hforce : s.state.forceClose = true) : s'.state.forceClose = true := by
  rcases h.phase with hrun | hsame | ⟨-, -, hsame⟩
  · cases hrun with
    | forceClose => rfl
    | _ => exact hforce
  · rw [hsame.forceClose]
    exact hforce
  · rw [hsame]
    exact hforce

/-- What a step does to the tasks and to the log. -/
theorem Orderly.tasks_move (h : Orderly s) {e : ServerEvent} (hmove : Move s e s') :
    (∀ c ∈ s'.connections, Interruptible s'.state.forceClose c.task) ∧
    ∀ context counters, .finished context .shutdown counters ∈ s'.log →
      s'.state.forceClose = true := by
  have hforce := forceClose_of_move hmove
  -- a step within connection `i` that writes no "connection closed" line
  have hset : ∀ (i : Nat) (c' : Connection) (entries : List ServerLog),
      Interruptible s.state.forceClose c'.task →
      (∀ context counters, .finished context .shutdown counters ∉ entries) →
      (∀ c ∈ s.connections.set i c', Interruptible s'.state.forceClose c.task) ∧
      ∀ context counters, .finished context .shutdown counters ∈ s.log ++ entries →
        s'.state.forceClose = true := by
    intro i c' entries hc' hentries
    refine ⟨?_, ?_⟩
    · intro c hc
      rcases List.mem_or_eq_of_mem_set hc with hc | rfl
      · exact (h.tasks c hc).mono hforce
      · exact hc'.mono hforce
    · intro context counters hmem
      rcases List.mem_append.mp hmem with hmem | hmem
      · exact hforce (h.log context counters hmem)
      · exact absurd hmem (hentries context counters)
  have hquiet : ∀ (i : Nat) (c' : Connection), Interruptible s.state.forceClose c'.task →
      (∀ c ∈ s.connections.set i c', Interruptible s'.state.forceClose c.task) ∧
      ∀ context counters, .finished context .shutdown counters ∈ s.log →
        s'.state.forceClose = true := by
    intro i c' hc'
    have hset' := hset i c' [] hc' (by simp)
    rwa [List.append_nil] at hset'
  cases hmove with
  | run hrun =>
    obtain ⟨hconnections, -, -, entries, hlog, hofLoop⟩ := hrun.frame
    rw [hconnections, hlog]
    refine ⟨fun c hc => (h.tasks c hc).mono hforce, ?_⟩
    intro context counters hmem
    rcases List.mem_append.mp hmem with hmem | hmem
    · exact hforce (h.log context counters hmem)
    · exact (hofLoop _ hmem).elim
  | admitted =>
    refine ⟨?_, ?_⟩
    · intro c hc
      rcases List.mem_append.mp hc with hc | hc
      · exact h.tasks c hc
      · rw [List.mem_singleton.mp hc]
        exact .inl (scoped_serveConnection _ _)
    · intro context counters hmem
      rcases List.mem_append.mp hmem with hmem | hmem
      · exact h.log context counters hmem
      · simp at hmem
  | task i event stamp hc hmay hstate hrelay hstep =>
    obtain ⟨htask, -⟩ := records_of_step (Connection.step_after_relayStep hrelay hstep)
    refine hset i _ _ ((h.tasks _ (List.mem_of_getElem? hc)).step hmay htask) ?_
    intro context counters hmem
    unfold Server.observe at hmem
    split at hmem
    · simp at hmem
    · split at hmem <;> simp at hmem
    · simp at hmem
  | @relayTcp i client target c c' hc hstep =>
    obtain ⟨htask, -⟩ := records_of_step (Connection.step_eq hstep).1
    exact hquiet i _ ((h.tasks c (List.mem_of_getElem? hc)).step rfl htask)
  | @pump i side outcome c relay relay' hc hrelay hstep =>
    exact hquiet i _ (h.tasks c (List.mem_of_getElem? hc))
  | @finish i c reason hc htask =>
    refine ⟨fun c hc => h.tasks c (List.mem_of_mem_eraseIdx hc), ?_⟩
    intro context counters hmem
    rcases List.mem_append.mp hmem with hmem | hmem
    · exact h.log context counters hmem
    · -- a task that was not interrupted does not say `shutdown`
      obtain ⟨-, rfl, -⟩ := ServerLog.finished.inj (List.mem_singleton.mp hmem)
      rcases h.tasks c (List.mem_of_getElem? hc) with hscoped | ⟨hforced, -⟩
      · rw [htask] at hscoped
        exact absurd rfl hscoped
      · exact hforced

theorem Orderly.move (h : Orderly s) (hpermits : PermitsHeld config s) {e : ServerEvent}
    (hmove : Move s e s') : Orderly s' := by
  obtain ⟨htasks, hlog⟩ := h.tasks_move hmove
  rcases hmove.phase with hrun | hsame | ⟨⟨peer, hphase⟩, haccepting, hsame⟩
  · cases hrun with
    | notWhitelisted | banned | acceptFailed | purge => exact ⟨h.force, h.clean, htasks, hlog⟩
    | passed _ hphase | overLimit hphase | shutdown hphase =>
      have hnot : s.state.forceClose = false := h.force false (by rw [hphase]; rfl)
      exact ⟨fun _ hforced => hnot.trans (Option.some.inj hforced), by rintro ⟨⟩, htasks, hlog⟩
    | startWaiting hphase | graceOver hphase =>
      have hnot : s.state.forceClose = false := h.force false (by rw [hphase]; rfl)
      exact ⟨fun _ hforced => hnot.trans (Option.some.inj hforced), by rintro ⟨⟩, htasks, hlog⟩
    | allFinished hphase hacquired =>
      exact ⟨by rintro forced ⟨⟩, fun _ _ => (hpermits.acquired_iff hphase).mp hacquired, htasks,
        hlog⟩
    | forceClose hphase =>
      exact ⟨fun _ hforced => Option.some.inj hforced, by rintro ⟨⟩, htasks, hlog⟩
    | waitAgain hphase =>
      have hforce : s.state.forceClose = true := h.force true (by rw [hphase]; rfl)
      exact ⟨fun _ hforced => hforce.trans (Option.some.inj hforced), by rintro ⟨⟩, htasks, hlog⟩
    | notInTime hphase =>
      have hforce : s.state.forceClose = true := h.force true (by rw [hphase]; rfl)
      refine ⟨by rintro forced ⟨⟩, ?_, htasks, hlog⟩
      intro _ hnot
      cases hforce.symm.trans hnot
  · refine ⟨?_, ?_, htasks, hlog⟩
    · rw [hsame.phase, hsame.forceClose]
      exact h.force
    · intro hdrained hnot
      rw [hsame.phase] at hdrained
      rw [hsame.forceClose] at hnot
      have hsub := hsame.connections
      rw [h.clean hdrained hnot] at hsub
      exact List.map_eq_nil_iff.mp (List.sublist_nil.mp hsub)
  · have hnot : s.state.forceClose = false := h.force false (by rw [hphase]; rfl)
    refine ⟨?_, ?_, htasks, hlog⟩
    · intro forced hforced
      rw [haccepting] at hforced
      rw [hsame, hnot]
      exact Option.some.inj hforced
    · rw [haccepting]
      rintro ⟨⟩

/-- What is known of the server in every reachable state. -/
structure WellRun (config : ServerConfig) (s : Server) : Prop where
  permits : PermitsHeld config s
  orderly : Orderly s

/-- The clock is not what it is about. -/
theorem WellRun.tick (h : WellRun config s) (now : Nat) : WellRun config { s with now } :=
  ⟨⟨h.permits.config_eq, h.permits.free, h.permits.one, h.permits.waitsFor⟩,
    ⟨h.orderly.force, h.orderly.clean, h.orderly.tasks, h.orderly.log⟩⟩

theorem WellRun.step (h : WellRun config s) {e : Nat × ServerEvent} (hs : s.step e = some s') :
    WellRun config s' := by
  obtain ⟨-, hmove⟩ := move_of_step hs
  exact ⟨h.permits.step hs, (h.tick e.1).orderly.move (h.tick e.1).permits hmove⟩

theorem WellRun.run (h : WellRun config s) {es : List (Nat × ServerEvent)}
    (hrun : run Server.step s es = some s') : WellRun config s' :=
  run_invariant (fun _ _ _ hs he => hs.step he) h hrun

theorem WellRun.new (config : ServerConfig) (now : Nat) : WellRun config (.new config now) :=
  ⟨.new config now, .new config now⟩

end Orderly

/-! ## Coming to an end -/

/-- A step that needs no client, target, resolver or operator. -/
def ServerEvent.isOwn : ServerEvent → Bool
  | .connection _ (.elapsed _) _ => true
  | .connection _ (.returned _ _) _ => true
  | .relayTcp _ _ _ => true
  | .finish _ => true
  | .drain => true
  | .waitElapsed => true
  | _ => false

/-- By its own steps the server can get from `s` to `s'`. -/
def Reaches (s s' : Server) : Prop :=
  ∃ es, (∀ e ∈ es, e.2.isOwn = true) ∧ run Server.step s es = some s'

section Ending

variable {config : ServerConfig} {s s' s'' : Server}

theorem Reaches.refl (s : Server) : Reaches s s := ⟨[], by simp, rfl⟩

theorem Reaches.trans (h : Reaches s s') (h' : Reaches s' s'') : Reaches s s'' := by
  obtain ⟨es, hes, hrun⟩ := h
  obtain ⟨es', hes', hrun'⟩ := h'
  refine ⟨es ++ es', ?_, run_append.mpr ⟨s', hrun, hrun'⟩⟩
  intro e he
  rcases List.mem_append.mp he with he | he
  · exact hes e he
  · exact hes' e he

/-- A step that can be made later. -/
theorem reaches_of_act_at {e : ServerEvent} {t : Nat} (ht : s.now ≤ t) (he : e.isOwn = true)
    (h : Server.act { s with now := t } e = some s') : Reaches s s' := by
  have hstep : s.step (t, e) = some s' := step_eq_some.mpr ⟨ht, h⟩
  refine ⟨[(t, e)], by simpa using he, ?_⟩
  rw [run, hstep]
  rfl

theorem reaches_of_act {e : ServerEvent} (he : e.isOwn = true) (h : s.act e = some s') :
    Reaches s s' := reaches_of_act_at (le_refl s.now) he h

theorem WellRun.reaches (h : WellRun config s) (hs : Reaches s s') : WellRun config s' := by
  obtain ⟨es, -, hrun⟩ := hs
  exact h.run hrun

/-- One connection less, and `run` stands where it stood. -/
structure Ended (s s' : Server) : Prop where
  reaches : Reaches s s'
  phase : s'.phase = s.phase
  forceClose : s'.state.forceClose = s.state.forceClose
  length : s'.connections.length + 1 = s.connections.length

/-- A step within one connection comes before its end. -/
theorem Ended.after {i : Nat} {c' : Connection} {e : ServerEvent} (he : e.isOwn = true)
    (hact : s.act e = some s') (hset : s'.connections = s.connections.set i c')
    (hphase : s'.phase = s.phase) (hforce : s'.state.forceClose = s.state.forceClose)
    (h : Ended s' s'') : Ended s s'' := by
  refine ⟨(reaches_of_act he hact).trans h.reaches, h.phase.trans hphase,
    h.forceClose.trans hforce, ?_⟩
  rw [h.length, hset, List.length_set]

theorem WellRun.drain (h : WellRun config s) {s' : Server} (hdrain : s.drain = some s') :
    WellRun config s' := h.reaches (reaches_of_act (e := .drain) rfl hdrain)

end Ending

/-! ## The grace period -/

/-- How the clock stands to a signal at `t`. -/
def Server.InTime (s : Server) (grace t : Nat) : Prop :=
  match s.phase with
  | .waiting false deadline => t + grace ≤ deadline
  | .graceOver => t + grace ≤ s.now
  | .forceClosed => t + grace ≤ s.now
  | .waiting true deadline => t + grace ≤ s.now ∧ t + grace + forceCloseWait ≤ deadline
  | .drained => (s.state.forceClose = true → t + grace ≤ s.now) ∧
    (s.connections ≠ [] → t + grace + forceCloseWait ≤ s.now)
  | _ => True

/-- There was a signal, unless clients are still accepted, and the clock has gone on since. -/
def Signalled (config : ServerConfig) (es : List (Nat × ServerEvent)) (s : Server) : Prop :=
  s.phase.accepts = false → ∃ t, (t, .shutdown) ∈ es ∧ t ≤ s.now ∧
    s.InTime config.timeouts.shutdownGrace t

section Grace

variable {config : ServerConfig} {es : List (Nat × ServerEvent)} {s s' : Server}

theorem Server.InTime.mono {grace t : Nat} (h : s.InTime grace t) (hphase : s'.phase = s.phase)
    (hforce : s'.state.forceClose = s.state.forceClose) (hnow : s.now ≤ s'.now)
    (hopen : s'.connections ≠ [] → s.connections ≠ []) : s'.InTime grace t := by
  unfold Server.InTime at h ⊢
  rw [hphase, hforce]
  cases hp : s.phase with
  | waiting forced deadline =>
    rw [hp] at h
    cases forced with
    | false => exact h
    | true => exact ⟨h.1.trans hnow, h.2⟩
  | graceOver | forceClosed =>
    rw [hp] at h
    exact Nat.le_trans h hnow
  | drained =>
    rw [hp] at h
    exact ⟨fun hforced => (h.1 hforced).trans hnow, fun hne => (h.2 (hopen hne)).trans hnow⟩
  | _ => trivial

/-- The clock goes on. -/
theorem Signalled.tick (h : Signalled config es s) {now : Nat} (hnow : s.now ≤ now) :
    Signalled config es { s with now } := by
  intro hphase
  obtain ⟨t, hmem, ht, hintime⟩ := h hphase
  exact ⟨t, hmem, ht.trans hnow, hintime.mono rfl rfl hnow id⟩

theorem Server.waitLimit_false (s : Server) :
    s.waitLimit false = s.state.config.timeouts.shutdownGrace := if_neg Bool.false_ne_true

theorem Server.waitLimit_true (s : Server) : s.waitLimit true = forceCloseWait := if_pos rfl

/-- **One step of `run` keeps the grace period.** -/
theorem Signalled.runStep (h : Signalled config es s) (hrun : WellRun config s) {e : ServerEvent}
    (hstep : RunStep s e s') : Signalled config (es ++ [(s.now, e)]) s' := by
  have hconfig := hrun.permits.config_eq
  -- the signal has been, and something is known of the clock
  have hsince : ∀ phase, s.phase = phase → phase.accepts = false →
      ∃ t, (t, .shutdown) ∈ es ++ [(s.now, e)] ∧ t ≤ s.now ∧
        s.InTime config.timeouts.shutdownGrace t := by
    rintro phase rfl hphase
    obtain ⟨t, hmem, ht, hintime⟩ := h hphase
    exact ⟨t, List.mem_append_left _ hmem, ht, hintime⟩
  cases hstep with
  | notWhitelisted _ hphase | banned _ hphase | acceptFailed _ hphase =>
    intro hnot
    rw [show _ = RunPhase.accepting from hphase] at hnot
    cases hnot
  | passed | overLimit => rintro ⟨⟩
  | purge =>
    intro hphase
    obtain ⟨t, hmem, ht, hintime⟩ := hsince _ rfl hphase
    exact ⟨t, hmem, ht, hintime.mono rfl rfl le_rfl id⟩
  | shutdown => exact fun _ => ⟨s.now, by simp, le_rfl, trivial⟩
  | startWaiting hphase =>
    obtain ⟨t, hmem, ht, -⟩ := hsince _ hphase rfl
    refine fun _ => ⟨t, hmem, ht, ?_⟩
    show t + _ ≤ s.now + s.waitLimit false
    rw [Server.waitLimit_false, hconfig]
    exact Nat.add_le_add_right ht _
  | @allFinished forced deadline hphase hacquired =>
    obtain ⟨t, hmem, ht, hintime⟩ := hsince _ hphase rfl
    have hnone : s.connections = [] := (hrun.permits.acquired_iff hphase).mp hacquired
    refine fun _ => ⟨t, hmem, ht, ?_, fun hne => absurd hnone hne⟩
    intro hforce
    have hforced : s.state.forceClose = forced := hrun.orderly.force forced (by rw [hphase]; rfl)
    obtain rfl : true = forced := (show s.state.forceClose = true from hforce).symm.trans hforced
    rw [Server.InTime, hphase] at hintime
    exact hintime.1
  | graceOver hphase hdeadline =>
    obtain ⟨t, hmem, ht, hintime⟩ := hsince _ hphase rfl
    rw [Server.InTime, hphase] at hintime
    exact fun _ => ⟨t, hmem, ht, Nat.le_trans hintime hdeadline⟩
  | forceClose hphase =>
    obtain ⟨t, hmem, ht, hintime⟩ := hsince _ hphase rfl
    rw [Server.InTime, hphase] at hintime
    exact fun _ => ⟨t, hmem, ht, hintime⟩
  | waitAgain hphase =>
    obtain ⟨t, hmem, ht, hintime⟩ := hsince _ hphase rfl
    rw [Server.InTime, hphase] at hintime
    refine fun _ => ⟨t, hmem, ht, hintime, ?_⟩
    show t + _ + _ ≤ s.now + s.waitLimit true
    rw [Server.waitLimit_true]
    exact Nat.add_le_add_right hintime _
  | notInTime hphase hdeadline =>
    obtain ⟨t, hmem, ht, hintime⟩ := hsince _ hphase rfl
    rw [Server.InTime, hphase] at hintime
    exact fun _ => ⟨t, hmem, ht, fun _ => hintime.1, fun _ => hintime.2.trans hdeadline⟩

theorem Signalled.step (h : Signalled config es s) (hrun : WellRun config s)
    {e : Nat × ServerEvent} (hs : s.step e = some s') : Signalled config (es ++ [e]) s' := by
  obtain ⟨hnow, hmove⟩ := move_of_step hs
  rcases hmove.phase with hstep | hsame | ⟨-, haccepting, -⟩
  · exact (h.tick hnow).runStep (hrun.tick e.1) hstep
  · intro hphase
    rw [hsame.phase] at hphase
    obtain ⟨t, hmem, ht, hintime⟩ := h hphase
    have hle : s.now ≤ s'.now := by
      rw [hsame.now]
      exact hnow
    refine ⟨t, List.mem_append_left _ hmem, ht.trans hle,
      hintime.mono hsame.phase hsame.forceClose hle ?_⟩
    rintro hne hnil
    have hsub := hsame.connections
    rw [show ({ s with now := e.1 } : Server).connections = [] from hnil] at hsub
    exact hne (List.map_eq_nil_iff.mp (List.sublist_nil.mp hsub))
  · intro hphase
    rw [haccepting] at hphase
    cases hphase

end Grace

/-! ## Every run -/

/-- The signal is not taken back. -/
theorem Move.accepts {s s' : Server} {e : ServerEvent} (h : Move s e s')
    (hphase : s.phase.accepts = false) : s'.phase.accepts = false ∧
      (s'.connections.map Connection.context).Sublist (s.connections.map Connection.context) := by
  rcases h.phase with hrun | hsame | ⟨⟨peer, hadmitting⟩, -⟩
  · refine ⟨?_, by rw [hrun.frame.1]⟩
    cases hrun with
    | notWhitelisted _ haccepts | banned _ haccepts | passed _ haccepts | overLimit haccepts =>
      rw [haccepts] at hphase
      cases hphase
    | acceptFailed | purge => exact hphase
    | _ => rfl
  · rw [hsame.phase]
    exact ⟨hphase, hsame.connections⟩
  · rw [hadmitting] at hphase
    cases hphase

/-- After the signal nothing is admitted any more. -/
theorem contexts_sublist_of_run {s s' : Server} {es : List (Nat × ServerEvent)}
    (hphase : s.phase.accepts = false) (h : run Server.step s es = some s') :
    (s'.connections.map Connection.context).Sublist (s.connections.map Connection.context) := by
  refine (run_invariant (I := fun t => t.phase.accepts = false ∧
    (t.connections.map Connection.context).Sublist (s.connections.map Connection.context))
    ?_ ⟨hphase, .refl _⟩ h).2
  rintro t e t' ⟨hphase, hsub⟩ he
  obtain ⟨-, hmove⟩ := move_of_step he
  obtain ⟨hphase', hsub'⟩ := hmove.accepts hphase
  exact ⟨hphase', hsub'.trans hsub⟩

/-- What `run` promises from the signal on. -/
structure ShutdownRight (config : ServerConfig) (es : List (Nat × ServerEvent)) (s : Server) :
    Prop where
  /-- A connection is only interrupted by `force_close`. -/
  interrupted : ∀ context counters, .finished context .shutdown counters ∈ s.log →
    s.state.forceClose = true
  /-- `force_close` waits until `wait_for_connections` has given up. -/
  force : ∀ forced, s.phase.forceClose? = some forced → s.state.forceClose = forced
  /-- So the grace period has passed since the signal. -/
  grace : s.state.forceClose = true →
    ∃ t, (t, .shutdown) ∈ es ∧ t + config.timeouts.shutdownGrace ≤ s.now
  /-- `wait_for_connections` is over when no client connection is open. -/
  waiting : ∀ forced deadline, s.phase = .waiting forced deadline →
    (s.state.connectionPermits.acquired = true ↔ s.connections = [])
  /-- `run` returns with open connections only after `force_close`, and some time for them. -/
  returned : s.phase = .drained → s.connections ≠ [] → s.state.forceClose = true ∧
    ∃ t, (t, .shutdown) ∈ es ∧ t + config.timeouts.shutdownGrace + forceCloseWait ≤ s.now
  /-- From the signal on, connections only go. -/
  admitted : s.phase.accepts = false → ∀ es s', run Server.step s es = some s' →
    (s'.connections.map Connection.context).Sublist (s.connections.map Connection.context)

/--
**Shutdown is orderly**, in every reachable state: no connection is interrupted before the grace
period since the signal is over, and `run` does not return before all connections have ended, or
have had the grace period and the time after `force_close`.
-/
theorem shutdown_orderly (config : ServerConfig) (start : Nat) (es : List (Nat × ServerEvent))
    (s : Server) (h : run Server.step (.new config start) es = some s) :
    ShutdownRight config es s := by
  obtain ⟨hrun, hsignalled⟩ : WellRun config s ∧ Signalled config es s := by
    refine run_history (I := fun es s => WellRun config s ∧ Signalled config es s)
      ⟨.new config start, by rintro ⟨⟩⟩ ?_ h
    rintro es s e s' ⟨hrun, hsignalled⟩ he
    exact ⟨hrun.step he, hsignalled.step hrun he⟩
  refine ⟨hrun.orderly.log, hrun.orderly.force, ?_, fun _ _ => hrun.permits.acquired_iff, ?_,
    fun hphase _ _ hrest => contexts_sublist_of_run hphase hrest⟩
  · intro hforce
    have hphase : s.phase.forceClose? ≠ some false := by
      intro hnot
      cases hforce.symm.trans (hrun.orderly.force false hnot)
    cases hp : s.phase with
    | accepting | admitting peer | draining | graceOver =>
      rw [hp] at hphase
      exact absurd rfl hphase
    | waiting forced deadline =>
      obtain rfl : forced = true := by
        rw [hp] at hphase
        cases forced with
        | false => exact absurd rfl hphase
        | true => rfl
      obtain ⟨t, hmem, -, hintime⟩ := hsignalled (by rw [hp]; rfl)
      rw [Server.InTime, hp] at hintime
      exact ⟨t, hmem, hintime.1⟩
    | forceClosed =>
      obtain ⟨t, hmem, -, hintime⟩ := hsignalled (by rw [hp]; rfl)
      rw [Server.InTime, hp] at hintime
      exact ⟨t, hmem, hintime⟩
    | drained =>
      obtain ⟨t, hmem, -, hintime⟩ := hsignalled (by rw [hp]; rfl)
      rw [Server.InTime, hp] at hintime
      exact ⟨t, hmem, hintime.1 hforce⟩
  · intro hdrained hne
    obtain ⟨t, hmem, -, hintime⟩ := hsignalled (by rw [hdrained]; rfl)
    rw [Server.InTime, hdrained] at hintime
    refine ⟨?_, t, hmem, hintime.2 hne⟩
    by_contra hnot
    exact hne (hrun.orderly.clean hdrained (by simpa using hnot))

/-- One client is there when the signal comes, and is closed after the grace period. -/
theorem shutdown_orderly_one_client :
    let es : List (Nat × ServerEvent) :=
      [(0, .accept (.v4 (.new 203 0 113 5) 40000) 0), (0, .tryAcquire), (1, .shutdown), (2, .drain),
        (30000000002, .waitElapsed), (30000000003, .drain), (30000000004, .drain),
        (30000000005, .connection 0 (.elapsed 1) 6), (30000000006, .finish 0)]
    ∃ s, run Server.step (.new smallConfig 0) es = some s ∧
      .finished ⟨1, .v4 (.new 203 0 113 5) 40000⟩ .shutdown ⟨0, 0⟩ ∈ s.log ∧
      ∃ t, (t, .shutdown) ∈ es ∧ t + smallConfig.timeouts.shutdownGrace ≤ s.now := by
  intro es
  have hrun : (run Server.step (.new smallConfig 0) es).map (fun s => s.log.getLast?) =
      some (some (.finished ⟨1, .v4 (.new 203 0 113 5) 40000⟩ .shutdown ⟨0, 0⟩)) := by
    decide +kernel
  obtain ⟨s, hs, hlast⟩ := Option.map_eq_some_iff.mp hrun
  have hmem := List.mem_of_getLast? hlast
  have hright := shutdown_orderly smallConfig 0 es s hs
  exact ⟨s, hs, hmem, hright.grace (hright.interrupted _ _ hmem)⟩

end SocksServer
