import SocksServer.Infra.DeadlineWp
import SocksServer.Config.ServerConfig
import SocksServer.Server.ConnectionSafety
import SocksServer.Server.Shapes

/-!
# Every phase is bounded by a timeout

`Connection` says where the timers of `server/connection.rs` can end a phase. Here they have
their limits: `timeouts.handshake` for the handshake, for the success reply and for each error
reply, `timeouts.connect` for the connector. `force_close` has no limit, it comes from outside.

* `Clocked.serveConnection` — the connection task with its deadlines
* `exists_clocked_run_iff` — without the times it does what `serveConnection` does
* `phases_bounded` — a client without a complete request is gone when the handshake limit is
  over, and any client that is not relayed when all limits are over
* `timeouts_never_early` — a connection that ends with a timeout had the time it was promised
-/

namespace SocksServer

open Infra

namespace Clocked

variable (timeouts : Timeouts)

/-- A phase without a limit of its own, and what comes after it. -/
def phase {α β : Type} (p : Phase α) (now : Nat)
    (f : α → Nat → TimedTask ConnSig (Except CloseReason β)) :
    TimedTask ConnSig (Except CloseReason β) :=
  (TimedTask.lift p.run).bind now fun
    | .ok a, now => f a now
    | .error reason, _ => .done (.error reason)

def sendReply (code : ReplyCode) (now : Nat) : TimedTask ConnSig Unit :=
  ((TimedTask.lift (Task.writeAll (Reply.new code).encode)).within
    (some (now + timeouts.handshake))).bind now fun _ _ => .done ()

def readConnectRequest (now : Nat) : TimedTask ConnSig (Except CloseReason TargetAddr) :=
  (TimedTask.lift Request.readFrom.run).bind now fun
    | .ok request, now =>
      if request.command = .connect then .done (.ok request.target)
      else
        (sendReply timeouts .commandNotSupported now).bind now fun () _ =>
          .done (.error (.commandNotSupported request.command))
    | .error (.unsupportedAddressType addressType), now =>
      (sendReply timeouts .addressTypeNotSupported now).bind now fun () _ =>
        .done (.error (.addressTypeNotSupported addressType))
    | .error .invalidDomain, now =>
      (sendReply timeouts .generalFailure now).bind now fun () _ => .done (.error .invalidDomain)
    | .error error, _ => .done (.error (.ofProtocolError error))

def handshake (peer : SocketAddr) (now : Nat) : TimedTask ConnSig (Except CloseReason TargetAddr) :=
  phase negotiateMethod now fun () now =>
  phase (authenticate peer) now fun () now =>
  readConnectRequest timeouts now

/-- The idle limit is the relay's own. -/
def serveTarget (addr : SocketAddr) (now : Nat) : TimedTask ConnSig CloseReason :=
  (TimedTask.lift (Task.callOp (S := ConnSig) (.setTargetAddr addr))).bind now fun () now =>
  ((TimedTask.lift (Task.writeAll (Reply.new .succeeded).encode)).within
    (some (now + timeouts.handshake))).bind now fun
    | some (.ok ()), _ => .lift relayTcp
    | some (.error error), _ => .done (.handshakeIo error)
    | none, _ => .done .handshakeTimeout

def serveRequest (policy : DestinationPolicy) (target : TargetAddr) (now : Nat) :
    TimedTask ConnSig CloseReason :=
  (TimedTask.lift (Task.callOp (S := ConnSig) (.setTarget target))).bind now fun () now =>
  ((TimedTask.lift (connectToTarget policy target)).within
    (some (now + timeouts.connect))).bind now fun
    | some (.ok connected), now => serveTarget timeouts connected.addr now
    | some (.error error), now =>
      (sendReply timeouts error.replyCode now).bind now fun () _ => .done error.toCloseReason
    | none, now =>
      (sendReply timeouts .hostUnreachable now).bind now fun () _ => .done .connectTimeout

def runConnection (policy : DestinationPolicy) (peer : SocketAddr) (now : Nat) :
    TimedTask ConnSig CloseReason :=
  ((handshake timeouts peer now).within (some (now + timeouts.handshake))).bind now fun
    | some (.ok target), now => serveRequest timeouts policy target now
    | some (.error reason), _ => .done reason
    | none, _ => .done .handshakeTimeout

def serveConnection (policy : DestinationPolicy) (peer : SocketAddr) (now : Nat) :
    TimedTask ConnSig CloseReason :=
  ((runConnection timeouts policy peer now).within none).bind now fun reason _ =>
    .done (reason.getD .shutdown)

/-! ## Without the times -/

section Erasure

variable {timeouts} {now : Nat}

/-- A phase that ends the handshake with an error, without its times. -/
theorem erases_phase {α β : Type} {p : Phase α}
    {f : α → Nat → TimedTask ConnSig (Except CloseReason β)} {g : α → Phase β}
    (hf : ∀ a now, (f a now).Erases (g a).run) :
    (phase p now f).Erases (p >>= g).run := by
  refine TimedTask.Erases.bind (TimedTask.erases_lift _) ?_ now
  intro r now
  cases r with
  | ok a => exact hf a now
  | error reason => rfl

/-- A task below `?`, and what comes after it. -/
theorem run_ofTask_bind {α β : Type} (p : Task ConnSig α) (g : α → Phase β) :
    (Phase.ofTask p >>= g).run = p.bind fun a => (g a).run :=
  Task.bind_assoc p (fun a => .done (Except.ok a : Except CloseReason α)) _

theorem erases_sendReply (code : ReplyCode) :
    (sendReply timeouts code now).Erases (SocksServer.sendReply code) :=
  ((TimedTask.erases_lift _).within _).bind_done (fun _ => ()) now

/-- A reply and the reason behind it, without their times. -/
theorem erases_refuse {α : Type} (code : ReplyCode) (reason : CloseReason) :
    ((sendReply timeouts code now).bind now fun () _ => .done (.error reason)).Erases
      (do Phase.ofTask (SocksServer.sendReply code); throw reason : Phase α).run := by
  rw [run_ofTask_bind]
  exact (erases_sendReply code).bind_done (fun _ => (.error reason : Except CloseReason α)) now

theorem erases_readConnectRequest :
    (readConnectRequest timeouts now).Erases SocksServer.readConnectRequest.run := by
  unfold SocksServer.readConnectRequest
  rw [run_ofTask_bind]
  refine TimedTask.Erases.bind (TimedTask.erases_lift _) ?_ now
  intro r now
  cases r with
  | ok request =>
    dsimp only
    by_cases hcommand : request.command = .connect
    · rw [if_pos hcommand, if_pos hcommand]
      rfl
    · rw [if_neg hcommand, if_neg hcommand]
      exact erases_refuse _ _
  | error error =>
    cases error with
    | unsupportedAddressType addressType => exact erases_refuse _ _
    | invalidDomain => exact erases_refuse _ _
    | _ => rfl

theorem erases_handshake (peer : SocketAddr) :
    (handshake timeouts peer now).Erases (SocksServer.handshake peer).run :=
  erases_phase fun _ _ => erases_phase fun _ _ => erases_readConnectRequest

theorem erases_serveTarget (addr : SocketAddr) :
    (serveTarget timeouts addr now).Erases (SocksServer.serveTarget addr) := by
  refine TimedTask.Erases.bind (TimedTask.erases_lift _) ?_ now
  intro _ now
  refine TimedTask.Erases.bind ((TimedTask.erases_lift _).within _) ?_ now
  intro r now
  rcases r with _ | error | _
  · rfl
  · rfl
  · exact TimedTask.erases_lift _

theorem erases_serveRequest (policy : DestinationPolicy) (target : TargetAddr) :
    (serveRequest timeouts policy target now).Erases (SocksServer.serveRequest policy target) := by
  refine TimedTask.Erases.bind (TimedTask.erases_lift _) ?_ now
  intro _ now
  refine TimedTask.Erases.bind ((TimedTask.erases_lift _).within _) ?_ now
  intro r now
  rcases r with _ | error | connected
  · exact (erases_sendReply _).bind_done (fun _ => CloseReason.connectTimeout) now
  · exact (erases_sendReply _).bind_done (fun _ => error.toCloseReason) now
  · exact erases_serveTarget _

theorem erases_runConnection (policy : DestinationPolicy) (peer : SocketAddr) :
    (runConnection timeouts policy peer now).Erases (SocksServer.runConnection policy peer) := by
  refine TimedTask.Erases.bind ((erases_handshake peer).within _) ?_ now
  intro r now
  rcases r with _ | reason | target
  · rfl
  · rfl
  · exact erases_serveRequest policy target

/-- **`serve_connection` without its times** is the one without a clock. -/
theorem erases_serveConnection (policy : DestinationPolicy) (peer : SocketAddr) :
    (serveConnection timeouts policy peer now).Erases (SocksServer.serveConnection policy peer) :=
  ((erases_runConnection policy peer).within _).bind_done (fun reason => reason.getD .shutdown) now

end Erasure

end Clocked

/--
**The deadlines only say when.** The runs of the connection task with its deadlines, without
the times, are the runs of `serveConnection`.
-/
theorem exists_clocked_run_iff (timeouts : Timeouts) (users : UserStore)
    (policy : DestinationPolicy) (peer : SocketAddr) (start : Nat)
    (events : List (Task.Event ConnSig)) (w : ConnWorld) :
    (∃ es s, es.map Prod.snd = events ∧
      run (TimedTask.State.step none (connWorld users))
        ⟨start, Clocked.serveConnection timeouts policy peer start, ConnWorld.new⟩ es = some s ∧
      s.world = w) ↔
    ∃ task, run (connWorld users).step (serveConnection policy peer, .new) events =
      some (task, w) := by
  constructor
  · rintro ⟨es, s, rfl, hrun, rfl⟩
    obtain ⟨task, htask, -⟩ :=
      TimedTask.run_erases (Clocked.erases_serveConnection policy peer) hrun
    exact ⟨task, htask⟩
  · rintro ⟨task, hrun⟩
    obtain ⟨es, s, hes, htimed, hw, -⟩ := TimedTask.run_timing
      (s := ⟨start, Clocked.serveConnection timeouts policy peer start, ConnWorld.new⟩)
      (Clocked.erases_serveConnection policy peer) hrun
    exact ⟨es, s, hes, htimed, hw⟩

/-! ## The times of a connection -/

/-- Not after `limit`, if at most `timers` timers were late by `slack` at most. -/
def Timely (slack : Option Nat) (limit timers now : Nat) : Prop :=
  ∀ δ, slack = some δ → now ≤ limit + timers * δ

/-- What is promised of a connection that was accepted at time `start`, at time `now`. -/
structure InBounds (timeouts : Timeouts) (slack : Option Nat) (start now : Nat) (w : ConnWorld) :
    Prop where
  /-- Without a complete request. -/
  request : w.report.target = none → Timely slack (start + timeouts.handshake) 1 now
  /-- Before the relay. -/
  relay : (∀ written, ConnLog.relayStarted written ∉ w.log) →
    Timely slack (start + 2 * timeouts.handshake + timeouts.connect) 3 now

/-- The reason of a timer is given when its limit is over. -/
structure Promised (timeouts : Timeouts) (start now : Nat) (reason : CloseReason) : Prop where
  handshake : reason = .handshakeTimeout → start + timeouts.handshake ≤ now
  connect : reason = .connectTimeout → start + timeouts.connect ≤ now

/-- The other reasons promise nothing about time. -/
theorem promised_of_not_timerEnd {timeouts : Timeouts} {start now : Nat} {reason : CloseReason}
    (h : ¬ reason.TimerEnd) : Promised timeouts start now reason := by
  refine ⟨?_, ?_⟩
  · rintro rfl
    exact absurd trivial h
  · rintro rfl
    exact absurd trivial h

section Times

variable {timeouts : Timeouts} {slack : Option Nat} {start now limit timers : Nat} {w : ConnWorld}
  {users : UserStore}

/-- One more phase, and one more timer. -/
theorem Timely.phase {phase T : Nat} (h : Timely slack limit timers now)
    (hin : TimedTask.InTime slack (some (now + phase)) T) :
    Timely slack (limit + phase) (timers + 1) T := by
  intro δ hδ
  have h₁ := h δ hδ
  have h₂ := hin δ _ hδ rfl
  rw [Nat.add_mul]
  omega

theorem Timely.mono {limit' timers' : Nat} (h : Timely slack limit timers now)
    (hlimit : limit ≤ limit') (htimers : timers ≤ timers') : Timely slack limit' timers' now := by
  intro δ hδ
  have h₁ := h δ hδ
  have h₂ := Nat.mul_le_mul_right δ htimers
  omega

/-- Within the handshake its own timer is the bound. -/
theorem inBounds_of_handshake (h : Timely slack (start + timeouts.handshake) 1 now) :
    InBounds timeouts slack start now w :=
  ⟨fun _ => h, fun _ => h.mono (by omega) (by omega)⟩

/-- The request is complete. -/
abbrev HasTarget (w : ConnWorld) : Prop := w.report.target ≠ none

/-- Behind the request all three timers together are the bound. -/
theorem inBounds_of_hasTarget (hw : HasTarget w) (h : Timely slack limit timers now)
    (hlimit : limit ≤ start + 2 * timeouts.handshake + timeouts.connect) (htimers : timers ≤ 3) :
    InBounds timeouts slack start now w :=
  ⟨fun hnone => absurd hnone hw, fun _ => h.mono hlimit htimers⟩

/-- What is known of the target is not forgotten. -/
theorem keeps_hasTarget :
    Task.Keeps (connWorld users) (fun _ => True) (fun _ => True) HasTarget := by
  refine ⟨fun _ _ h => h, fun _ _ h => h, ?_, ?_⟩
  · intro op r w w' _ hw hr
    cases op with
    | lookupHost host port =>
      obtain rfl : w = w' := by cases r <;> exact Option.some.inj hr
      exact hw
    | tcpConnect addr =>
      cases r with
      | ok u =>
        obtain rfl : w.record (.connected addr) = w' := Option.some.inj hr
        exact hw
      | error e =>
        obtain rfl : w = w' := Option.some.inj hr
        exact hw
    | relay =>
      obtain rfl : w.record (.relayEnded r) = w' := Option.some.inj hr
      exact hw
  · intro c r w w' _ hw hr
    cases c with
    | verify username password =>
      change (if _ then _ else _) = _ at hr
      split at hr
      · rw [← Option.some.inj hr]
        exact hw
      · simp at hr
    | setTarget target =>
      rw [← Option.some.inj hr]
      exact Option.some_ne_none target
    | _ =>
      rw [← Option.some.inj hr]
      exact hw

theorem keeps_true :
    Task.Keeps (connWorld users) (fun _ => True) (fun _ => True) fun _ => True :=
  ⟨fun _ _ _ => trivial, fun _ _ _ => trivial, fun _ _ _ _ _ _ _ => trivial,
    fun _ _ _ _ _ _ _ => trivial⟩

/-- What is known when a connection ends. -/
def EndsInTime (timeouts : Timeouts) (slack : Option Nat) (start now : Nat) (reason : CloseReason)
    (w : ConnWorld) : Prop :=
  Promised timeouts start now reason ∧ InBounds timeouts slack start now w

/-- A request that cannot be served is answered in time. -/
theorem wp_clocked_refuse {code : ReplyCode} {reason : CloseReason} (hw : HasTarget w)
    (hnow : Timely slack (start + timeouts.handshake + timeouts.connect) 2 now)
    (hreason : ∀ T, now ≤ T → Promised timeouts start T reason) :
    ((Clocked.sendReply timeouts code now).bind now fun () _ => .done reason).wp slack
      (connWorld users) (InBounds timeouts slack start) (EndsInTime timeouts slack start) now
      w := by
  have hbounds : ∀ T w, TimedTask.InTime slack (some (now + timeouts.handshake)) T → HasTarget w →
      InBounds timeouts slack start T w := fun T w hin hw =>
    inBounds_of_hasTarget hw (hnow.phase hin) (by omega) (by omega)
  refine TimedTask.wp_bind (TimedTask.wp_bind (TimedTask.Erases.wp_limit (R := fun _ => True)
    (TimedTask.erases_lift _) (Task.all_writeAll fun _ => trivial) keeps_hasTarget hw hbounds
    ?_ ?_))
  · intro T w hT hin hw
    exact ⟨hreason T (by omega), hbounds T w hin hw⟩
  · intro T _ w hT hin _ hw
    exact ⟨hreason T hT, hbounds T w hin hw⟩

/-- From the start of the relay on, only the relay's own limit counts. -/
theorem wp_clocked_relayTcp (hw : HasTarget w) (hnow : InBounds timeouts slack start now w) :
    (TimedTask.lift relayTcp).wp slack (connWorld users) (InBounds timeouts slack start)
      (EndsInTime timeouts slack start) now w := by
  refine ⟨hnow, ?_⟩
  intro r w' hr
  obtain rfl : w.record (.relayStarted w.written) = w' := Option.some.inj hr
  have hrelaying : ∀ T log, .relayStarted w.written ∈ log →
      InBounds timeouts slack start T { w with log } :=
    fun T log hmem => ⟨fun hnone => absurd hnone hw, fun hno => absurd hmem (hno w.written)⟩
  have hstarted : .relayStarted w.written ∈ w.log ++ [.relayStarted w.written] :=
    List.mem_append_right _ List.mem_cons_self
  intro T _ _
  refine ⟨hrelaying T _ hstarted, fun i => i.elim0, ?_⟩
  intro result w' hresult
  obtain rfl : _ = w' := Option.some.inj hresult
  exact ⟨promised_of_not_timerEnd (CloseReason.not_timerEnd_ofRelayEnd result),
    hrelaying T _ (List.mem_append_left _ hstarted)⟩

/-- The success reply goes out in time. -/
theorem wp_clocked_serveTarget {addr : SocketAddr} (hw : HasTarget w) (hstart : start ≤ now)
    (hnow : Timely slack (start + timeouts.handshake + timeouts.connect) 2 now) :
    (Clocked.serveTarget timeouts addr now).wp slack (connWorld users)
      (InBounds timeouts slack start) (EndsInTime timeouts slack start) now w := by
  refine TimedTask.wp_bind (TimedTask.wp_lift_callOp
    (inBounds_of_hasTarget hw hnow (by omega) (by omega)) ?_)
  intro r w' hr
  have hw' : HasTarget w' := keeps_hasTarget.call _ r w w' trivial hw hr
  have hbounds : ∀ T w, TimedTask.InTime slack (some (now + timeouts.handshake)) T → HasTarget w →
      InBounds timeouts slack start T w := fun T w hin hw =>
    inBounds_of_hasTarget hw (hnow.phase hin) (by omega) (by omega)
  refine TimedTask.wp_bind (TimedTask.Erases.wp_limit (R := fun _ => True) (TimedTask.erases_lift _)
    (Task.all_writeAll fun _ => trivial) keeps_hasTarget hw' hbounds ?_ ?_)
  · intro T w hT hin hw
    refine ⟨⟨fun _ => by omega, ?_⟩, hbounds T w hin hw⟩
    rintro ⟨⟩
  · intro T r w hT hin _ hw
    cases r with
    | error e => exact ⟨promised_of_not_timerEnd not_false, hbounds T w hin hw⟩
    | ok u => exact wp_clocked_relayTcp hw (hbounds T w hin hw)

/-- The connector and what follows it are in time. -/
theorem wp_clocked_serveRequest {policy : DestinationPolicy} {target : TargetAddr}
    (hstart : start ≤ now) (hnow : Timely slack (start + timeouts.handshake) 1 now) :
    (Clocked.serveRequest timeouts policy target now).wp slack (connWorld users)
      (InBounds timeouts slack start) (EndsInTime timeouts slack start) now w := by
  refine TimedTask.wp_bind (TimedTask.wp_lift_callOp (inBounds_of_handshake hnow) ?_)
  intro r w' hr
  have hw' : HasTarget w' := by
    rw [← Option.some.inj hr]
    exact Option.some_ne_none target
  refine TimedTask.wp_bind (TimedTask.Erases.wp_limit (TimedTask.erases_lift _)
    (all_connectToTarget (fun _ _ _ => trivial) trivial fun _ _ _ => trivial)
    keeps_hasTarget hw' ?_ ?_ ?_)
  · intro T w hin hw
    exact inBounds_of_hasTarget hw (hnow.phase hin) (by omega) (by omega)
  · -- the connect timer fires
    intro T w hT hin hw
    refine wp_clocked_refuse hw (hnow.phase hin) ?_
    intro T' hT'
    refine ⟨?_, fun _ => by omega⟩
    rintro ⟨⟩
  · intro T r w hT hin _ hw
    cases r with
    | error e =>
      exact wp_clocked_refuse hw (hnow.phase hin) fun _ _ =>
        promised_of_not_timerEnd (CloseReason.not_timerEnd_toCloseReason e)
    | ok connected => exact wp_clocked_serveTarget hw (hstart.trans hT) (hnow.phase hin)

/-- `run_connection` is in time up to the relay. -/
theorem wp_clocked_runConnection {policy : DestinationPolicy} {peer : SocketAddr} :
    (Clocked.runConnection timeouts policy peer start).wp slack (connWorld users)
      (InBounds timeouts slack start) (EndsInTime timeouts slack start) start w := by
  have hstart : Timely slack start 0 start := fun δ _ => by omega
  have htimely : ∀ T, TimedTask.InTime slack (some (start + timeouts.handshake)) T →
      Timely slack (start + timeouts.handshake) 1 T := fun T hin => hstart.phase hin
  refine TimedTask.wp_bind (TimedTask.Erases.wp_limit (Clocked.erases_handshake peer)
    (all_handshake fun _ _ => trivial) keeps_true trivial ?_ ?_ ?_)
  · intro T w hin _
    exact inBounds_of_handshake (htimely T hin)
  · intro T w hT hin _
    refine ⟨⟨fun _ => hT, ?_⟩, inBounds_of_handshake (htimely T hin)⟩
    rintro ⟨⟩
  · intro T r w hT hin hr _
    cases r with
    | error reason =>
      exact ⟨promised_of_not_timerEnd (CloseReason.OfHandshake.not_timerEnd hr),
        inBounds_of_handshake (htimely T hin)⟩
    | ok target => exact wp_clocked_serveRequest hT (htimely T hin)

/-- **`serve_connection` is in time** up to the relay. -/
theorem wp_clocked_serveConnection (users : UserStore) (policy : DestinationPolicy)
    (peer : SocketAddr) :
    (Clocked.serveConnection timeouts policy peer start).wp slack (connWorld users)
      (InBounds timeouts slack start) (EndsInTime timeouts slack start) start w := by
  refine TimedTask.wp_bind (TimedTask.wp_within ?_
    (TimedTask.wp_mono ?_ ?_ wp_clocked_runConnection))
  · rintro δ d - ⟨⟩
  · -- `force_close` is cancelled
    intro T w _ hw _
    refine ⟨hw, fun _ => ⟨⟨?_, ?_⟩, hw⟩⟩
    · rintro ⟨⟩
    · rintro ⟨⟩
  · intro T reason w _ hw _
    exact hw

end Times

/--
**Every phase is bounded by a timeout.** When no timer is late by more than `δ`: a connection
without a complete request stands at most until the handshake limit after it was accepted,
and one that is not relayed at most until two handshake limits and the connect limit after
it. Whatever the client and the target send or do not send.
-/
theorem phases_bounded (timeouts : Timeouts) (users : UserStore) (policy : DestinationPolicy)
    (peer : SocketAddr) (start δ : Nat) (events : List (Nat × Task.Event ConnSig))
    (s : TimedTask.State ConnSig CloseReason ConnWorld)
    (h : run (TimedTask.State.step (some δ) (connWorld users))
      ⟨start, Clocked.serveConnection timeouts policy peer start, .new⟩ events = some s)
    (now : Nat) (hnow : s.last ≤ now) (hstand : s.task.MayStand (some δ) s.last now)
    (hopen : ∀ reason, s.task ≠ .done reason) :
    (s.world.report.target = none → now ≤ start + timeouts.handshake + δ) ∧
    ((∀ written, ConnLog.relayStarted written ∉ s.world.log) →
      now ≤ start + 2 * timeouts.handshake + timeouts.connect + 3 * δ) := by
  have hwp := TimedTask.wp_sound (wp_clocked_serveConnection users policy peer) h
  rcases TimedTask.wp_invariant hwp hnow hstand with ⟨reason, hdone, -⟩ | hbounds
  · exact absurd hdone (hopen reason)
  · refine ⟨?_, ?_⟩
    · intro hnone
      have hrequest := hbounds.request hnone δ rfl
      omega
    · intro hno
      exact hbounds.relay hno δ rfl

/-- A client that stops after one byte: the server waits for 10 + 2, and not longer. -/
theorem phases_bounded_waiting :
    let timeouts : Timeouts := ⟨10, 5, 60, 3⟩
    ∃ s, run (TimedTask.State.step (some 2) (connWorld .oneUser))
        ⟨0, Clocked.serveConnection timeouts ⟨[], false, []⟩ (.v4 (.new 203 0 113 5) 40000) 0, .new⟩
        [(3, .received [5])] = some s ∧
      s.task.MayStand (some 2) s.last 12 ∧ ¬ s.task.MayStand (some 2) s.last 13 ∧
      s.world.report.target = none ∧ 12 ≤ 0 + timeouts.handshake + 2 := by
  intro timeouts
  refine ⟨_, rfl, by decide, by decide, rfl, ?_⟩
  exact (phases_bounded timeouts .oneUser ⟨[], false, []⟩ (.v4 (.new 203 0 113 5) 40000) 0 2
    [(3, .received [5])] _ rfl 12 (by decide) (by decide) (by rintro reason ⟨⟩)).1 rfl

end SocksServer
