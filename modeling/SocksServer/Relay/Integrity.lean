import SocksServer.Relay.Bidirectional

/-!
# The relay keeps both streams intact

Whatever the sizes of reads and writes, whichever timers fire, in whatever order the pumps
move and wherever the relay is dropped: a writer gets what was read from the other side, in
order and complete, and its shutdown comes last.

* `Direction.Intact` — the invariant, one case for each await point of a pump
* `Direction.Intact.resume` — a pump keeps it
* `relay_streams_intact` — what it says in every reachable state
-/

namespace SocksServer

open Infra

namespace Direction

/-! ## The invariant -/

/-- Before end of stream: `rest` has been read and is still to be written. -/
structure Moving (stream : Bytes) (d : Direction) (rest : Bytes) : Prop where
  stream_eq : d.received ++ d.unread = stream
  received_eq : d.received = d.accepted ++ rest
  counter : d.delivered = min d.accepted.length u64Max
  not_shutdown : WriterOp.shutdown ∉ d.writer
  not_eof : d.eof = false

/-- After end of stream: everything has been written and the writer is shut down. -/
structure Closed (stream : Bytes) (d : Direction) : Prop where
  received_eq : d.received = stream
  accepted_eq : d.accepted = stream
  counter : d.delivered = min d.accepted.length u64Max
  shutdown_last : ∃ writes, d.writer = writes ++ [.shutdown] ∧ WriterOp.shutdown ∉ writes
  eof : d.eof = true

/-- A pump that failed leaves what it had not written. -/
def Intact (stream : Bytes) (d : Direction) : Prop :=
  match d.pump with
  | .start => Moving stream d []
  | .reading _ => Moving stream d []
  | .writing data _ => Moving stream d data
  | .returned (.error _) => ∃ rest, Moving stream d rest
  | .closing _ => Closed stream d
  | .returned (.ok ()) => Closed stream d

theorem intact_new (stream : Bytes) (closes : Bool) : Intact stream (new stream closes) where
  stream_eq := rfl
  received_eq := rfl
  counter := rfl
  not_shutdown := by simp [new]
  not_eof := rfl

/-! ## One pump

The invariant does not look at the pump itself, so moving on to the next attempt keeps it.
-/

section Pump

variable {stream : Bytes} {d : Direction} {idleTimeout now : Nat} {clock : ActivityClock}

theorem accepted_wrote (d : Direction) (bytes : Bytes) :
    ({ d with writer := d.writer ++ [.wrote bytes] } : Direction).accepted =
      d.accepted ++ bytes := by
  simp [accepted]

theorem Moving.setPump {rest : Bytes} (h : Moving stream d rest) (pump : PumpState) :
    Moving stream { d with pump } rest :=
  ⟨h.stream_eq, h.received_eq, h.counter, h.not_shutdown, h.not_eof⟩

theorem Closed.setPump (h : Closed stream d) (pump : PumpState) : Closed stream { d with pump } :=
  ⟨h.received_eq, h.accepted_eq, h.counter, h.shutdown_last, h.eof⟩

theorem Moving.readWithIdle (h : Moving stream d []) :
    Intact stream (d.readWithIdle idleTimeout clock now) := by
  unfold Direction.readWithIdle
  dsimp only
  split
  · exact ⟨[], h.setPump _⟩
  · exact h.setPump _

theorem Moving.writeAllWithIdle {data : Bytes} (h : Moving stream d data) :
    Intact stream (d.writeAllWithIdle idleTimeout clock now data) := by
  unfold Direction.writeAllWithIdle
  split
  · next hdata => subst hdata; exact h.readWithIdle
  · dsimp only
    split
    · exact ⟨data, h.setPump _⟩
    · exact h.setPump _

/-- A chunk moves from the unread part of the stream into the buffer. -/
theorem Moving.afterRead {clock' : ActivityClock} {d' : Direction} {n : Nat}
    (h : Moving stream d []) (hr : d.afterRead idleTimeout clock now n = some (clock', d')) :
    Intact stream d' := by
  unfold Direction.afterRead at hr
  split at hr
  · -- end of stream: nothing is left to read or to write
    split at hr
    · next heof =>
      obtain ⟨-, rfl⟩ := Prod.mk.inj (Option.some.inj hr)
      have hstream : d.received = stream := by
        rw [← h.stream_eq, heof.1, List.append_nil]
      have hacc : d.accepted = stream := by
        rw [← hstream, h.received_eq, List.append_nil]
      have hacc' : ({ d with
          eof := true, writer := d.writer ++ [.shutdown],
          pump := .closing (now + idleTimeout) } : Direction).accepted = d.accepted := by
        simp [accepted]
      exact ⟨hstream, hacc'.trans hacc, by rw [hacc']; exact h.counter,
        ⟨d.writer, rfl, h.not_shutdown⟩, rfl⟩
    · simp at hr
  · split at hr
    · obtain ⟨-, rfl⟩ := Prod.mk.inj (Option.some.inj hr)
      refine Moving.writeAllWithIdle ⟨?_, ?_, h.counter, h.not_shutdown, h.not_eof⟩
      · show (d.received ++ d.unread.take n) ++ d.unread.drop n = stream
        rw [List.append_assoc, List.take_append_drop, h.stream_eq]
      · show d.received ++ d.unread.take n = d.accepted ++ d.unread.take n
        rw [h.received_eq, List.append_nil]
    · simp at hr

/-- What a write accepts moves from the buffer to the writer. -/
theorem Moving.afterWrite {clock' : ActivityClock} {d' : Direction} {data : Bytes} {n : Nat}
    (h : Moving stream d data)
    (hw : d.afterWrite idleTimeout clock now data n = some (clock', d')) : Intact stream d' := by
  unfold Direction.afterWrite at hw
  split at hw
  · -- a write of nothing is an error; the buffer is lost, but nothing of it was counted
    obtain ⟨-, rfl⟩ := Prod.mk.inj (Option.some.inj hw)
    exact ⟨data, h.setPump _⟩
  split at hw
  · next hn =>
    obtain ⟨-, rfl⟩ := Prod.mk.inj (Option.some.inj hw)
    have hacc := accepted_wrote { d with delivered := min (d.delivered + n) u64Max } (data.take n)
    refine Moving.writeAllWithIdle ⟨h.stream_eq, ?_, ?_, ?_, h.not_eof⟩
    · show d.received = _
      rw [hacc]
      show d.received = (d.accepted ++ data.take n) ++ data.drop n
      rw [List.append_assoc, List.take_append_drop, h.received_eq]
    · rw [hacc]
      have hlen : (d.accepted ++ data.take n).length = d.accepted.length + n := by
        simp [List.length_take, Nat.min_eq_left hn]
      show min (d.delivered + n) u64Max = min (d.accepted ++ data.take n).length u64Max
      rw [hlen, h.counter]
      omega
    · simp [h.not_shutdown]
  · simp at hw

/-- **A pump keeps its stream intact**, whichever way its attempt ends. -/
theorem Intact.resume {clock' : ActivityClock} {d' : Direction} {outcome : Outcome}
    (h : Intact stream d) (hr : d.resume idleTimeout clock now outcome = some (clock', d')) :
    Intact stream d' := by
  unfold Intact at h
  rcases resume_cases hr with ⟨hp, -, rfl⟩ | ⟨deadline, hp, hcases⟩ | ⟨data, deadline, hp, hcases⟩ |
    ⟨deadline, hp, -, rfl, -⟩
  · rw [hp] at h
    exact Moving.readWithIdle h
  · rw [hp] at h
    rcases hcases with ⟨n, -, hread⟩ | ⟨e, -, -, rfl⟩ | ⟨-, -, -, rfl⟩
    · exact Moving.afterRead h hread
    · exact ⟨[], Moving.setPump h _⟩
    · exact Moving.readWithIdle h
  · rw [hp] at h
    rcases hcases with ⟨n, -, hwrite⟩ | ⟨e, -, -, rfl⟩ | ⟨-, -, -, rfl⟩
    · exact Moving.afterWrite h hwrite
    · exact ⟨data, Moving.setPump h _⟩
    · exact Moving.writeAllWithIdle h
  · rw [hp] at h
    exact Closed.setPump h _

end Pump

end Direction

/-! ## The relay -/

namespace RelayState

/-- Both streams are intact, and a direction is done when its pump has reached the end. -/
structure Intact (stream : Side → Bytes) (s : RelayState) : Prop where
  directions : ∀ side, (s.direction side).Intact (stream side)
  done : ∀ side, s.isDone side = true → (s.direction side).pump = .returned (.ok ())
  completed : s.status = .ended .completed → ∀ side, s.isDone side = true

theorem intact_new (idleTimeout now : Nat) (stream : Side → Bytes) (closes : Side → Bool) :
    Intact stream (new idleTimeout now (.new (stream .upload) (closes .upload))
      (.new (stream .download) (closes .download))) where
  directions side := by cases side <;> exact Direction.intact_new _ _
  done side h := by cases side <;> simp [new, isDone] at h
  completed h := by simp [new] at h

/-- A direction is done after a poll if it was, or if its pump has just reached the end. -/
theorem isDone_afterPoll {s : RelayState} {side other : Side} :
    (s.afterPoll side).isDone other = true ↔
      s.isDone other = true ∨ other = side ∧ (s.direction side).pump = .returned (.ok ()) := by
  unfold afterPoll
  split
  · next hp =>
    rw [hp]
    cases side <;> cases other <;> dsimp only [setDone] <;> split <;> simp [isDone]
  · next hp => simp [hp, isDone]
  · next hp => simp [hp, isDone]
  · next hp => simp [hp, isDone]
  · next hok _ _ _ =>
    constructor
    · exact .inl
    · rintro (h | ⟨-, h⟩)
      · exact h
      · exact (hok h).elim

theorem status_afterPoll {s : RelayState} {side : Side} (hrun : s.status = .running)
    (h : (s.afterPoll side).status = .ended .completed) :
    ∀ other, (s.afterPoll side).isDone other = true := by
  intro other
  have hne : ∀ e : RelayEnd, e ≠ .completed → RelayStatus.ended e ≠ .ended .completed := by
    intro e he heq
    exact he (RelayStatus.ended.inj heq)
  unfold afterPoll at h ⊢
  split at h
  · dsimp only at h ⊢
    split
    · next hdone =>
      rw [Bool.and_eq_true] at hdone
      cases other
      · exact hdone.1
      · exact hdone.2
    · next hdone =>
      rw [if_neg hdone] at h
      cases side <;> simp [setDone, hrun] at h
  · exact absurd h (hne _ (by simp))
  · exact absurd h (hne _ (by cases side <;> simp [Side.readError]))
  · exact absurd h (hne _ (by cases side <;> simp [Side.writeError]))
  · simp [hrun] at h

/-- **Every step of the relay keeps both streams intact.** -/
theorem Intact.step {stream : Side → Bytes} {s s' : RelayState} {event : RelayEvent}
    (h : s.Intact stream) (hs : s.step event = some s') : s'.Intact stream := by
  obtain ⟨hrun, ⟨-, rfl⟩ | ⟨side, now, outcome, clock, d, -, hnot, -, hr, rfl⟩⟩ := step_cases hs
  · -- dropped: both directions stay where they are
    refine ⟨?_, ?_, fun hc => by simp at hc⟩
    · intro side
      cases side
      · exact h.directions .upload
      · exact h.directions .download
    · intro side hd
      cases side
      · exact h.done .upload hd
      · exact h.done .download hd
  have hd : d.Intact (stream side) := (h.directions side).resume hr
  have hother : ∀ other, other ≠ side →
      ({ s with now, clock }.setDirection side d).direction other = s.direction other := by
    intro other ho
    rw [direction_setDirection_of_ne _ _ ho]
    cases other <;> rfl
  refine ⟨?_, ?_, ?_⟩
  · intro other
    rw [direction_afterPoll]
    by_cases ho : other = side
    · subst ho
      rw [direction_setDirection]
      exact hd
    · rw [hother other ho]
      exact h.directions other
  · intro other hdone
    rw [direction_afterPoll]
    rcases isDone_afterPoll.mp hdone with hwas | ⟨rfl, hp⟩
    · -- `select!` does not poll a pump that is done, so it is the other one
      have hwas' : s.isDone other = true := by
        cases side <;> cases other <;> exact hwas
      have ho : other ≠ side := by
        intro he
        rw [he, hnot] at hwas'
        simp at hwas'
      rw [hother other ho]
      exact h.done other hwas'
    · exact hp
  · intro hc
    have hrun' : ({ s with now, clock }.setDirection side d).status = .running := by
      cases side <;> exact hrun
    exact status_afterPoll hrun' hc

end RelayState

/-! ## Every run -/

/-- One direction of the relay in some state, for the stream its peer sends. -/
structure StreamIntact (stream : Bytes) (d : Direction) : Prop where
  /-- The writer has got a part of what was read, from its start. -/
  accepted_received : d.accepted <+: d.received
  received_stream : d.received <+: stream
  counter : d.delivered = min u64Max d.accepted.length
  /-- The shutdown is the last thing a writer sees, after all bytes up to end of stream. -/
  shutdown_last : WriterOp.shutdown ∉ d.writer ∨
    d.eof = true ∧ d.received = stream ∧ d.accepted = stream ∧
      ∃ writes, d.writer = writes ++ [.shutdown] ∧ WriterOp.shutdown ∉ writes

theorem Direction.Moving.streamIntact {stream rest : Bytes} {d : Direction}
    (h : d.Moving stream rest) : StreamIntact stream d where
  accepted_received := ⟨rest, h.received_eq.symm⟩
  received_stream := ⟨d.unread, h.stream_eq⟩
  counter := by rw [h.counter, Nat.min_comm]
  shutdown_last := .inl h.not_shutdown

theorem Direction.Closed.streamIntact {stream : Bytes} {d : Direction} (h : d.Closed stream) :
    StreamIntact stream d where
  accepted_received := ⟨[], by rw [List.append_nil, h.accepted_eq, h.received_eq]⟩
  received_stream := ⟨[], by rw [List.append_nil, h.received_eq]⟩
  counter := by rw [h.counter, Nat.min_comm]
  shutdown_last := .inr ⟨h.eof, h.received_eq, h.accepted_eq, h.shutdown_last⟩

theorem Direction.Intact.streamIntact {stream : Bytes} {d : Direction} (h : d.Intact stream) :
    StreamIntact stream d := by
  unfold Intact at h
  split at h
  · exact Moving.streamIntact h
  · exact Moving.streamIntact h
  · exact Moving.streamIntact h
  · obtain ⟨rest, h⟩ := h
    exact Moving.streamIntact h
  · exact Closed.streamIntact h
  · exact Closed.streamIntact h

/--
**The relay keeps both streams intact.** In every state it can reach, also where it is
dropped, each writer has accepted a part of its source's stream from the start, the counters
are right and a shutdown comes last. When the relay has completed, both streams have arrived
as a whole and both writers are shut down.
-/
theorem relay_streams_intact (idleTimeout start : Nat) (stream : Side → Bytes)
    (closes : Side → Bool) (events : List RelayEvent) (s : RelayState)
    (h : run RelayState.step (.new idleTimeout start (.new (stream .upload) (closes .upload))
      (.new (stream .download) (closes .download))) events = some s) :
    (∀ side, StreamIntact (stream side) (s.direction side)) ∧
    s.counters =
      { clientToTarget := min u64Max s.upload.accepted.length,
        targetToClient := min u64Max s.download.accepted.length } ∧
    (s.status = .ended .completed → ∀ side, (s.direction side).accepted = stream side ∧
      ∃ writes, (s.direction side).writer = writes ++ [.shutdown] ∧
        WriterOp.shutdown ∉ writes) := by
  have hs : s.Intact stream :=
    run_invariant (fun s e s' hi he => RelayState.Intact.step hi he)
      (RelayState.intact_new idleTimeout start stream closes) h
  have hside := fun side => (hs.directions side).streamIntact
  refine ⟨hside, ?_, ?_⟩
  · have hup := (hside .upload).counter
    have hdown := (hside .download).counter
    simp only [RelayState.direction] at hup hdown
    rw [RelayState.counters, hup, hdown]
  · intro hc side
    have hp := hs.done side (hs.completed hc side)
    have hclosed := hs.directions side
    rw [Direction.Intact, hp] at hclosed
    exact ⟨hclosed.accepted_eq, hclosed.shutdown_last⟩

/-- A short exchange: a partial write, a timer that fires while the other side is busy. -/
theorem relay_streams_intact_exchange :
    let stream : Side → Bytes := fun side => if side = .upload then [1, 2, 3] else [9]
    let events : List RelayEvent :=
      [.pump .upload 0 .polled, .pump .download 0 .polled, .pump .upload 5000000 (.read 3),
        .pump .upload 6000000 (.wrote 2), .pump .download 10000000 .elapsed,
        .pump .upload 11000000 (.wrote 1), .pump .upload 11000000 (.read 0),
        .pump .upload 11000000 (.shutDown (.ok ())), .pump .download 12000000 (.read 1),
        .pump .download 12000000 (.wrote 1), .pump .download 12000000 (.read 0),
        .pump .download 12000000 (.shutDown (.ok ()))]
    ∃ s, run RelayState.step (.new 10000000 0 (.new (stream .upload) true)
        (.new (stream .download) true)) events = some s ∧
      s.status = .ended .completed ∧ ∀ side, (s.direction side).accepted = stream side := by
  intro stream events
  obtain ⟨s, hs⟩ := Option.isSome_iff_exists.mp (show (run RelayState.step
    (.new 10000000 0 (.new (stream .upload) true) (.new (stream .download) true)) events).isSome
      from by decide +kernel)
  have hstatus : (run RelayState.step (.new 10000000 0 (.new (stream .upload) true)
      (.new (stream .download) true)) events).map (·.status) = some (.ended .completed) := by
    decide +kernel
  rw [hs] at hstatus
  have hend : s.status = .ended .completed := Option.some.inj hstatus
  have h := relay_streams_intact 10000000 0 stream (fun _ => true) events s hs
  exact ⟨s, hs, hend, fun side => (h.2.2 hend side).1⟩

end SocksServer
