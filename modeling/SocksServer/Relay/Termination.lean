import SocksServer.Relay.Attribution
import SocksServer.Relay.IdleDeadline

/-!
# The relay comes to an end

A timer that fires too early, because the other direction has moved a byte since it was armed,
is armed again. That happens at most once for each pump between two moments of progress, so
the number of steps is bounded by the number of bytes (`relay_terminates`). And while no timer
is late the relay does not outlive its last progress by more than twice the idle timeout, the
second time for the shutdown of a writer (`relay_bounded`).

* `ActivityClock.idleAt` — when the idle time is over if nothing moves
* `PumpState.weight` — what a pump can still do before something moves
-/

namespace SocksServer

open Infra

/-! ## The clock -/

namespace ActivityClock

variable {clock : ActivityClock} {idleTimeout now : Nat}

/-- When the idle time is over, if nothing moves. -/
def idleAt (clock : ActivityClock) (idleTimeout : Nat) : Nat :=
  clock.origin + 1000000 * clock.lastActivityMs + idleTimeout

/-- The clock shows a moment of the past. -/
def NotAhead (clock : ActivityClock) (now : Nat) : Prop :=
  clock.origin + 1000000 * clock.lastActivityMs ≤ now

theorem NotAhead.mono {now' : Nat} (h : clock.NotAhead now) (hnow : now ≤ now') :
    clock.NotAhead now' := le_trans h hnow

theorem notAhead_touch (h : clock.origin ≤ now) : (clock.touch now).NotAhead now := by
  have hb := (asMillis_bounds (now - clock.origin)).1
  unfold durationFromMillis at hb
  show clock.origin + 1000000 * asMillis (now - clock.origin) ≤ now
  omega

theorem NotAhead.origin_le (h : clock.NotAhead now) : clock.origin ≤ now :=
  le_trans (Nat.le_add_right _ _) h

theorem remaining_of_idleAt_le (h : clock.idleAt idleTimeout ≤ now) :
    clock.remaining idleTimeout now = 0 := by
  unfold idleAt at h
  unfold remaining idleFor
  omega

/-- An attempt that starts now has until then. -/
theorem NotAhead.idleAt_le (h : clock.NotAhead now) (hpos : 0 < clock.remaining idleTimeout now) :
    clock.idleAt idleTimeout ≤ now + clock.remaining idleTimeout now := by
  unfold NotAhead at h
  unfold remaining idleFor at *
  unfold idleAt
  omega

end ActivityClock

/-! ## What is left to do -/

/-- A timer that will be armed again if it fires. -/
def stale (deadline idleAt : Nat) : Nat := if deadline < idleAt then 1 else 0

theorem stale_le (deadline idleAt : Nat) : stale deadline idleAt ≤ 1 := by
  unfold stale
  split <;> omega

theorem stale_eq_zero {deadline idleAt : Nat} (h : idleAt ≤ deadline) :
    stale deadline idleAt = 0 := if_neg (by omega)

/-- How often a pump can move before it has returned, and twice for each byte it holds. -/
def PumpState.weight (idleAt : Nat) : PumpState → Nat
  | .start => 3
  | .reading deadline => 2 + stale deadline idleAt
  | .writing data deadline => 2 + stale deadline idleAt + 2 * data.length
  | .closing _ => 1
  | .returned _ => 0

/-- The other pump has moved a byte: one more timer may have to be armed again. -/
theorem PumpState.weight_le (p : PumpState) (idleAt idleAt' : Nat) :
    p.weight idleAt' ≤ p.weight idleAt + 1 := by
  cases p with
  | reading deadline =>
    have := stale_le deadline idleAt'
    simp only [weight]
    omega
  | writing data deadline =>
    have := stale_le deadline idleAt'
    simp only [weight]
    omega
  | _ => simp [weight]

namespace Direction

variable {idleTimeout now deadline : Nat} {clock clock' : ActivityClock} {d d' : Direction}

/-- A byte that is not read yet will be read and written. -/
def weight (idleAt : Nat) (d : Direction) : Nat := 4 * d.unread.length + d.pump.weight idleAt

/-- A direction that starts to read weighs four for each byte that is left, and its timer. -/
theorem weight_readWithIdle (idleTimeout : Nat) (h : clock.NotAhead now) (d : Direction) :
    (d.readWithIdle idleTimeout clock now).weight (clock.idleAt idleTimeout) ≤
      4 * d.unread.length + 2 := by
  unfold readWithIdle
  dsimp only
  split
  · simp [weight, PumpState.weight]
  · next hpos =>
    have hstale := stale_eq_zero (h.idleAt_le (Nat.pos_of_ne_zero hpos))
    simp only [weight, PumpState.weight, hstale]
    omega

/-- One that starts to write weighs two more for each byte it holds. -/
theorem weight_writeAllWithIdle (idleTimeout : Nat) (h : clock.NotAhead now) (d : Direction)
    (data : Bytes) :
    (d.writeAllWithIdle idleTimeout clock now data).weight (clock.idleAt idleTimeout) ≤
      4 * d.unread.length + 2 + 2 * data.length := by
  unfold writeAllWithIdle
  split
  · exact (weight_readWithIdle idleTimeout h d).trans (by omega)
  · dsimp only
    split
    · simp only [weight, PumpState.weight]
      omega
    · next hpos =>
      have hstale := stale_eq_zero (h.idleAt_le (Nat.pos_of_ne_zero hpos))
      simp only [weight, PumpState.weight, hstale]
      omega

/-- A timer that is not stale ends the pump. -/
theorem weight_readWithIdle_of_idle (h : clock.remaining idleTimeout now = 0) (d : Direction)
    (idleAt : Nat) : (d.readWithIdle idleTimeout clock now).weight idleAt = 4 * d.unread.length := by
  have hpump : d.readWithIdle idleTimeout clock now = { d with pump := .returned (.error .idle) } :=
    if_pos h
  rw [hpump]
  rfl

/-- Once the connection has been idle, a write ends the direction at once. -/
theorem weight_writeAllWithIdle_of_idle (h : clock.remaining idleTimeout now = 0) (d : Direction)
    (data : Bytes) (idleAt : Nat) :
    (d.writeAllWithIdle idleTimeout clock now data).weight idleAt = 4 * d.unread.length := by
  unfold writeAllWithIdle
  split
  · exact weight_readWithIdle_of_idle h d idleAt
  · dsimp only
    rw [if_pos h]
    rfl

/-- The pump has lost weight; if something moved, also what the other pump may gain by it. -/
def Lighter (idleTimeout : Nat) (clock clock' : ActivityClock) (d d' : Direction) : Prop :=
  clock' = clock ∧ d'.weight (clock.idleAt idleTimeout) + 1 ≤ d.weight (clock.idleAt idleTimeout) ∨
    d'.weight (clock'.idleAt idleTimeout) + 2 ≤ d.weight (clock.idleAt idleTimeout)

/-- A read takes bytes off the stream, so the direction gets lighter. -/
theorem lighter_afterRead {n : Nat} (hclock : clock.NotAhead now)
    (hp : d.pump = .reading deadline)
    (h : d.afterRead idleTimeout clock now n = some (clock', d')) :
    clock'.NotAhead now ∧ Lighter idleTimeout clock clock' d d' := by
  unfold afterRead at h
  split at h
  · split at h
    · obtain ⟨rfl, rfl⟩ := Prod.mk.inj (Option.some.inj h)
      refine ⟨hclock, .inl ⟨rfl, ?_⟩⟩
      simp only [weight, hp, PumpState.weight]
      omega
    · simp at h
  · next hn =>
    split at h
    · next hle =>
      obtain ⟨rfl, rfl⟩ := Prod.mk.inj (Option.some.inj h)
      have hclock' := ActivityClock.notAhead_touch hclock.origin_le
      refine ⟨hclock', .inr ?_⟩
      -- what is read is held from now on
      have hw := weight_writeAllWithIdle idleTimeout hclock'
        { d with received := d.received ++ d.unread.take n, unread := d.unread.drop n }
        (d.unread.take n)
      simp only [List.length_take, List.length_drop] at hw
      simp only [weight, hp, PumpState.weight] at hw ⊢
      omega
    · simp at h

/-- A write takes bytes off the buffer, and none comes back. -/
theorem lighter_afterWrite {data : Bytes} {n : Nat} (hclock : clock.NotAhead now)
    (hp : d.pump = .writing data deadline)
    (h : d.afterWrite idleTimeout clock now data n = some (clock', d')) :
    clock'.NotAhead now ∧ Lighter idleTimeout clock clock' d d' := by
  unfold afterWrite at h
  split at h
  · obtain ⟨rfl, rfl⟩ := Prod.mk.inj (Option.some.inj h)
    refine ⟨hclock, .inl ⟨rfl, ?_⟩⟩
    simp only [weight, hp, PumpState.weight]
    omega
  · next hn =>
    split at h
    · next hle =>
      obtain ⟨rfl, rfl⟩ := Prod.mk.inj (Option.some.inj h)
      have hclock' := ActivityClock.notAhead_touch hclock.origin_le
      refine ⟨hclock', .inr ?_⟩
      have hw := weight_writeAllWithIdle idleTimeout hclock'
        { d with
          writer := d.writer ++ [WriterOp.wrote (data.take n)]
          delivered := min (d.delivered + n) u64Max } (data.drop n)
      simp only [List.length_drop] at hw
      simp only [weight, hp, PumpState.weight] at hw ⊢
      omega
    · simp at h

/-- What a pump weighs where it stands. -/
theorem weight_of_pump {p : PumpState} (hp : d.pump = p) (idleAt : Nat) :
    d.weight idleAt = 4 * d.unread.length + p.weight idleAt := by
  rw [weight, hp]

/-- The timer of a read fires: it is armed once more, or the pump gives up. -/
theorem lighter_readElapsed (hclock : clock.NotAhead now) (hp : d.pump = .reading deadline)
    (hdue : deadline ≤ now) :
    Lighter idleTimeout clock clock d (d.readWithIdle idleTimeout clock now) := by
  refine .inl ⟨rfl, ?_⟩
  have hbefore := weight_of_pump hp (clock.idleAt idleTimeout)
  rw [PumpState.weight] at hbefore
  by_cases hstale : deadline < clock.idleAt idleTimeout
  · have hafter := weight_readWithIdle idleTimeout hclock d
    rw [stale, if_pos hstale] at hbefore
    omega
  · have hidle := ActivityClock.remaining_of_idleAt_le (le_trans (not_lt.mp hstale) hdue)
    rw [weight_readWithIdle_of_idle hidle]
    omega

/-- A timer that fires was stale, and is set to the idle deadline, or the pump is over. -/
theorem lighter_writeElapsed {data : Bytes} (hclock : clock.NotAhead now)
    (hp : d.pump = .writing data deadline) (hdue : deadline ≤ now) :
    Lighter idleTimeout clock clock d (d.writeAllWithIdle idleTimeout clock now data) := by
  refine .inl ⟨rfl, ?_⟩
  have hbefore := weight_of_pump hp (clock.idleAt idleTimeout)
  rw [PumpState.weight] at hbefore
  by_cases hstale : deadline < clock.idleAt idleTimeout
  · have hafter := weight_writeAllWithIdle idleTimeout hclock d data
    rw [stale, if_pos hstale] at hbefore
    omega
  · have hidle := ActivityClock.remaining_of_idleAt_le (le_trans (not_lt.mp hstale) hdue)
    rw [weight_writeAllWithIdle_of_idle hidle]
    omega

/-- **A pump that moves loses weight.** -/
theorem lighter_resume {outcome : Outcome} (hclock : clock.NotAhead now)
    (h : d.resume idleTimeout clock now outcome = some (clock', d')) :
    clock'.NotAhead now ∧ Lighter idleTimeout clock clock' d d' := by
  rcases resume_cases h with ⟨hp, rfl, rfl⟩ | ⟨deadline, hp, hcases⟩ |
    ⟨data, deadline, hp, hcases⟩ | ⟨deadline, hp, rfl, rfl, -⟩
  · refine ⟨hclock, .inl ⟨rfl, ?_⟩⟩
    have hbefore := weight_of_pump hp (clock'.idleAt idleTimeout)
    have hafter := weight_readWithIdle idleTimeout hclock d
    rw [PumpState.weight] at hbefore
    omega
  · rcases hcases with ⟨n, -, hread⟩ | ⟨e, -, rfl, rfl⟩ | ⟨-, hdue, rfl, rfl⟩
    · exact lighter_afterRead hclock hp hread
    · refine ⟨hclock, .inl ⟨rfl, ?_⟩⟩
      simp only [weight, hp, PumpState.weight]
      omega
    · exact ⟨hclock, lighter_readElapsed hclock hp hdue⟩
  · rcases hcases with ⟨n, -, hwrite⟩ | ⟨e, -, rfl, rfl⟩ | ⟨-, hdue, rfl, rfl⟩
    · exact lighter_afterWrite hclock hp hwrite
    · refine ⟨hclock, .inl ⟨rfl, ?_⟩⟩
      simp only [weight, hp, PumpState.weight]
      omega
    · exact ⟨hclock, lighter_writeElapsed hclock hp hdue⟩
  · refine ⟨hclock, .inl ⟨rfl, ?_⟩⟩
    simp only [weight, hp, PumpState.weight]
    omega

end Direction

/-! ## Both pumps -/

theorem Direction.weight_le (d : Direction) (idleAt idleAt' : Nat) :
    d.weight idleAt' ≤ d.weight idleAt + 1 := by
  have := d.pump.weight_le idleAt idleAt'
  unfold weight
  omega

namespace RelayState

variable {s s' : RelayState}

/-- How often the relay can still be polled, at most. -/
def weight (s : RelayState) : Nat :=
  (s.direction .upload).weight (s.clock.idleAt s.idleTimeout) +
    (s.direction .download).weight (s.clock.idleAt s.idleTimeout) +
    if s.status = .running then 1 else 0

/-- The weight from the side of one pump. -/
theorem weight_eq (s : RelayState) (side : Side) :
    s.weight = (s.direction side).weight (s.clock.idleAt s.idleTimeout) +
      (s.direction side.other).weight (s.clock.idleAt s.idleTimeout) +
      if s.status = .running then 1 else 0 := by
  cases side with
  | upload => rfl
  | download =>
    rw [weight, Nat.add_comm ((s.direction .upload).weight _)]
    rfl

/-- What a poll of one pump does to the state. -/
theorem frame_poll (s : RelayState) (side : Side) (now : Nat) (clock : ActivityClock)
    (d : Direction) :
    let s' := ({ s with now, clock }.setDirection side d).afterPoll side
    s'.now = now ∧ s'.clock = clock ∧ s'.idleTimeout = s.idleTimeout ∧ s'.direction side = d ∧
      s'.direction side.other = s.direction side.other := by
  obtain ⟨hnow, hclock, hidle⟩ := afterPoll_frame ({ s with now, clock }.setDirection side d) side
  refine ⟨hnow.trans ?_, hclock.trans ?_, hidle.trans ?_, ?_, ?_⟩
  · cases side <;> rfl
  · cases side <;> rfl
  · cases side <;> rfl
  · rw [direction_afterPoll, direction_setDirection]
  · rw [direction_afterPoll]
    cases side <;> rfl

/-- The last activity is never in the future, whatever happens. -/
theorem notAhead_step (h : s.clock.NotAhead s.now) {event : RelayEvent}
    (hs : s.step event = some s') : s'.clock.NotAhead s'.now := by
  obtain ⟨-, ⟨rfl, rfl⟩ | ⟨side, now, outcome, clock, d, rfl, -, hnow, hr, rfl⟩⟩ := step_cases hs
  · exact h
  · obtain ⟨hnow', hclock, -⟩ := s.frame_poll side now clock d
    rw [hnow', hclock]
    exact (Direction.lighter_resume (h.mono hnow) hr).1

/-- **Every step makes the relay lighter.** -/
theorem weight_step (h : s.clock.NotAhead s.now) {event : RelayEvent}
    (hs : s.step event = some s') : s'.weight + 1 ≤ s.weight := by
  obtain ⟨hrun, ⟨rfl, rfl⟩ | ⟨side, now, outcome, clock, d, rfl, -, hnow, hr, rfl⟩⟩ := step_cases hs
  · show (s.direction .upload).weight (s.clock.idleAt s.idleTimeout) +
      (s.direction .download).weight (s.clock.idleAt s.idleTimeout) + 0 + 1 ≤ s.weight
    rw [weight, if_pos hrun]
  · obtain ⟨-, hclock, hidle, hside, hother⟩ := s.frame_poll side now clock d
    have hlighter := (Direction.lighter_resume (h.mono hnow) hr).2
    rw [weight_eq _ side, weight_eq s side, hclock, hidle, hside, hother, if_pos hrun]
    have hstatus : (if (({ s with now, clock }.setDirection side d).afterPoll side).status = .running
        then 1 else 0) ≤ 1 := by
      split <;> omega
    rcases hlighter with ⟨rfl, hless⟩ | hless
    · omega
    · -- the other pump may have to wait longer now
      have hgain := (s.direction side.other).weight_le (s.clock.idleAt s.idleTimeout)
        (clock.idleAt s.idleTimeout)
      omega

theorem notAhead_new (idleTimeout start : Nat) (upload download : Direction) :
    (new idleTimeout start upload download).clock.NotAhead start := le_refl start

end RelayState

/--
**The relay cannot spin.** Whatever the peers do and whenever the timers fire, the number of
steps of a relay is bounded by the number of bytes that its peers send.
-/
theorem relay_terminates (idleTimeout start : Nat) (stream : Side → Bytes)
    (closes : Side → Bool) (events : List RelayEvent) (s : RelayState)
    (h : run RelayState.step (.new idleTimeout start (.new (stream .upload) (closes .upload))
      (.new (stream .download) (closes .download))) events = some s) :
    events.length ≤ 4 * ((stream .upload).length + (stream .download).length) + 7 := by
  have hnew := RelayState.notAhead_new idleTimeout start (.new (stream .upload) (closes .upload))
    (.new (stream .download) (closes .download))
  have hlength := run_length_le (fun _ _ _ hi he => RelayState.notAhead_step hi he)
    (fun _ _ _ hi he => RelayState.weight_step hi he) hnew h
  have hweight : (RelayState.new idleTimeout start (.new (stream .upload) (closes .upload))
      (.new (stream .download) (closes .download))).weight =
      4 * (stream .upload).length + 3 + (4 * (stream .download).length + 3) + 1 := rfl
  omega

/-- Five bytes and a timer that is armed again: eleven steps. -/
theorem relay_terminates_rearmed :
    let stream : Side → Bytes := fun side => if side = .upload then [] else [1, 2, 3, 4, 5]
    let events : List RelayEvent :=
      [.pump .upload 0 .polled, .pump .download 0 .polled, .pump .download 5000000 (.read 5),
        .pump .download 6000000 (.wrote 4), .pump .upload 10000000 .elapsed,
        .pump .download 11000000 (.wrote 1), .pump .download 12000000 (.read 0),
        .pump .download 12000000 (.shutDown (.ok ())), .pump .upload 16000000 .elapsed,
        .pump .upload 20000000 (.read 0), .pump .upload 30000000 .elapsed]
    ∃ s, run RelayState.step (.new 10000000 0 (.new (stream .upload) true)
        (.new (stream .download) true)) events = some s ∧
      s.status = .ended .completed ∧ events.length = 11 ∧
      events.length ≤ 4 * ((stream .upload).length + (stream .download).length) + 7 := by
  intro stream events
  have hrun : (run RelayState.step (.new 10000000 0 (.new (stream .upload) true)
      (.new (stream .download) true)) events).map (·.status) = some (.ended .completed) := by
    decide +kernel
  obtain ⟨s, hs, hstatus⟩ := Option.map_eq_some_iff.mp hrun
  exact ⟨s, hs, hstatus, rfl, relay_terminates 10000000 0 stream (fun _ => true) events s hs⟩

/-! ## In time -/

/-- When a pump must be polled again. One that is not polled yet is due at once. -/
def PumpState.due (start : Nat) : PumpState → Option Nat
  | .start => some start
  | .reading deadline => some deadline
  | .writing _ deadline => some deadline
  | .closing deadline => some deadline
  | .returned _ => none

def RelayEvent.time : RelayEvent → Option Nat
  | .pump _ now _ => some now
  | .drop => none

namespace RelayState

/-- At time `now` no pump that is still polled is late by more than `slack`. -/
def InTime (slack start now : Nat) (s : RelayState) : Prop :=
  ∀ side ∈ [Side.upload, Side.download], s.isDone side = false →
    ∀ due ∈ (s.direction side).pump.due start, now ≤ due + slack

instance (slack start now : Nat) (s : RelayState) : Decidable (s.InTime slack start now) :=
  inferInstanceAs (Decidable (∀ side ∈ [Side.upload, Side.download], _))

/-- A step before which no timer was late by more than `slack`. -/
def promptStep (slack start : Nat) (s : RelayState) (event : RelayEvent) : Option RelayState :=
  if ∀ now ∈ event.time, s.InTime slack start now then s.step event else none

theorem InTime.due {slack start now due : Nat} {s : RelayState} (h : s.InTime slack start now)
    {side : Side} (hdone : s.isDone side = false)
    (hdue : (s.direction side).pump.due start = some due) : now ≤ due + slack :=
  h side (by cases side <;> simp) hdone due hdue

end RelayState

namespace Direction

variable {idleTimeout now deadline : Nat} {clock clock' : ActivityClock} {d d' : Direction}

/-- The writer of the pump is not being shut down. -/
def NotClosing (d : Direction) : Prop := ∀ deadline, d.pump ≠ .closing deadline

theorem notClosing_readWithIdle (d : Direction) :
    NotClosing (d.readWithIdle idleTimeout clock now) := by
  unfold readWithIdle
  dsimp only
  split
  · rintro deadline ⟨⟩
  · rintro deadline ⟨⟩

theorem notClosing_writeAllWithIdle (d : Direction) (data : Bytes) :
    NotClosing (d.writeAllWithIdle idleTimeout clock now data) := by
  unfold writeAllWithIdle
  split
  · exact notClosing_readWithIdle d
  · dsimp only
    split
    · rintro deadline ⟨⟩
    · rintro deadline ⟨⟩

theorem closing_of_afterRead {n : Nat}
    (h : d.afterRead idleTimeout clock now n = some (clock', d'))
    (hclosing : d'.pump = .closing deadline) : deadline = now + idleTimeout := by
  unfold afterRead at h
  split at h
  · split at h
    · obtain ⟨-, rfl⟩ := Prod.mk.inj (Option.some.inj h)
      exact (PumpState.closing.inj hclosing).symm
    · simp at h
  · split at h
    · obtain ⟨-, rfl⟩ := Prod.mk.inj (Option.some.inj h)
      exact absurd hclosing (notClosing_writeAllWithIdle _ _ _)
    · simp at h

theorem notClosing_of_afterWrite {data : Bytes} {n : Nat}
    (h : d.afterWrite idleTimeout clock now data n = some (clock', d')) : NotClosing d' := by
  unfold afterWrite at h
  split at h
  · obtain ⟨-, rfl⟩ := Prod.mk.inj (Option.some.inj h)
    rintro deadline ⟨⟩
  · split at h
    · obtain ⟨-, rfl⟩ := Prod.mk.inj (Option.some.inj h)
      exact notClosing_writeAllWithIdle _ _
    · simp at h

/-- A writer is shut down right after the end of the other stream. -/
theorem closing_of_resume {outcome : Outcome}
    (h : d.resume idleTimeout clock now outcome = some (clock', d'))
    (hclosing : d'.pump = .closing deadline) :
    (∃ deadline', d.pump = .reading deadline') ∧ deadline = now + idleTimeout := by
  rcases resume_cases h with ⟨-, -, rfl⟩ | ⟨deadline', hp, hcases⟩ |
    ⟨data, deadline', hp, hcases⟩ | ⟨deadline', hp, -, rfl, -⟩
  · exact absurd hclosing (notClosing_readWithIdle _ _)
  · refine ⟨⟨deadline', hp⟩, ?_⟩
    rcases hcases with ⟨n, -, hafter⟩ | ⟨e, -, -, rfl⟩ | ⟨-, -, -, rfl⟩
    · exact closing_of_afterRead hafter hclosing
    · cases hclosing
    · exact absurd hclosing (notClosing_readWithIdle _ _)
  · rcases hcases with ⟨n, -, hafter⟩ | ⟨e, -, -, rfl⟩ | ⟨-, -, -, rfl⟩
    · exact absurd hclosing (notClosing_of_afterWrite hafter _)
    · cases hclosing
    · exact absurd hclosing (notClosing_writeAllWithIdle _ _ _)
  · cases hclosing

end Direction

/-- The time of a relay whose timers are prompt. -/
structure Prompt (slack idleTimeout start : Nat) (events : List RelayEvent) (s : RelayState) :
    Prop where
  timed : Timed idleTimeout start events s
  settled : s.Settled
  closing : ∀ side deadline, (s.direction side).pump = .closing deadline →
    deadline ≤ lastProgress start events + 2 * idleTimeout + slack

section Prompt

variable {slack idleTimeout start : Nat} {events : List RelayEvent} {s s' : RelayState}

theorem Prompt.step (h : Prompt slack idleTimeout start events s) {event : RelayEvent}
    (hs : s.promptStep slack start event = some s') :
    Prompt slack idleTimeout start (events ++ [event]) s' := by
  unfold RelayState.promptStep at hs
  split at hs
  · next hin =>
    have htimed := h.timed.step hs
    refine ⟨htimed, h.settled.step hs, ?_⟩
    intro side' deadline hclosing
    obtain ⟨-, ⟨rfl, rfl⟩ | ⟨side, now, outcome, clock, d, rfl, hdone, hnow, hr, rfl⟩⟩ :=
      RelayState.step_cases hs
    · have hlast : lastProgress start (events ++ [.drop]) = lastProgress start events :=
        lastProgress_concat start events .drop
      rw [hlast]
      exact h.closing side' deadline (by cases side' <;> exact hclosing)
    · obtain ⟨-, -, -, hside, hother⟩ := s.frame_poll side now clock d
      have hgrow := (h.timed.last_le_concat side outcome hnow).1
      by_cases heq : side' = side
      · -- the read that found the end of the stream was in time
        subst heq
        rw [hside] at hclosing
        rw [h.timed.idle_eq] at hr
        obtain ⟨⟨deadline', hp⟩, rfl⟩ := Direction.closing_of_resume hr hclosing
        have harmed := h.timed.armed side' deadline' (by rw [hp]; rfl)
        have hlate := (hin now rfl).due hdone (by rw [hp]; rfl)
        omega
      · obtain rfl : side' = side.other := by
          cases side <;> cases side' <;> first | rfl | exact absurd rfl heq
        rw [hother] at hclosing
        have hold := h.closing _ deadline hclosing
        omega
  · simp at hs

end Prompt

/--
**The relay does not outlive its traffic.** While no timer is late by more than `slack`, a
relay that still runs at time `now` has read or written a byte at most twice the idle timeout
before, and at most once if one of its pumps still reads or writes.
-/
theorem relay_bounded (slack idleTimeout start : Nat) (stream : Side → Bytes)
    (closes : Side → Bool) (events : List RelayEvent) (s : RelayState)
    (h : run (RelayState.promptStep slack start)
      (.new idleTimeout start (.new (stream .upload) (closes .upload))
        (.new (stream .download) (closes .download))) events = some s)
    (hrun : s.status = .running) (now : Nat) (hin : s.InTime slack start now) :
    now ≤ lastProgress start events + 2 * idleTimeout + 2 * slack ∧
    ∀ side, s.isDone side = false → ∀ deadline, (s.direction side).pump.Attempts deadline →
      now ≤ lastProgress start events + idleTimeout + slack := by
  have hnew : Prompt slack idleTimeout start [] (.new idleTimeout start
      (.new (stream .upload) (closes .upload)) (.new (stream .download) (closes .download))) := by
    refine ⟨.new idleTimeout start _ _ rfl rfl, RelayState.settled_new idleTimeout start _ _ rfl rfl,
      ?_⟩
    rintro (_ | _) deadline ⟨⟩
  have hprompt : Prompt slack idleTimeout start events s :=
    run_history hnew (fun _ _ _ _ hi he => hi.step he) h
  have hattempt : ∀ side, s.isDone side = false → ∀ deadline,
      (s.direction side).pump.Attempts deadline →
      now ≤ lastProgress start events + idleTimeout + slack := by
    intro side hdone deadline hattempt
    have harmed := hprompt.timed.armed side deadline hattempt
    have hlate : now ≤ deadline + slack := by
      refine hin.due hdone ?_
      cases hp : (s.direction side).pump <;> rw [hp] at hattempt <;>
        first | exact hattempt.elim | exact congrArg some hattempt
    omega
  refine ⟨?_, hattempt⟩
  obtain ⟨side, hdone⟩ := hprompt.settled.enabled hrun
  cases hp : (s.direction side).pump with
  | start =>
    have hlate := hin.due hdone (by rw [hp]; rfl)
    have hstart := hprompt.timed.start_le
    omega
  | reading deadline =>
    have := hattempt side hdone deadline (by rw [hp]; rfl)
    omega
  | writing data deadline =>
    have := hattempt side hdone deadline (by rw [hp]; rfl)
    omega
  | closing deadline =>
    have hlate := hin.due hdone (by rw [hp]; rfl)
    have hclosing := hprompt.closing side deadline hp
    omega
  | returned result => exact absurd hp (hprompt.settled.waiting hrun side hdone result)

/-- The last byte, one idle timeout to the end of the stream and one more for the shutdown. -/
theorem relay_bounded_reached :
    let stream : Side → Bytes := fun side => if side = .upload then [1] else []
    let events : List RelayEvent :=
      [.pump .upload 0 .polled, .pump .download 0 .polled, .pump .download 0 (.read 0),
        .pump .download 0 (.shutDown (.ok ())), .pump .upload 1000000 (.read 1),
        .pump .upload 1000000 (.wrote 1), .pump .upload 11000000 (.read 0)]
    ∃ s, run (RelayState.promptStep 0 0) (.new 10000000 0 (.new (stream .upload) true)
        (.new (stream .download) true)) events = some s ∧
      s.status = .running ∧ s.InTime 0 0 21000000 ∧
      21000000 ≤ lastProgress 0 events + 2 * 10000000 + 2 * 0 := by
  intro stream events
  have hrun : (run (RelayState.promptStep 0 0) (.new 10000000 0 (.new (stream .upload) true)
      (.new (stream .download) true)) events).map
        (fun s => (s.status, decide (s.InTime 0 0 21000000))) = some (.running, true) := by
    decide +kernel
  obtain ⟨s, hs, hobs⟩ := Option.map_eq_some_iff.mp hrun
  obtain ⟨hstatus, hin⟩ := Prod.mk.inj hobs
  have hin := of_decide_eq_true hin
  exact ⟨s, hs, hstatus, hin,
    (relay_bounded 0 10000000 0 stream (fun _ => true) events s hs hstatus _ hin).1⟩

end SocksServer
