import SocksServer.Infra.Machine
import SocksServer.Infra.Task

/-!
# `relay/activity_clock.rs` and `relay/bidirectional.rs`

The relay runs two pumps over one clock. A pump is modelled by the await point it stands at;
`resume` is what it does from there to the next one when the attempt ends in some way. A
timer can fire from its deadline on; nothing else is assumed of time but that it does not
run backwards.

Times are nanoseconds. Subtraction of natural numbers saturates, as that of `Duration`.
-/

namespace SocksServer

open Infra

/-! ## The clock -/

/-- Largest `u64`. -/
def u64Max : Nat := 2 ^ 64 - 1

/-- `Duration::as_millis` as `u64` -/
def asMillis (duration : Nat) : Nat := min (duration / 1000000) u64Max

/-- Last moment any byte moved, in either direction. -/
structure ActivityClock where
  origin : Nat
  lastActivityMs : Nat
  deriving DecidableEq, Repr

namespace ActivityClock

def new (now : Nat) : ActivityClock := { origin := now, lastActivityMs := 0 }

/-- Records progress. -/
def touch (clock : ActivityClock) (now : Nat) : ActivityClock :=
  { clock with lastActivityMs := asMillis (now - clock.origin) }

def idleFor (clock : ActivityClock) (now : Nat) : Nat :=
  (now - clock.origin) - clock.lastActivityMs * 1000000

/-- Time left until the connection has been idle for `idleTimeout`. -/
def remaining (clock : ActivityClock) (idleTimeout now : Nat) : Nat :=
  idleTimeout - clock.idleFor now

end ActivityClock

/-! ## One direction -/

def relayBufferSize : Nat := 16 * 1024

inductive PumpError where
  | idle
  | read (error : IoError)
  | write (error : IoError)
  deriving DecidableEq, Repr

/-- `io::ErrorKind::WriteZero.into()` -/
def writeZeroError : IoError := ⟨.writeZero, "write zero"⟩

/-- Where a pump stands. -/
inductive PumpState where
  /-- Not polled yet. -/
  | start
  /-- `timeout(remaining, reader.read(buffer))` -/
  | reading (deadline : Nat)
  /-- `timeout(remaining, writer.write(data))` -/
  | writing (data : Bytes) (deadline : Nat)
  /-- `timeout(idle_timeout, writer.shutdown())` -/
  | closing (deadline : Nat)
  | returned (result : Except PumpError Unit)
  deriving DecidableEq, Repr

/-- What a writer has been asked to do: bytes it accepted, and its shutdown. -/
inductive WriterOp where
  | wrote (bytes : Bytes)
  | shutdown
  deriving DecidableEq, Repr

/-- A pump with its reader and its writer. -/
structure Direction where
  pump : PumpState
  /-- What the reader has delivered. -/
  received : Bytes
  /-- What the peer has sent and the reader has not delivered yet. -/
  unread : Bytes
  /-- Whether end of stream follows after `unread`. -/
  closes : Bool
  /-- The reader has reported end of stream. -/
  eof : Bool
  writer : List WriterOp
  delivered : Nat
  deriving DecidableEq, Repr

/-- How an attempt of a pump ends. -/
inductive Outcome where
  | polled
  /-- `n` bytes; none at the end of the stream. -/
  | read (n : Nat)
  | readFailed (error : IoError)
  | wrote (n : Nat)
  | writeFailed (error : IoError)
  /-- `shutdown()` completed; its result is ignored. -/
  | shutDown (result : Except IoError Unit)
  | elapsed
  deriving DecidableEq, Repr

namespace Direction

/-- `stream` is what the peer sends; `closes` tells whether it ever closes. -/
def new (stream : Bytes) (closes : Bool) : Direction :=
  { pump := .start, received := [], unread := stream, closes, eof := false, writer := [],
    delivered := 0 }

/-- The bytes the writer has accepted. -/
def accepted (d : Direction) : Bytes :=
  d.writer.flatMap fun
    | .wrote bytes => bytes
    | .shutdown => []

section Pump

variable (idleTimeout : Nat) (clock : ActivityClock) (now : Nat)

/-- Top of the loop of `read_with_idle`. -/
def readWithIdle (d : Direction) : Direction :=
  let remaining := clock.remaining idleTimeout now
  if remaining = 0 then { d with pump := .returned (.error .idle) }
  else { d with pump := .reading (now + remaining) }

/-- Top of the loop of `write_all_with_idle`. When all is written the pump reads again. -/
def writeAllWithIdle (d : Direction) (data : Bytes) : Direction :=
  if data = [] then d.readWithIdle idleTimeout clock now
  else
    let remaining := clock.remaining idleTimeout now
    if remaining = 0 then { d with pump := .returned (.error .idle) }
    else { d with pump := .writing data (now + remaining) }

/-- A read returned `n` bytes. -/
def afterRead (d : Direction) (n : Nat) : Option (ActivityClock × Direction) :=
  if n = 0 then
    -- a reader returns no bytes only at the end of its stream
    if d.unread = [] ∧ d.closes then
      some (clock, { d with
        eof := true, writer := d.writer ++ [WriterOp.shutdown], pump := .closing (now + idleTimeout) })
    else none
  else if n ≤ relayBufferSize ∧ n ≤ d.unread.length then
    let clock := clock.touch now
    let chunk := d.unread.take n
    let d := { d with received := d.received ++ chunk, unread := d.unread.drop n }
    some (clock, d.writeAllWithIdle idleTimeout clock now chunk)
  else none

/-- A write of `data` accepted `n` bytes. -/
def afterWrite (d : Direction) (data : Bytes) (n : Nat) : Option (ActivityClock × Direction) :=
  if n = 0 then some (clock, { d with pump := .returned (.error (.write writeZeroError)) })
  else if n ≤ data.length then
    let clock := clock.touch now
    let d := { d with
      writer := d.writer ++ [WriterOp.wrote (data.take n)], delivered := min (d.delivered + n) u64Max }
    some (clock, d.writeAllWithIdle idleTimeout clock now (data.drop n))
  else none

/-- From one await point of `pump` to the next. `none` when the attempt cannot end so. -/
def resume (d : Direction) (outcome : Outcome) : Option (ActivityClock × Direction) :=
  match d.pump, outcome with
  | .start, .polled => some (clock, d.readWithIdle idleTimeout clock now)
  | .reading _, .read n => d.afterRead idleTimeout clock now n
  | .reading _, .readFailed e => some (clock, { d with pump := .returned (.error (.read e)) })
  | .reading deadline, .elapsed =>
    if deadline ≤ now then some (clock, d.readWithIdle idleTimeout clock now) else none
  | .writing data _, .wrote n => d.afterWrite idleTimeout clock now data n
  | .writing _ _, .writeFailed e => some (clock, { d with pump := .returned (.error (.write e)) })
  | .writing data deadline, .elapsed =>
    if deadline ≤ now then some (clock, d.writeAllWithIdle idleTimeout clock now data) else none
  | .closing _, .shutDown _ => some (clock, { d with pump := .returned (.ok ()) })
  | .closing deadline, .elapsed =>
    if deadline ≤ now then some (clock, { d with pump := .returned (.ok ()) }) else none
  | _, _ => none

variable {idleTimeout clock now}

/-- Everything a pump can do. -/
theorem resume_cases {d d' : Direction} {clock' : ActivityClock} {outcome : Outcome}
    (h : d.resume idleTimeout clock now outcome = some (clock', d')) :
    (d.pump = .start ∧ clock' = clock ∧ d' = d.readWithIdle idleTimeout clock now) ∨
    (∃ deadline, d.pump = .reading deadline ∧
      ((∃ n, outcome = .read n ∧ d.afterRead idleTimeout clock now n = some (clock', d')) ∨
        (∃ e, outcome = .readFailed e ∧ clock' = clock ∧
          d' = { d with pump := .returned (.error (.read e)) }) ∨
        (outcome = .elapsed ∧ deadline ≤ now ∧ clock' = clock ∧
          d' = d.readWithIdle idleTimeout clock now))) ∨
    (∃ data deadline, d.pump = .writing data deadline ∧
      ((∃ n, outcome = .wrote n ∧ d.afterWrite idleTimeout clock now data n = some (clock', d')) ∨
        (∃ e, outcome = .writeFailed e ∧ clock' = clock ∧
          d' = { d with pump := .returned (.error (.write e)) }) ∨
        (outcome = .elapsed ∧ deadline ≤ now ∧ clock' = clock ∧
          d' = d.writeAllWithIdle idleTimeout clock now data))) ∨
    (∃ deadline, d.pump = .closing deadline ∧ clock' = clock ∧
      d' = { d with pump := .returned (.ok ()) } ∧
      ((∃ result, outcome = .shutDown result) ∨ outcome = .elapsed ∧ deadline ≤ now)) := by
  have hpair : ∀ {x : ActivityClock × Direction}, some x = some (clock', d') →
      clock' = x.1 ∧ d' = x.2 := by
    intro x hx
    rw [Option.some.inj hx]
    exact ⟨rfl, rfl⟩
  cases hp : d.pump with
  | start =>
    cases outcome <;> simp only [resume, hp, reduceCtorEq] at h
    obtain ⟨hc, hd⟩ := hpair h
    exact .inl ⟨rfl, hc, hd⟩
  | reading deadline =>
    refine .inr (.inl ⟨deadline, rfl, ?_⟩)
    cases outcome <;> simp only [resume, hp, reduceCtorEq] at h
    case read n => exact .inl ⟨n, rfl, h⟩
    case readFailed e =>
      obtain ⟨hc, hd⟩ := hpair h
      exact .inr (.inl ⟨e, rfl, hc, hd⟩)
    case elapsed =>
      split at h
      · next hdue =>
        obtain ⟨hc, hd⟩ := hpair h
        exact .inr (.inr ⟨rfl, hdue, hc, hd⟩)
      · simp at h
  | writing data deadline =>
    refine .inr (.inr (.inl ⟨data, deadline, rfl, ?_⟩))
    cases outcome <;> simp only [resume, hp, reduceCtorEq] at h
    case wrote n => exact .inl ⟨n, rfl, h⟩
    case writeFailed e =>
      obtain ⟨hc, hd⟩ := hpair h
      exact .inr (.inl ⟨e, rfl, hc, hd⟩)
    case elapsed =>
      split at h
      · next hdue =>
        obtain ⟨hc, hd⟩ := hpair h
        exact .inr (.inr ⟨rfl, hdue, hc, hd⟩)
      · simp at h
  | closing deadline =>
    refine .inr (.inr (.inr ⟨deadline, rfl, ?_⟩))
    cases outcome <;> simp only [resume, hp, reduceCtorEq] at h
    case shutDown result =>
      obtain ⟨hc, hd⟩ := hpair h
      exact ⟨hc, hd, .inl ⟨result, rfl⟩⟩
    case elapsed =>
      split at h
      · next hdue =>
        obtain ⟨hc, hd⟩ := hpair h
        exact ⟨hc, hd, .inr ⟨rfl, hdue⟩⟩
      · simp at h
  | returned result =>
    cases outcome <;> simp [resume, hp] at h

end Pump

end Direction

/-! ## Both directions -/

/-- Bytes delivered by each direction. -/
structure RelayCounters where
  clientToTarget : Nat
  targetToClient : Nat
  deriving DecidableEq, Repr

/-- How a relay ended. -/
inductive RelayEnd where
  | completed
  | idleTimeout
  | clientError (error : IoError)
  | targetError (error : IoError)
  deriving DecidableEq, Repr

inductive Side where
  | upload
  | download
  deriving DecidableEq, Repr

namespace Side

/-- The end that a failed read of this pump is about. -/
def readError : Side → IoError → RelayEnd
  | .upload => .clientError
  | .download => .targetError

def writeError : Side → IoError → RelayEnd
  | .upload => .targetError
  | .download => .clientError

def other : Side → Side
  | .upload => .download
  | .download => .upload

end Side

inductive RelayStatus where
  | running
  | ended (result : RelayEnd)
  /-- The future was dropped at an await point. -/
  | dropped
  deriving DecidableEq, Repr

structure RelayState where
  idleTimeout : Nat
  now : Nat
  clock : ActivityClock
  upload : Direction
  download : Direction
  uploadDone : Bool
  downloadDone : Bool
  status : RelayStatus
  deriving DecidableEq, Repr

inductive RelayEvent where
  | pump (side : Side) (now : Nat) (outcome : Outcome)
  | drop
  deriving DecidableEq, Repr

namespace RelayState

/-- `relay` before its first poll. -/
def new (idleTimeout now : Nat) (upload download : Direction) : RelayState :=
  { idleTimeout, now, clock := .new now, upload, download, uploadDone := false,
    downloadDone := false, status := .running }

def direction (s : RelayState) : Side → Direction
  | .upload => s.upload
  | .download => s.download

def setDirection (s : RelayState) (side : Side) (d : Direction) : RelayState :=
  match side with
  | .upload => { s with upload := d }
  | .download => { s with download := d }

def isDone (s : RelayState) : Side → Bool
  | .upload => s.uploadDone
  | .download => s.downloadDone

def setDone (s : RelayState) : Side → RelayState
  | .upload => { s with uploadDone := true }
  | .download => { s with downloadDone := true }

def counters (s : RelayState) : RelayCounters :=
  { clientToTarget := s.upload.delivered, targetToClient := s.download.delivered }

/-- The arm of `select!` for one pump, and the loop condition after it. -/
def afterPoll (s : RelayState) (side : Side) : RelayState :=
  match (s.direction side).pump with
  | .returned (.ok ()) =>
    let s := s.setDone side
    if s.uploadDone && s.downloadDone then { s with status := .ended .completed } else s
  | .returned (.error .idle) => { s with status := .ended .idleTimeout }
  | .returned (.error (.read e)) => { s with status := .ended (side.readError e) }
  | .returned (.error (.write e)) => { s with status := .ended (side.writeError e) }
  | _ => s

/-- One pump is polled and its attempt has ended, or the relay is dropped. -/
def step (s : RelayState) (event : RelayEvent) : Option RelayState :=
  match s.status, event with
  | .running, .pump side now outcome =>
    if s.isDone side = false ∧ s.now ≤ now then
      ((s.direction side).resume s.idleTimeout s.clock now outcome).map fun (clock, d) =>
        ({ s with now, clock }.setDirection side d).afterPoll side
    else none
  | .running, .drop => some { s with status := .dropped }
  | _, _ => none

@[simp] theorem direction_setDirection (s : RelayState) (side : Side) (d : Direction) :
    (s.setDirection side d).direction side = d := by
  cases side <;> rfl

theorem direction_setDirection_of_ne (s : RelayState) {side other : Side} (d : Direction)
    (h : other ≠ side) : (s.setDirection side d).direction other = s.direction other := by
  cases side <;> cases other <;> first | rfl | exact absurd rfl h

/-- The loop of `relay` does not touch the pumps. -/
@[simp] theorem direction_afterPoll (s : RelayState) (side other : Side) :
    (s.afterPoll side).direction other = s.direction other := by
  unfold afterPoll
  split
  · cases side <;> cases other <;> dsimp only [setDone] <;> split <;> rfl
  all_goals cases other <;> rfl

/-- Nor does it touch the time. -/
theorem afterPoll_frame (s : RelayState) (side : Side) :
    (s.afterPoll side).now = s.now ∧ (s.afterPoll side).clock = s.clock ∧
      (s.afterPoll side).idleTimeout = s.idleTimeout := by
  unfold afterPoll
  split
  · cases side <;> dsimp only [setDone] <;> split <;> exact ⟨rfl, rfl, rfl⟩
  all_goals exact ⟨rfl, rfl, rfl⟩

/-- How the relay goes on after a poll. -/
theorem status_afterPoll_eq {s : RelayState} (side : Side) (h : s.status = .running) :
    (s.afterPoll side).status =
      match (s.direction side).pump with
      | .returned (.ok ()) => if s.isDone side.other then .ended .completed else .running
      | .returned (.error .idle) => .ended .idleTimeout
      | .returned (.error (.read e)) => .ended (side.readError e)
      | .returned (.error (.write e)) => .ended (side.writeError e)
      | _ => .running := by
  unfold afterPoll
  split
  · cases side
    · by_cases hd : s.downloadDone <;> simp [setDone, isDone, Side.other, hd, h]
    · by_cases hd : s.uploadDone <;> simp [setDone, isDone, Side.other, hd, h]
  · rfl
  · rfl
  · rfl
  · exact h

/-- Everything the relay can do. -/
theorem step_cases {s s' : RelayState} {event : RelayEvent} (h : s.step event = some s') :
    s.status = .running ∧
    ((event = .drop ∧ s' = { s with status := .dropped }) ∨
      ∃ side now outcome clock d, event = .pump side now outcome ∧ s.isDone side = false ∧
        s.now ≤ now ∧
        (s.direction side).resume s.idleTimeout s.clock now outcome = some (clock, d) ∧
        s' = ({ s with now, clock }.setDirection side d).afterPoll side) := by
  unfold step at h
  split at h
  · next side now outcome hrun =>
    refine ⟨hrun, .inr ?_⟩
    split at h
    · next hc =>
      obtain ⟨⟨clock, d⟩, hr, hs⟩ := Option.map_eq_some_iff.mp h
      exact ⟨side, now, outcome, clock, d, rfl, hc.1, hc.2, hr, hs.symm⟩
    · simp at h
  · next hrun => exact ⟨hrun, .inl ⟨rfl, (Option.some.inj h).symm⟩⟩
  · simp at h

end RelayState

end SocksServer
