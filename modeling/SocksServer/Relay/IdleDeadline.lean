import SocksServer.Relay.Bidirectional

/-!
# The idle deadline

Both pumps read one clock, so a timer armed before the other direction moved a byte has to
be armed again when it fires. What that comes to is stated over the moments of progress of a
run, without the clock.

* `Timed` : the clock is the last progress in whole milliseconds, and every attempt in flight
  ends no later than the last progress plus the idle timeout
* `relay_idle_deadline` : what this says of every run

The code between two await points takes no time. `as_millis` stops at the largest `u64`, so
the clock stands still after 2⁶⁴ milliseconds, and only from then on progress is not seen.
-/

namespace SocksServer

open Infra

/-- `Duration::from_millis` -/
def durationFromMillis (n : Nat) : Nat := n * 1000000

/-! ## Progress -/

namespace RelayEvent

/-- When bytes were read or accepted: the moment. -/
def progress : RelayEvent → Option Nat
  | .pump _ now (.read n) => if 0 < n then some now else none
  | .pump _ now (.wrote n) => if 0 < n then some now else none
  | _ => none

end RelayEvent

def progressTimes (events : List RelayEvent) : List Nat := events.filterMap RelayEvent.progress

/-- The last progress, or the start of the relay before there is any. -/
def lastProgress (start : Nat) (events : List RelayEvent) : Nat :=
  (progressTimes events).getLast?.getD start

theorem lastProgress_concat (start : Nat) (events : List RelayEvent) (event : RelayEvent) :
    lastProgress start (events ++ [event]) =
      event.progress.getD (lastProgress start events) := by
  unfold lastProgress progressTimes
  rw [List.filterMap_append]
  cases hp : event.progress with
  | none => simp [hp]
  | some now => simp [hp]

/-! ## One pump -/

namespace PumpState

/-- The read or write in flight, if any, times out at `deadline`. -/
def Attempts (deadline : Nat) : PumpState → Prop
  | .reading at_ => at_ = deadline
  | .writing _ at_ => at_ = deadline
  | _ => False

end PumpState

namespace Direction

variable {idleTimeout now : Nat} {clock clock' : ActivityClock} {d d' : Direction}

/-- A pump that moves on at `now` under `clock` starts an attempt with the time that is left,
or reports that none is left. -/
def MovesOn (idleTimeout now : Nat) (clock : ActivityClock) (d : Direction) : Prop :=
  (∀ deadline, d.pump.Attempts deadline →
    0 < clock.remaining idleTimeout now ∧ deadline = now + clock.remaining idleTimeout now) ∧
  (d.pump = .returned (.error .idle) → clock.remaining idleTimeout now = 0)

theorem movesOn_readWithIdle (d : Direction) :
    MovesOn idleTimeout now clock (d.readWithIdle idleTimeout clock now) := by
  unfold readWithIdle
  dsimp only
  split
  · next hzero => exact ⟨fun _ h => h.elim, fun _ => hzero⟩
  · next hpos =>
    refine ⟨?_, by simp⟩
    rintro deadline rfl
    exact ⟨Nat.pos_of_ne_zero hpos, rfl⟩

theorem movesOn_writeAllWithIdle (d : Direction) (data : Bytes) :
    MovesOn idleTimeout now clock (d.writeAllWithIdle idleTimeout clock now data) := by
  unfold writeAllWithIdle
  split
  · exact movesOn_readWithIdle d
  · dsimp only
    split
    · next hzero => exact ⟨fun _ h => h.elim, fun _ => hzero⟩
    · next hpos =>
      refine ⟨?_, by simp⟩
      rintro deadline rfl
      exact ⟨Nat.pos_of_ne_zero hpos, rfl⟩

theorem polled_of_start {outcome : Outcome} (hp : d.pump = .start)
    (h : d.resume idleTimeout clock now outcome = some (clock', d')) : outcome = .polled := by
  cases outcome <;> simp [resume, hp] at h ⊢

theorem afterRead_movesOn {n : Nat} (side : Side)
    (h : d.afterRead idleTimeout clock now n = some (clock', d')) :
    clock' = (if ((RelayEvent.pump side now (.read n)).progress).isSome then clock.touch now
      else clock) ∧ MovesOn idleTimeout now clock' d' := by
  unfold afterRead at h
  split at h
  · next hn =>
    subst hn
    split at h
    · obtain ⟨rfl, rfl⟩ := Prod.mk.inj (Option.some.inj h)
      exact ⟨rfl, fun _ h => h.elim, by simp⟩
    · cases h
  · next hn =>
    split at h
    · obtain ⟨rfl, rfl⟩ := Prod.mk.inj (Option.some.inj h)
      refine ⟨?_, movesOn_writeAllWithIdle _ _⟩
      simp [RelayEvent.progress, Nat.pos_of_ne_zero hn]
    · cases h

theorem afterWrite_movesOn {data : Bytes} {n : Nat} (side : Side)
    (h : d.afterWrite idleTimeout clock now data n = some (clock', d')) :
    clock' = (if ((RelayEvent.pump side now (.wrote n)).progress).isSome then clock.touch now
      else clock) ∧ MovesOn idleTimeout now clock' d' := by
  unfold afterWrite at h
  split at h
  · next hn =>
    subst hn
    obtain ⟨rfl, rfl⟩ := Prod.mk.inj (Option.some.inj h)
    exact ⟨rfl, fun _ h => h.elim, by simp⟩
  · next hn =>
    split at h
    · obtain ⟨rfl, rfl⟩ := Prod.mk.inj (Option.some.inj h)
      refine ⟨?_, movesOn_writeAllWithIdle _ _⟩
      simp [RelayEvent.progress, Nat.pos_of_ne_zero hn]
    · cases h

/-- Progress touches the clock and nothing else does; the pump then moves on under it. -/
theorem resume_movesOn {outcome : Outcome} (side : Side)
    (h : d.resume idleTimeout clock now outcome = some (clock', d')) :
    clock' = (if ((RelayEvent.pump side now outcome).progress).isSome then clock.touch now
      else clock) ∧ MovesOn idleTimeout now clock' d' := by
  rcases resume_cases h with ⟨hp, rfl, rfl⟩ | ⟨deadline, hp, hcases⟩ |
    ⟨data, deadline, hp, hcases⟩ | ⟨deadline, hp, rfl, rfl, hcases⟩
  · rw [polled_of_start hp h]
    exact ⟨rfl, movesOn_readWithIdle d⟩
  · rcases hcases with ⟨n, rfl, hread⟩ | ⟨e, rfl, rfl, rfl⟩ | ⟨rfl, -, rfl, rfl⟩
    · exact afterRead_movesOn side hread
    · exact ⟨rfl, fun _ h => h.elim, by simp⟩
    · exact ⟨rfl, movesOn_readWithIdle d⟩
  · rcases hcases with ⟨n, rfl, hwrite⟩ | ⟨e, rfl, rfl, rfl⟩ | ⟨rfl, -, rfl, rfl⟩
    · exact afterWrite_movesOn side hwrite
    · exact ⟨rfl, fun _ h => h.elim, by simp⟩
    · exact ⟨rfl, movesOn_writeAllWithIdle d data⟩
  · -- a pump that closes its writer has nothing more to do
    rcases hcases with ⟨result, rfl⟩ | ⟨rfl, -⟩
    · exact ⟨rfl, fun _ h => h.elim, by simp⟩
    · exact ⟨rfl, fun _ h => h.elim, by simp⟩

end Direction

/-! ## The clock -/

namespace ActivityClock

/-- The clock of a relay started at `start` whose last progress was at `last`. -/
def ShowsLast (start last : Nat) (clock : ActivityClock) : Prop :=
  clock.origin = start ∧ clock.lastActivityMs = asMillis (last - start)

variable {start last now idleTimeout : Nat} {clock : ActivityClock}

/-- The clock is behind the last progress, by less than a millisecond while it runs. -/
theorem asMillis_bounds (duration : Nat) :
    durationFromMillis (asMillis duration) ≤ duration ∧
      (duration < durationFromMillis (2 ^ 64) →
        duration < durationFromMillis (asMillis duration) + durationFromMillis 1) := by
  unfold durationFromMillis asMillis u64Max
  omega

theorem ShowsLast.touch (h : clock.ShowsLast start last) (now : Nat) :
    (clock.touch now).ShowsLast start now :=
  ⟨h.1, by rw [ActivityClock.touch, h.1]⟩

/-- The time that is left never reaches beyond the last progress and the idle timeout. -/
theorem ShowsLast.add_remaining_le (h : clock.ShowsLast start last) (hstart : start ≤ last)
    (hnow : last ≤ now) (hpos : 0 < clock.remaining idleTimeout now) :
    now + clock.remaining idleTimeout now ≤ last + idleTimeout := by
  have hb := (asMillis_bounds (last - start)).1
  unfold remaining idleFor at *
  unfold durationFromMillis at hb
  rw [h.1, h.2] at *
  omega

/-- No time is left: all progress the clock can show is past. -/
theorem ShowsLast.of_remaining_zero (h : clock.ShowsLast start last) {t : Nat} (hlast : t ≤ last)
    (hnow : t ≤ now) (hzero : clock.remaining idleTimeout now = 0)
    (hfits : t < start + durationFromMillis (2 ^ 64)) :
    t + idleTimeout < now + durationFromMillis 1 := by
  have hb := (asMillis_bounds (t - start)).2 (by unfold durationFromMillis at *; omega)
  have hmono : asMillis (t - start) ≤ asMillis (last - start) := by
    unfold asMillis
    omega
  unfold remaining idleFor at hzero
  unfold durationFromMillis at hb ⊢
  rw [h.1, h.2] at hzero
  omega

end ActivityClock

/-! ## Every run -/

/-- The time of a relay started at `start`, after `events`. -/
structure Timed (idleTimeout start : Nat) (events : List RelayEvent) (s : RelayState) : Prop where
  idle_eq : s.idleTimeout = idleTimeout
  clock : s.clock.ShowsLast start (lastProgress start events)
  start_le : start ≤ lastProgress start events
  last_le : lastProgress start events ≤ s.now
  /-- The last progress is the latest one. -/
  times_le : ∀ t ∈ progressTimes events, t ≤ lastProgress start events
  armed : ∀ side deadline, (s.direction side).pump.Attempts deadline →
    deadline ≤ lastProgress start events + idleTimeout
  ended : s.status = .ended .idleTimeout → s.clock.remaining idleTimeout s.now = 0

namespace Timed

variable {idleTimeout start : Nat} {events : List RelayEvent} {s s' : RelayState}

theorem new (idleTimeout start : Nat) (upload download : Direction)
    (hup : upload.pump = .start) (hdown : download.pump = .start) :
    Timed idleTimeout start [] (.new idleTimeout start upload download) where
  idle_eq := rfl
  clock := ⟨rfl, by simp [RelayState.new, ActivityClock.new, lastProgress, progressTimes, asMillis]⟩
  start_le := le_refl start
  last_le := le_refl start
  times_le := by simp [progressTimes]
  armed side deadline h := by
    cases side
    · rw [RelayState.direction, RelayState.new, hup] at h
      exact h.elim
    · rw [RelayState.direction, RelayState.new, hdown] at h
      exact h.elim
  ended h := by simp [RelayState.new] at h

theorem progress_eq_now {side : Side} {now t : Nat} {outcome : Outcome}
    (h : (RelayEvent.pump side now outcome).progress = some t) : t = now := by
  cases outcome <;> simp [RelayEvent.progress] at h
  case read n => exact h.2.symm
  case wrote n => exact h.2.symm

/-- The last progress does not go back. -/
theorem last_le_concat (h : Timed idleTimeout start events s) (side : Side) {now : Nat}
    (outcome : Outcome) (hnow : s.now ≤ now) :
    lastProgress start events ≤ lastProgress start (events ++ [.pump side now outcome]) ∧
      lastProgress start (events ++ [.pump side now outcome]) ≤ now := by
  rw [lastProgress_concat]
  have hlast := h.last_le.trans hnow
  cases hp : (RelayEvent.pump side now outcome).progress with
  | none => exact ⟨le_refl _, hlast⟩
  | some t =>
    rw [progress_eq_now hp]
    exact ⟨hlast, le_refl now⟩

theorem clock_concat (h : Timed idleTimeout start events s) (side : Side) (now : Nat)
    (outcome : Outcome) :
    (if ((RelayEvent.pump side now outcome).progress).isSome then s.clock.touch now
      else s.clock).ShowsLast start (lastProgress start (events ++ [.pump side now outcome])) := by
  rw [lastProgress_concat]
  cases hp : (RelayEvent.pump side now outcome).progress with
  | none => exact h.clock
  | some t =>
    rw [progress_eq_now hp]
    exact h.clock.touch now

/-- A pump that is polled leaves a clock that shows the last progress, and moves on under it. -/
theorem resumed (h : Timed idleTimeout start events s) {side : Side} {now : Nat}
    {outcome : Outcome} {clock : ActivityClock} {d : Direction}
    (hr : (s.direction side).resume s.idleTimeout s.clock now outcome = some (clock, d)) :
    clock.ShowsLast start (lastProgress start (events ++ [.pump side now outcome])) ∧
      Direction.MovesOn idleTimeout now clock d := by
  rw [h.idle_eq] at hr
  obtain ⟨hclock, hmoves⟩ := Direction.resume_movesOn side hr
  refine ⟨?_, hmoves⟩
  rw [hclock]
  exact h.clock_concat side now outcome

/-- An attempt starts while there is time left, and takes no more than that. -/
theorem started (h : Timed idleTimeout start events s) {side : Side} {now deadline : Nat}
    {outcome : Outcome} (hs : s.step (.pump side now outcome) = some s')
    (hattempt : (s'.direction side).pump.Attempts deadline) :
    now < lastProgress start (events ++ [.pump side now outcome]) + idleTimeout ∧
      deadline ≤ lastProgress start (events ++ [.pump side now outcome]) + idleTimeout := by
  obtain ⟨-, ⟨he, -⟩ | ⟨side, now, outcome, clock, d, he, -, hnow, hr, rfl⟩⟩ :=
    RelayState.step_cases hs
  · cases he
  cases he
  rw [RelayState.direction_afterPoll, RelayState.direction_setDirection] at hattempt
  obtain ⟨hgrow, hle⟩ := h.last_le_concat side outcome hnow
  obtain ⟨hclock, hmoves⟩ := h.resumed hr
  obtain ⟨hpos, rfl⟩ := hmoves.1 deadline hattempt
  have hbound := hclock.add_remaining_le (h.start_le.trans hgrow) hle hpos
  exact ⟨by omega, hbound⟩

theorem step (h : Timed idleTimeout start events s) {event : RelayEvent}
    (hs : s.step event = some s') : Timed idleTimeout start (events ++ [event]) s' := by
  obtain ⟨hrun, ⟨rfl, rfl⟩ | ⟨side, now, outcome, clock, d, rfl, -, hnow, hr, rfl⟩⟩ :=
    RelayState.step_cases hs
  · have hlast : lastProgress start (events ++ [.drop]) = lastProgress start events :=
      lastProgress_concat start events .drop
    have htimes : progressTimes (events ++ [.drop]) = progressTimes events := by
      simp [progressTimes, RelayEvent.progress]
    refine ⟨h.idle_eq, ?_, ?_, ?_, ?_, ?_, fun hc => by simp at hc⟩
    · rw [hlast]
      exact h.clock
    · rw [hlast]
      exact h.start_le
    · rw [hlast]
      exact h.last_le
    · rw [hlast, htimes]
      exact h.times_le
    · rw [hlast]
      intro side
      cases side
      · exact h.armed .upload
      · exact h.armed .download
  obtain ⟨hgrow, hle⟩ := h.last_le_concat side outcome hnow
  obtain ⟨hclock, hmoves⟩ := h.resumed hr
  have hstart := h.start_le.trans hgrow
  obtain ⟨hnow_eq, hclock', hidle_eq⟩ :=
    RelayState.afterPoll_frame ({ s with now, clock }.setDirection side d) side
  have hframe : ({ s with now, clock }.setDirection side d).now = now ∧
      ({ s with now, clock }.setDirection side d).clock = clock ∧
      ({ s with now, clock }.setDirection side d).idleTimeout = s.idleTimeout ∧
      ({ s with now, clock }.setDirection side d).status = s.status := by
    cases side <;> exact ⟨rfl, rfl, rfl, rfl⟩
  obtain ⟨hnow', hclock'', hidle', hstatus⟩ := hframe
  refine ⟨?_, ?_, hstart, ?_, ?_, ?_, ?_⟩
  · rw [hidle_eq, hidle', h.idle_eq]
  · rw [hclock', hclock'']
    exact hclock
  · rw [hnow_eq, hnow']
    exact hle
  · intro t ht
    rw [progressTimes, List.filterMap_append] at ht
    rcases List.mem_append.mp ht with ht | ht
    · exact (h.times_le t ht).trans hgrow
    · obtain ⟨event, hmem, hp⟩ := List.mem_filterMap.mp ht
      rw [List.mem_singleton.mp hmem] at hp
      rw [lastProgress_concat, hp]
      exact le_refl t
  · intro other deadline hattempt
    by_cases ho : other = side
    · subst ho
      exact (h.started hs hattempt).2
    · -- the other pump has its timer still running
      rw [RelayState.direction_afterPoll, RelayState.direction_setDirection_of_ne _ _ ho]
        at hattempt
      have hold := h.armed other deadline (by cases other <;> exact hattempt)
      omega
  · intro hended
    rw [RelayState.status_afterPoll_eq side (hstatus.trans hrun),
      RelayState.direction_setDirection] at hended
    rw [hclock', hclock'', hnow_eq, hnow']
    refine hmoves.2 ?_
    split at hended
    · split at hended <;> simp at hended
    · next hp => exact hp
    · cases side <;> simp [Side.readError] at hended
    · cases side <;> simp [Side.writeError] at hended
    · simp at hended

end Timed

/--
**The idle deadline is shared.** After any events of any relay

* the clock shows the last progress of either direction, in whole milliseconds, up to the
  largest `u64`;
* a relay that gave up found all progress (of its first 2⁶⁴ milliseconds) at least the idle
  timeout in the past, less a millisecond;
* a read or write that starts does so, and times out, within the idle timeout of the last
  progress, and so does every one in flight.
-/
theorem relay_idle_deadline (idleTimeout start : Nat) (stream : Side → Bytes)
    (closes : Side → Bool) (events : List RelayEvent) (s : RelayState)
    (h : run RelayState.step (.new idleTimeout start (.new (stream .upload) (closes .upload))
      (.new (stream .download) (closes .download))) events = some s) :
    (s.clock.lastActivityMs = min ((lastProgress start events - start) / 1000000) (2 ^ 64 - 1) ∧
      ∀ t ∈ progressTimes events, t ≤ lastProgress start events) ∧
    (s.status = .ended .idleTimeout →
      ∀ t ∈ progressTimes events, t ≤ s.now ∧
        (t < start + durationFromMillis (2 ^ 64) →
          t + idleTimeout < s.now + durationFromMillis 1)) ∧
    (∀ side deadline, (s.direction side).pump.Attempts deadline →
      deadline ≤ lastProgress start events + idleTimeout) ∧
    ∀ side now outcome s', s.step (.pump side now outcome) = some s' →
      ∀ deadline, (s'.direction side).pump.Attempts deadline →
        now < lastProgress start (events ++ [.pump side now outcome]) + idleTimeout ∧
        deadline ≤ lastProgress start (events ++ [.pump side now outcome]) + idleTimeout := by
  have ht : Timed idleTimeout start events s :=
    run_history (Timed.new idleTimeout start _ _ rfl rfl) (fun _ _ _ _ hi he => hi.step he) h
  refine ⟨⟨ht.clock.2, ht.times_le⟩, ?_, ht.armed, ?_⟩
  · intro hended t hmem
    have hle := (ht.times_le t hmem).trans ht.last_le
    exact ⟨hle, ht.clock.of_remaining_zero (ht.times_le t hmem) hle (ht.ended hended)⟩
  · intro side now outcome s' hs deadline hattempt
    exact ht.started hs hattempt

/-- One-way traffic: the download keeps the upload from giving up at its first deadline. -/
theorem relay_idle_deadline_one_way :
    let events : List RelayEvent :=
      [.pump .upload 0 .polled, .pump .download 0 .polled, .pump .download 5500000 (.read 1),
        .pump .download 6500000 (.wrote 1), .pump .upload 10000000 .elapsed,
        .pump .upload 16000000 .elapsed]
    ∃ s, run RelayState.step (.new 10000000 0 (.new [] true) (.new [9] true)) events = some s ∧
      s.status = .ended .idleTimeout ∧
      ∀ t ∈ progressTimes events, t + 10000000 < s.now + durationFromMillis 1 := by
  intro events
  obtain ⟨s, hs⟩ := Option.isSome_iff_exists.mp (show (run RelayState.step
    (.new 10000000 0 (.new [] true) (.new [9] true)) events).isSome from by decide +kernel)
  have hstatus : (run RelayState.step (.new 10000000 0 (.new [] true) (.new [9] true))
      events).map (·.status) = some (.ended .idleTimeout) := by
    decide +kernel
  rw [hs] at hstatus
  have hend : s.status = .ended .idleTimeout := Option.some.inj hstatus
  have h := relay_idle_deadline 10000000 0 (fun side => if side = .upload then [] else [9])
    (fun _ => true) events s hs
  refine ⟨s, hs, hend, ?_⟩
  intro t ht
  have hsmall : ∀ t ∈ progressTimes events, t < 0 + durationFromMillis (2 ^ 64) := by
    decide +kernel
  exact (h.2.1 hend t ht).2 (hsmall t ht)

/--
After 2⁶⁴ milliseconds the clock stands still: here it misses progress by three milliseconds,
and the relay gives up three milliseconds before its idle timeout.
-/
theorem saturated_clock_misses_progress :
    let idleTimeout := durationFromMillis (2 ^ 64 + 5)
    let progress := durationFromMillis (2 ^ 64 + 2)
    let events : List RelayEvent :=
      [.pump .upload 0 .polled, .pump .upload progress (.read 1),
        .pump .upload (durationFromMillis (2 ^ 65 + 4)) .elapsed]
    ∃ s, run RelayState.step (.new idleTimeout 0 (.new [7] true) (.new [] true)) events = some s ∧
      s.clock.lastActivityMs ≠ (lastProgress 0 events - 0) / 1000000 ∧
      s.status = .ended .idleTimeout ∧
      progress ∈ progressTimes events ∧ progress ≤ s.now ∧
      s.now + durationFromMillis 1 < progress + idleTimeout := by
  intro idleTimeout progress events
  have hrun : (run RelayState.step (.new idleTimeout 0 (.new [7] true) (.new [] true))
      events).map (fun s => (s.clock.lastActivityMs, s.status, s.now)) =
        some (2 ^ 64 - 1, .ended .idleTimeout, durationFromMillis (2 ^ 65 + 4)) := by
    decide +kernel
  obtain ⟨s, hs, hfields⟩ := Option.map_eq_some_iff.mp hrun
  obtain ⟨hms, hrest⟩ := Prod.mk.inj hfields
  obtain ⟨hstatus, hnow⟩ := Prod.mk.inj hrest
  rw [hs]
  refine ⟨s, rfl, ?_, hstatus, ?_, ?_, ?_⟩
  · rw [hms]
    decide +kernel
  · decide +kernel
  · rw [hnow]
    decide +kernel
  · rw [hnow]
    decide +kernel

end SocksServer
