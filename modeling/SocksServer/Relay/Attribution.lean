import SocksServer.Relay.Integrity

/-!
# How a relay ends

`select!` polls whichever pump is ready, and a future that has returned must not be polled
again. The result of the relay is the first failure of either pump, blamed on the side whose
socket failed: the upload reads the client and writes the target, the download the other way.

* `Settled` : what is done has returned, and what is not done has not
* `relay_outcome` : the result of every run, from the I/O results of the run alone
-/

namespace SocksServer

open Infra

/-! ## What is observed -/

/-- A failure of a pump, named by the socket it is about. -/
inductive RelayFailure where
  | idle
  | client (error : IoError)
  | target (error : IoError)
  deriving DecidableEq, Repr

namespace RelayFailure

/-- What the relay returns for it. -/
def relayEnd : RelayFailure → RelayEnd
  | .idle => .idleTimeout
  | .client e => .clientError e
  | .target e => .targetError e

end RelayFailure

namespace RelayState

/-- The polled pump reports that the connection is idle. -/
def reportsIdle (s : RelayState) (side : Side) (now : Nat) (outcome : Outcome) : Bool :=
  match (s.direction side).resume s.idleTimeout s.clock now outcome with
  | some (_, d) => d.pump == .returned (.error .idle)
  | none => false

/-- The failure an event shows, if any. -/
def observed (s : RelayState) : RelayEvent → Option RelayFailure
  | .pump .upload _ (.readFailed e) => some (.client e)
  | .pump .upload _ (.writeFailed e) => some (.target e)
  | .pump .upload _ (.wrote 0) => some (.target writeZeroError)
  | .pump .download _ (.readFailed e) => some (.target e)
  | .pump .download _ (.writeFailed e) => some (.client e)
  | .pump .download _ (.wrote 0) => some (.client writeZeroError)
  | .pump side now outcome => if s.reportsIdle side now outcome then some .idle else none
  | .drop => none

/-- The first failure of a run. -/
def firstFailure (s : RelayState) : List RelayEvent → Option RelayFailure
  | [] => none
  | event :: events =>
    match s.observed event with
    | some failure => some failure
    | none => (s.step event).bind fun s => s.firstFailure events

end RelayState

/-! ## One pump -/

namespace Direction

variable {idleTimeout now : Nat} {clock clock' : ActivityClock} {d d' : Direction}
  {outcome : Outcome}

/-- A failed attempt is what the pump returns. -/
theorem resume_failed (h : d.resume idleTimeout clock now outcome = some (clock', d')) :
    (∀ e, outcome = .readFailed e → d'.pump = .returned (.error (.read e))) ∧
    (∀ e, outcome = .writeFailed e → d'.pump = .returned (.error (.write e))) ∧
    (outcome = .wrote 0 → d'.pump = .returned (.error (.write writeZeroError))) := by
  rcases resume_cases h with ⟨hp, -, rfl⟩ | ⟨deadline, hp, hcases⟩ |
    ⟨data, deadline, hp, hcases⟩ | ⟨deadline, hp, -, rfl, hcases⟩
  · refine ⟨?_, ?_, ?_⟩
    · rintro e rfl
      simp [resume, hp] at h
    · rintro e rfl
      simp [resume, hp] at h
    · rintro rfl
      simp [resume, hp] at h
  · rcases hcases with ⟨n, rfl, -⟩ | ⟨e, rfl, -, rfl⟩ | ⟨rfl, -, -, rfl⟩
    · simp
    · simp
    · simp
  · rcases hcases with ⟨n, rfl, hwrite⟩ | ⟨e, rfl, -, rfl⟩ | ⟨rfl, -, -, rfl⟩
    · refine ⟨by simp, by simp, ?_⟩
      intro hn
      cases hn
      simp only [afterWrite, if_true] at hwrite
      rw [← (Prod.mk.inj (Option.some.inj hwrite)).2]
    · simp
    · simp
  · rcases hcases with ⟨result, rfl⟩ | ⟨rfl, -⟩
    · simp
    · simp

/-- The only error the pump may have returned. -/
def OnlyIdle (d : Direction) : Prop := ∀ e, d.pump = .returned (.error e) → e = .idle

theorem onlyIdle_readWithIdle (d : Direction) :
    OnlyIdle (d.readWithIdle idleTimeout clock now) := by
  unfold readWithIdle
  dsimp only
  split
  · intro e h
    simpa [eq_comm] using h
  · intro e h
    simp at h

theorem onlyIdle_writeAllWithIdle (d : Direction) (data : Bytes) :
    OnlyIdle (d.writeAllWithIdle idleTimeout clock now data) := by
  unfold writeAllWithIdle
  split
  · exact onlyIdle_readWithIdle d
  · dsimp only
    split
    · intro e h
      simpa [eq_comm] using h
    · intro e h
      simp at h

/-- A pump that returned an error was idle, or its attempt had failed. -/
theorem failed_of_resume {e : PumpError}
    (h : d.resume idleTimeout clock now outcome = some (clock', d'))
    (he : d'.pump = .returned (.error e)) :
    e = .idle ∨ (∃ error, e = .read error ∧ outcome = .readFailed error) ∨
      (∃ error, e = .write error ∧
        (outcome = .writeFailed error ∨ outcome = .wrote 0 ∧ error = writeZeroError)) := by
  rcases resume_cases h with ⟨hp, -, rfl⟩ | ⟨deadline, hp, hcases⟩ |
    ⟨data, deadline, hp, hcases⟩ | ⟨deadline, hp, -, rfl, hcases⟩
  · exact .inl (onlyIdle_readWithIdle d e he)
  · rcases hcases with ⟨n, rfl, hread⟩ | ⟨error, rfl, -, rfl⟩ | ⟨rfl, -, -, rfl⟩
    · refine .inl ?_
      unfold afterRead at hread
      split at hread
      · split at hread
        · rw [← (Prod.mk.inj (Option.some.inj hread)).2] at he
          cases he
        · cases hread
      · split at hread
        · rw [← (Prod.mk.inj (Option.some.inj hread)).2] at he
          exact onlyIdle_writeAllWithIdle _ _ e he
        · cases hread
    · cases he
      exact .inr (.inl ⟨error, rfl, rfl⟩)
    · exact .inl (onlyIdle_readWithIdle d e he)
  · rcases hcases with ⟨n, rfl, hwrite⟩ | ⟨error, rfl, -, rfl⟩ | ⟨rfl, -, -, rfl⟩
    · unfold afterWrite at hwrite
      split at hwrite
      · next hn =>
        subst hn
        rw [← (Prod.mk.inj (Option.some.inj hwrite)).2] at he
        cases he
        exact .inr (.inr ⟨writeZeroError, rfl, .inr ⟨rfl, rfl⟩⟩)
      · split at hwrite
        · rw [← (Prod.mk.inj (Option.some.inj hwrite)).2] at he
          exact .inl (onlyIdle_writeAllWithIdle _ _ e he)
        · cases hwrite
    · cases he
      exact .inr (.inr ⟨error, rfl, .inl rfl⟩)
    · exact .inl (onlyIdle_writeAllWithIdle _ _ e he)
  · cases he

end Direction

/-! ## One step -/

namespace Side

/-- The failure a pump of this side reports with `e`. -/
def blame : Side → PumpError → RelayFailure
  | _, .idle => .idle
  | .upload, .read e => .client e
  | .upload, .write e => .target e
  | .download, .read e => .target e
  | .download, .write e => .client e

end Side

namespace RelayState

variable {s s' : RelayState} {event : RelayEvent}

/-- What is observed is what the polled pump returns. -/
theorem observed_eq {side : Side} {now : Nat} {outcome : Outcome} {clock : ActivityClock}
    {d : Direction} (h : (s.direction side).resume s.idleTimeout s.clock now outcome =
      some (clock, d)) :
    s.observed (.pump side now outcome) =
      match d.pump with
      | .returned (.error e) => some (side.blame e)
      | _ => none := by
  obtain ⟨hread, hwrite, hzero⟩ := Direction.resume_failed h
  -- every other outcome leaves `idle` as the only error
  have hidle : (∀ e, outcome ≠ .readFailed e) → (∀ e, outcome ≠ .writeFailed e) →
      outcome ≠ .wrote 0 →
      (if s.reportsIdle side now outcome then some RelayFailure.idle else none) =
        match d.pump with
        | .returned (.error e) => some (side.blame e)
        | _ => none := by
    intro hnr hnw hnz
    simp only [reportsIdle, h]
    split
    · next hi =>
      rw [eq_of_beq hi]
      cases side <;> rfl
    · next hi =>
      split
      · next e hp =>
        rcases Direction.failed_of_resume h hp with rfl | ⟨error, -, ho⟩ | ⟨error, -, ho | ⟨ho, -⟩⟩
        · exact absurd (beq_of_eq hp) hi
        · exact absurd ho (hnr error)
        · exact absurd ho (hnw error)
        · exact absurd ho hnz
      · rfl
  cases outcome with
  | readFailed e =>
    rw [hread e rfl]
    cases side <;> rfl
  | writeFailed e =>
    rw [hwrite e rfl]
    cases side <;> rfl
  | wrote n =>
    cases n with
    | zero =>
      rw [hzero rfl]
      cases side <;> rfl
    | succ n =>
      rw [← hidle (by simp) (by simp) (by simp)]
      cases side <;> rfl
  | polled =>
    rw [← hidle (by simp) (by simp) (by simp)]
    cases side <;> rfl
  | read n =>
    rw [← hidle (by simp) (by simp) (by simp)]
    cases side <;> rfl
  | shutDown result =>
    rw [← hidle (by simp) (by simp) (by simp)]
    cases side <;> rfl
  | elapsed =>
    rw [← hidle (by simp) (by simp) (by simp)]
    cases side <;> rfl

/-- The relay ends with the failure it observes. -/
theorem step_of_observed {failure : RelayFailure} (hs : s.step event = some s')
    (ho : s.observed event = some failure) :
    s'.status = .ended failure.relayEnd ∧
      ∃ side e, (s'.direction side).pump = .returned (.error e) := by
  obtain ⟨hrun, ⟨rfl, -⟩ | ⟨side, now, outcome, clock, d, rfl, -, -, hr, rfl⟩⟩ := step_cases hs
  · cases ho
  have hstatus : ({ s with now, clock }.setDirection side d).status = .running := by
    cases side <;> exact hrun
  rw [observed_eq hr] at ho
  split at ho
  · next e hp =>
    rw [← Option.some.inj ho, status_afterPoll_eq side hstatus]
    refine ⟨?_, side, e, ?_⟩
    · rw [direction_setDirection, hp]
      cases e <;> cases side <;> rfl
    · rw [direction_afterPoll, direction_setDirection, hp]
  · cases ho

/-- Without one it goes on, is dropped or has completed. -/
theorem step_of_not_observed (hs : s.step event = some s') (ho : s.observed event = none) :
    s'.status = .running ∨ s'.status = .dropped ∨ s'.status = .ended .completed := by
  obtain ⟨hrun, ⟨rfl, rfl⟩ | ⟨side, now, outcome, clock, d, rfl, -, -, hr, rfl⟩⟩ := step_cases hs
  · exact .inr (.inl rfl)
  have hstatus : ({ s with now, clock }.setDirection side d).status = .running := by
    cases side <;> exact hrun
  rw [observed_eq hr] at ho
  rw [status_afterPoll_eq side hstatus, direction_setDirection]
  split
  · split
    · exact .inr (.inr rfl)
    · exact .inl rfl
  · next hp => simp [hp] at ho
  · next hp => simp [hp] at ho
  · next hp => simp [hp] at ho
  · exact .inl rfl

/-! ## The loop -/

/-- While the relay runs, a branch of `select!` is enabled, and no enabled branch polls a pump
that has returned. -/
structure Settled (s : RelayState) : Prop where
  enabled : s.status = .running → ∃ side, s.isDone side = false
  waiting : s.status = .running → ∀ side, s.isDone side = false →
    ∀ result, (s.direction side).pump ≠ .returned result

theorem settled_new (idleTimeout now : Nat) (upload download : Direction)
    (hup : upload.pump = .start) (hdown : download.pump = .start) :
    Settled (new idleTimeout now upload download) where
  enabled _ := ⟨.upload, rfl⟩
  waiting _ side _ result h := by
    cases side
    · rw [direction, new, hup] at h
      cases h
    · rw [direction, new, hdown] at h
      cases h

theorem Settled.step (h : s.Settled) (hs : s.step event = some s') : s'.Settled := by
  obtain ⟨hrun, ⟨-, rfl⟩ | ⟨side, now, outcome, clock, d, rfl, hnot, -, hr, rfl⟩⟩ := step_cases hs
  · exact ⟨fun hc => by simp at hc, fun hc => by simp at hc⟩
  have hstatus : ({ s with now, clock }.setDirection side d).status = .running := by
    cases side <;> exact hrun
  have hdone : ∀ x, ({ s with now, clock }.setDirection side d).isDone x = s.isDone x := by
    intro x
    cases side <;> cases x <;> rfl
  have hnext := status_afterPoll_eq side hstatus
  rw [direction_setDirection, hdone] at hnext
  have hafter : ∀ x, (({ s with now, clock }.setDirection side d).afterPoll side).isDone x = true ↔
      s.isDone x = true ∨ x = side ∧ d.pump = .returned (.ok ()) := by
    intro x
    rw [isDone_afterPoll, hdone, direction_setDirection]
  refine ⟨?_, ?_⟩
  · intro hrun'
    by_cases hp : d.pump = .returned (.ok ())
    · -- this pump is done, so the other one is not
      refine ⟨side.other, Bool.eq_false_iff.mpr ?_⟩
      intro hd
      rcases (hafter _).mp hd with hother | ⟨hother, -⟩
      · rw [hp] at hnext
        simp only [hother, if_true] at hnext
        rw [hnext] at hrun'
        cases hrun'
      · cases side <;> cases hother
    · refine ⟨side, Bool.eq_false_iff.mpr ?_⟩
      intro hd
      rcases (hafter side).mp hd with hwas | ⟨-, hok⟩
      · rw [hnot] at hwas
        cases hwas
      · exact hp hok
  · intro hrun' x hx result
    rw [direction_afterPoll]
    have hx' : ¬(s.isDone x = true ∨ x = side ∧ d.pump = .returned (.ok ())) := by
      rw [← hafter, hx]
      simp
    by_cases hside : x = side
    · subst hside
      rw [direction_setDirection]
      intro hp
      rw [hp] at hnext
      rcases result with (_ | _ | _) | ⟨⟨⟩⟩
      · rw [hnext] at hrun'; cases hrun'
      · rw [hnext] at hrun'; cases hrun'
      · rw [hnext] at hrun'; cases hrun'
      · exact hx' (.inr ⟨rfl, hp⟩)
    · rw [direction_setDirection_of_ne _ _ hside]
      have hwas : s.isDone x = false := Bool.eq_false_iff.mpr fun hd => hx' (.inl hd)
      have hwait := h.waiting hrun x hwas result
      cases x
      · exact hwait
      · exact hwait

/-! ## Every run -/

theorem firstFailure_concat {s₀ : RelayState} {events : List RelayEvent}
    (h : run RelayState.step s₀ events = some s) :
    s₀.firstFailure (events ++ [event]) =
      (s₀.firstFailure events).or (s.observed event) := by
  induction events generalizing s₀ with
  | nil =>
    rw [run_nil] at h
    rw [Option.some.inj h, List.nil_append, firstFailure, firstFailure, Option.none_or]
    cases ho : s.observed event with
    | none => cases s.step event <;> simp [firstFailure]
    | some failure => rfl
  | cons e events ih =>
    obtain ⟨mid, hmid, hrest⟩ := run_cons h
    rw [List.cons_append, firstFailure, firstFailure]
    cases ho : s₀.observed e with
    | some failure => rfl
    | none =>
      simp only [hmid, Option.bind_some]
      exact ih hrest

/-- What the first failure of a run says of the state it leads to. -/
structure Attributed (s₀ : RelayState) (events : List RelayEvent) (s : RelayState) : Prop where
  run_eq : run RelayState.step s₀ events = some s
  failed : ∀ failure, s₀.firstFailure events = some failure →
    s.status = .ended failure.relayEnd ∧
      ∃ side e, (s.direction side).pump = .returned (.error e)
  not_failed : s₀.firstFailure events = none →
    s.status = .running ∨ s.status = .dropped ∨ s.status = .ended .completed

theorem Attributed.step {s₀ : RelayState} {events : List RelayEvent}
    (h : Attributed s₀ events s) (hs : s.step event = some s') :
    Attributed s₀ (events ++ [event]) s' := by
  have hconcat := @firstFailure_concat s event s₀ events h.run_eq
  -- the relay still runs, so nothing has failed yet
  have hnone : s₀.firstFailure events = none := by
    cases hf : s₀.firstFailure events with
    | none => rfl
    | some failure =>
      have hrun := (step_cases hs).1
      rw [(h.failed failure hf).1] at hrun
      cases hrun
  rw [hnone, Option.none_or] at hconcat
  refine ⟨run_concat.mpr ⟨s, h.run_eq, hs⟩, ?_, ?_⟩
  · intro failure hf
    exact step_of_observed hs (hconcat ▸ hf)
  · intro hf
    exact step_of_not_observed hs (hconcat ▸ hf)

theorem relayEnd_injective {f g : RelayFailure} (h : f.relayEnd = g.relayEnd) : f = g := by
  cases f <;> cases g <;> simp [RelayFailure.relayEnd] at h ⊢
  · exact h
  · exact h

/-- A relay ends with a failure exactly when it is the first one. -/
theorem Attributed.status_iff {s₀ : RelayState} {events : List RelayEvent}
    (h : Attributed s₀ events s) (failure : RelayFailure) :
    s.status = .ended failure.relayEnd ↔ s₀.firstFailure events = some failure := by
  constructor
  · intro hstatus
    cases hf : s₀.firstFailure events with
    | some first =>
      have hfirst := (h.failed first hf).1
      rw [hstatus] at hfirst
      rw [relayEnd_injective (RelayStatus.ended.inj hfirst)]
    | none =>
      rcases h.not_failed hf with hs | hs | hs
      · rw [hstatus] at hs
        cases hs
      · rw [hstatus] at hs
        cases hs
      · rw [hstatus] at hs
        cases failure <;> cases hs
  · intro hf
    exact (h.failed failure hf).1

end RelayState

/--
**The result of a relay is its first failure, blamed on the socket that failed.**

In every run, whichever pump moves when: while the relay runs a branch of `select!` is enabled
and every pump of an enabled branch can be polled; a relay that returned has completed exactly
when both readers reached their end; the other results are those of the first failure observed;
and that failure is the last event of the run.
-/
theorem relay_outcome (idleTimeout start : Nat) (stream : Side → Bytes) (closes : Side → Bool)
    (events : List RelayEvent) (s : RelayState) :
    let s₀ : RelayState := .new idleTimeout start (.new (stream .upload) (closes .upload))
      (.new (stream .download) (closes .download))
    run RelayState.step s₀ events = some s →
    (s.status = .running → (∃ side, s.isDone side = false) ∧
      ∀ side, s.isDone side = false → ∀ result, (s.direction side).pump ≠ .returned result) ∧
    (∀ result, s.status = .ended result →
      (result = .completed ↔ ∀ side, (s.direction side).eof = true)) ∧
    (s.status = .ended .idleTimeout ↔ s₀.firstFailure events = some .idle) ∧
    (∀ e, s.status = .ended (.clientError e) ↔ s₀.firstFailure events = some (.client e)) ∧
    (∀ e, s.status = .ended (.targetError e) ↔ s₀.firstFailure events = some (.target e)) ∧
    (∀ before after, events = before ++ after → s₀.firstFailure before ≠ none → after = []) := by
  intro s₀ h
  have hinit : RelayState.Attributed s₀ [] s₀ := by
    refine ⟨rfl, ?_, fun _ => .inl rfl⟩
    intro _ hf
    cases hf
  have hattr : RelayState.Attributed s₀ events s :=
    run_history hinit (fun _ _ _ _ hi he => hi.step he) h
  have hsettled : s.Settled :=
    run_invariant (fun _ _ _ hi he => RelayState.Settled.step hi he)
      (RelayState.settled_new idleTimeout start _ _ rfl rfl) h
  have hintact : s.Intact stream :=
    run_invariant (fun _ _ _ hi he => RelayState.Intact.step hi he)
      (RelayState.intact_new idleTimeout start stream closes) h
  refine ⟨fun hrun => ⟨hsettled.enabled hrun, hsettled.waiting hrun⟩, ?_,
    hattr.status_iff .idle, fun e => hattr.status_iff (.client e),
    fun e => hattr.status_iff (.target e), ?_⟩
  · intro result hresult
    constructor
    · rintro rfl side
      have hp := hintact.done side (hintact.completed hresult side)
      have hclosed := hintact.directions side
      rw [Direction.Intact, hp] at hclosed
      exact hclosed.eof
    · intro heof
      cases hf : s₀.firstFailure events with
      | some failure =>
        -- a pump that failed has not seen the end of its stream
        obtain ⟨-, side, e, hp⟩ := hattr.failed failure hf
        have hmoving := hintact.directions side
        rw [Direction.Intact, hp] at hmoving
        obtain ⟨rest, hmoving⟩ := hmoving
        have hnot := hmoving.not_eof
        rw [heof side] at hnot
        cases hnot
      | none =>
        rcases hattr.not_failed hf with hs | hs | hs
        · rw [hresult] at hs
          cases hs
        · rw [hresult] at hs
          cases hs
        · rw [hresult] at hs
          exact RelayStatus.ended.inj hs
  · rintro before after rfl hfailed
    obtain ⟨mid, hbefore, hafter⟩ := run_append.mp h
    obtain ⟨failure, hf⟩ := Option.ne_none_iff_exists'.mp hfailed
    have hmid : RelayState.Attributed s₀ before mid :=
      run_history hinit (fun _ _ _ _ hi he => hi.step he) hbefore
    cases after with
    | nil => rfl
    | cons event after =>
      obtain ⟨next, hnext, -⟩ := run_cons hafter
      have hrun := (RelayState.step_cases hnext).1
      rw [(hmid.failed failure hf).1] at hrun
      cases hrun

/-- The download is done, its shutdown failed, and then the target refuses the upload. -/
theorem relay_outcome_write_refused :
    let refused : IoError := ⟨.other 32, "broken pipe"⟩
    let events : List RelayEvent :=
      [.pump .download 0 .polled, .pump .upload 0 .polled, .pump .download 1 (.read 0),
        .pump .download 2 (.shutDown (.error refused)), .pump .upload 3 (.read 1),
        .pump .upload 4 (.writeFailed refused)]
    let stream : Side → Bytes := fun side => if side = .upload then [7] else []
    let s₀ : RelayState :=
      .new 10000000 0 (.new (stream .upload) true) (.new (stream .download) true)
    ∃ s, run RelayState.step s₀ events = some s ∧
      s₀.firstFailure events = some (.target refused) ∧
      s.status = .ended (.targetError refused) := by
  intro refused events stream s₀
  have hrun : (run RelayState.step s₀ events).map (·.status) =
      some (.ended (.targetError refused)) := by
    decide +kernel
  obtain ⟨s, hs, hstatus⟩ := Option.map_eq_some_iff.mp hrun
  have h := relay_outcome 10000000 0 stream (fun _ => true) events s hs
  exact ⟨s, hs, (h.2.2.2.2.1 refused).mp hstatus, hstatus⟩

end SocksServer
