import SocksServer.Infra.Wp

/-!
# Tasks with deadlines

A `Task` says at which points a timer can end it, not when. A `TimedTask` task also knows the
time: each point carries the deadlines of the scopes around it, and what follows a point may
depend on when it is left (that is where the next deadline comes from).

Timers never fire early. How late they may be is left open; `slack` bounds it where a result
needs a bound. Synchronous calls take no time.

* `TimedTask.bind`, `TimedTask.lift`, `TimedTask.within` — how timed tasks are built
* `TimedTask.State.step` — one event, at the time it happens
* `Erases` — a timed task does what an untimed one does
* `run_erases`, `run_timing` — both have the same runs, up to the times
-/

namespace Infra

/-- A task in time. `k` takes the time at which the point is left. -/
inductive TimedTask (S : Sig) (α : Type) : Type where
  | done (a : α)
  | read (n t : Nat) (due : Fin t → Option Nat)
    (k : Nat → Except IoError Bytes ⊕ Fin t → TimedTask S α)
  | write (bs : Bytes) (t : Nat) (due : Fin t → Option Nat)
    (k : Nat → Except IoError Unit ⊕ Fin t → TimedTask S α)
  | await (op : S.Op) (t : Nat) (due : Fin t → Option Nat)
    (k : Nat → S.Ret op ⊕ Fin t → TimedTask S α)
  | call (c : S.Call) (k : Nat → S.Res c → TimedTask S α)

namespace TimedTask

variable {S : Sig} {α β σ : Type}

/-! ## Building timed tasks -/

/-- `p`, which stands at time `now`, and then `f`. -/
def bind : TimedTask S α → Nat → (α → Nat → TimedTask S β) → TimedTask S β
  | .done a, now, f => f a now
  | .read n t due k, _, f => .read n t due fun now r => (k now r).bind now f
  | .write bs t due k, _, f => .write bs t due fun now r => (k now r).bind now f
  | .await op t due k, _, f => .await op t due fun now r => (k now r).bind now f
  | .call c k, _, f => .call c fun now r => (k now r).bind now f

/-- A task that sets no deadlines. -/
def lift : Task S α → TimedTask S α
  | .done a => .done a
  | .read n t k => .read n t (fun _ => none) fun _ r => lift (k r)
  | .write bs t k => .write bs t (fun _ => none) fun _ r => lift (k r)
  | .await op t k => .await op t (fun _ => none) fun _ r => lift (k r)
  | .call c k => .call c fun _ r => lift (k r)

/-- One more deadline, of the outermost scope. -/
def addDue {t : Nat} (due : Fin t → Option Nat) (deadline : Option Nat) (i : Fin (t + 1)) :
    Option Nat :=
  if h : i.val < t then due ⟨i.val, h⟩ else deadline

/--
Ends with `none` when the deadline has passed. Without a deadline it is cancelled from
outside, at any time.
-/
def within (deadline : Option Nat) : TimedTask S α → TimedTask S (Option α)
  | .done a => .done (some a)
  | .read n t due k => .read n (t + 1) (addDue due deadline) fun now r =>
    (Task.peel r).elim (.done none) fun r => (k now r).within deadline
  | .write bs t due k => .write bs (t + 1) (addDue due deadline) fun now r =>
    (Task.peel r).elim (.done none) fun r => (k now r).within deadline
  | .await op t due k => .await op (t + 1) (addDue due deadline) fun now r =>
    (Task.peel r).elim (.done none) fun r => (k now r).within deadline
  | .call c k => .call c fun now r => (k now r).within deadline

/-! ## Steps -/

/-- The timer of a deadline may fire. -/
def Due (deadline : Option Nat) (now : Nat) : Prop := ∀ d, deadline = some d → d ≤ now

instance (deadline : Option Nat) (now : Nat) : Decidable (Due deadline now) :=
  match deadline with
  | none => .isTrue (by simp [Due])
  | some d => decidable_of_iff (d ≤ now) (by simp [Due])

/-- The timer of a deadline is not late by more than `slack`, if there is a bound. -/
def InTime (slack deadline : Option Nat) (now : Nat) : Prop :=
  ∀ δ d, slack = some δ → deadline = some d → now ≤ d + δ

instance (slack deadline : Option Nat) (now : Nat) : Decidable (InTime slack deadline now) :=
  match slack, deadline with
  | some δ, some d => decidable_of_iff (now ≤ d + δ) (by simp [InTime])
  | none, _ => .isTrue (by simp [InTime])
  | some _, none => .isTrue (by simp [InTime])

/-- A task that was last moved at time `last` may stand where it is until `now`. -/
def MayStand (slack : Option Nat) (last now : Nat) : TimedTask S α → Prop
  | .done _ => True
  | .read _ _ due _ => ∀ i, InTime slack (due i) now
  | .write _ _ due _ => ∀ i, InTime slack (due i) now
  | .await _ _ due _ => ∀ i, InTime slack (due i) now
  | .call _ _ => now = last

instance (slack : Option Nat) (last now : Nat) (p : TimedTask S α) :
    Decidable (p.MayStand slack last now) :=
  match p with
  | .done _ => .isTrue trivial
  | .read _ _ due _ => inferInstanceAs (Decidable (∀ i, InTime slack (due i) now))
  | .write _ _ due _ => inferInstanceAs (Decidable (∀ i, InTime slack (due i) now))
  | .await _ _ due _ => inferInstanceAs (Decidable (∀ i, InTime slack (due i) now))
  | .call _ _ => inferInstanceAs (Decidable (now = last))

/-- Timer `i` fires. -/
def fire {ρ : Type} {t : Nat} (now : Nat) (due : Fin t → Option Nat)
    (k : Nat → ρ ⊕ Fin t → TimedTask S α) (i : Nat) : Option (TimedTask S α) :=
  if h : i < t then if Due (due ⟨i, h⟩) now then some (k now (.inr ⟨i, h⟩)) else none else none

theorem fire_eq_some {ρ : Type} {t now : Nat} {due : Fin t → Option Nat}
    {k : Nat → ρ ⊕ Fin t → TimedTask S α} {i : Nat} {p : TimedTask S α} :
    fire now due k i = some p ↔ ∃ h : i < t, Due (due ⟨i, h⟩) now ∧ k now (.inr ⟨i, h⟩) = p := by
  unfold fire
  by_cases h : i < t
  · by_cases hdue : Due (due ⟨i, h⟩) now
    · simp [h, hdue]
    · simp [h, hdue]
  · simp [h]

section Step

variable [DecidableEq S.Op] [DecidableEq S.Call]

/-- One event, at time `now`. -/
def step (now : Nat) : TimedTask S α → Task.Event S → Option (TimedTask S α)
  | .read n t due k, .received c =>
    if c ≠ [] ∧ c.length ≤ n then
      if c.length = n then some (k now (.inl (.ok c)))
      else some (.read (n - c.length) t due fun now r => k now (Task.prepend c r))
    else none
  | .read _ _ _ k, .readFailed e => some (k now (.inl (.error e)))
  | .read _ _ due k, .elapsed i => fire now due k i
  | .write bs t due k, .sent c =>
    if c ≠ [] ∧ c <+: bs then
      if c = bs then some (k now (.inl (.ok ()))) else some (.write (bs.drop c.length) t due k)
    else none
  | .write _ _ _ k, .writeFailed e => some (k now (.inl (.error e)))
  | .write _ _ due k, .elapsed i => fire now due k i
  | .await op _ _ k, .answered op' r =>
    if h : op' = op then some (k now (.inl (h ▸ r))) else none
  | .await _ _ due k, .elapsed i => fire now due k i
  | .call c k, .returned c' r => if h : c' = c then some (k now (h ▸ r)) else none
  | _, _ => none

/-- A timed task in its world, as it was left at time `last`. -/
structure State (S : Sig) (α σ : Type) where
  last : Nat
  task : TimedTask S α
  world : σ

/-- One event at the time it happens. -/
def State.step (slack : Option Nat) (W : World S σ) (s : State S α σ) (e : Nat × Task.Event S) :
    Option (State S α σ) :=
  if s.last ≤ e.1 ∧ s.task.MayStand slack s.last e.1 then
    (s.task.step e.1 e.2).bind fun task => (W.effect s.world e.2).map fun world =>
      { last := e.1, task, world }
  else none

end Step

/-! ## Erasure -/

/-- Without its deadlines and at any times, the timed task is the task `q`. -/
def Erases : TimedTask S α → Task S α → Prop
  | .done a, q => q = .done a
  | .read n t _ k, q => ∃ k', q = .read n t k' ∧ ∀ now r, (k now r).Erases (k' r)
  | .write bs t _ k, q => ∃ k', q = .write bs t k' ∧ ∀ now r, (k now r).Erases (k' r)
  | .await op t _ k, q => ∃ k', q = .await op t k' ∧ ∀ now r, (k now r).Erases (k' r)
  | .call c k, q => ∃ k', q = .call c k' ∧ ∀ now r, (k now r).Erases (k' r)

section Erases

variable {p : TimedTask S α} {q : Task S α}

theorem erases_lift (q : Task S α) : (lift q).Erases q := by
  induction q with
  | done a => rfl
  | read n t k ih => exact ⟨k, rfl, fun _ r => ih r⟩
  | write bs t k ih => exact ⟨k, rfl, fun _ r => ih r⟩
  | await op t k ih => exact ⟨k, rfl, fun _ r => ih r⟩
  | call c k ih => exact ⟨k, rfl, fun _ r => ih r⟩

theorem Erases.bind {f : α → Nat → TimedTask S β} {g : α → Task S β} (h : p.Erases q)
    (hf : ∀ a now, (f a now).Erases (g a)) (now : Nat) : (p.bind now f).Erases (q.bind g) := by
  induction p generalizing q now with
  | done a =>
    obtain rfl : q = .done a := h
    exact hf a now
  | read n t due k ih =>
    obtain ⟨k', rfl, hk⟩ := h
    exact ⟨_, rfl, fun now r => ih now r (hk now r) now⟩
  | write bs t due k ih =>
    obtain ⟨k', rfl, hk⟩ := h
    exact ⟨_, rfl, fun now r => ih now r (hk now r) now⟩
  | await op t due k ih =>
    obtain ⟨k', rfl, hk⟩ := h
    exact ⟨_, rfl, fun now r => ih now r (hk now r) now⟩
  | call c k ih =>
    obtain ⟨k', rfl, hk⟩ := h
    exact ⟨_, rfl, fun now r => ih now r (hk now r) now⟩

/-- Plain code behind a timed task. -/
theorem Erases.bind_done (h : p.Erases q) (g : α → β) (now : Nat) :
    (p.bind now fun a _ => .done (g a)).Erases (q.bind fun a => .done (g a)) :=
  h.bind (f := fun a _ => .done (g a)) (fun _ _ => rfl) now

/-- A deadline erases to a timer. -/
theorem Erases.within (h : p.Erases q) (deadline : Option Nat) :
    (p.within deadline).Erases q.timeout := by
  have hpeel : ∀ {ρ : Type} {t : Nat} {k : ρ ⊕ Fin t → TimedTask S (Option α)}
      {k' : ρ ⊕ Fin t → Task S (Option α)}, (∀ r, (k r).Erases (k' r)) →
      ∀ r : ρ ⊕ Fin (t + 1), ((Task.peel r).elim (.done none) k).Erases
        ((Task.peel r).elim (.done none) k') := by
    intro ρ t k k' hk r
    cases Task.peel r with
    | none => rfl
    | some r => exact hk r
  induction p generalizing q with
  | done a =>
    obtain rfl : q = .done a := h
    rfl
  | read n t due k ih =>
    obtain ⟨k', rfl, hk⟩ := h
    exact ⟨_, rfl, fun now r => hpeel (fun r => ih now r (hk now r)) r⟩
  | write bs t due k ih =>
    obtain ⟨k', rfl, hk⟩ := h
    exact ⟨_, rfl, fun now r => hpeel (fun r => ih now r (hk now r)) r⟩
  | await op t due k ih =>
    obtain ⟨k', rfl, hk⟩ := h
    exact ⟨_, rfl, fun now r => hpeel (fun r => ih now r (hk now r)) r⟩
  | call c k ih =>
    obtain ⟨k', rfl, hk⟩ := h
    exact ⟨_, rfl, fun now r => ih now r (hk now r)⟩

/-- What an untimed task does when timer `i` fires. -/
def fired {ρ : Type} {t : Nat} (k : ρ ⊕ Fin t → Task S α) (i : Nat) : Option (Task S α) :=
  if h : i < t then some (k (.inr ⟨i, h⟩)) else none

section Fire

variable {ρ : Type} {t i : Nat} {due : Fin t → Option Nat} {k : Nat → ρ ⊕ Fin t → TimedTask S α}
variable {k' : ρ ⊕ Fin t → Task S α}

/-- A timer that fires is one of the untimed task. -/
theorem erases_of_fire {now : Nat} {p' : TimedTask S α} (hk : ∀ now r, (k now r).Erases (k' r))
    (h : fire now due k i = some p') : ∃ q', fired k' i = some q' ∧ p'.Erases q' := by
  obtain ⟨hi, -, rfl⟩ := fire_eq_some.mp h
  exact ⟨_, dif_pos hi, hk now _⟩

/-- A time at which a timer with this deadline may fire. -/
theorem exists_due (deadline : Option Nat) (last : Nat) : ∃ now, last ≤ now ∧ Due deadline now := by
  cases deadline with
  | none => exact ⟨last, le_refl _, by simp [Due]⟩
  | some d => exact ⟨max last d, le_max_left _ _, by simp [Due]⟩

/-- A timer of the untimed task fires at the earliest time it is due. -/
theorem exists_fire (due : Fin t → Option Nat) {q' : Task S α}
    (hk : ∀ now r, (k now r).Erases (k' r))
    (h : fired k' i = some q') (last : Nat) :
    ∃ now, last ≤ now ∧ ∃ p', fire now due k i = some p' ∧ p'.Erases q' := by
  unfold fired at h
  split at h
  · next hi =>
    obtain ⟨now, hlast, hdue⟩ := exists_due (due ⟨i, hi⟩) last
    refine ⟨now, hlast, _, fire_eq_some.mpr ⟨hi, hdue, rfl⟩, ?_⟩
    rw [← Option.some.inj h]
    exact hk _ _
  · cases h

end Fire

theorem inTime_none (deadline : Option Nat) (now : Nat) : InTime none deadline now := by
  simp [InTime]

/-- Without a bound on how late timers are, a task may stand for any time where it waits. -/
theorem mayStand_last (p : TimedTask S α) (last : Nat) : p.MayStand none last last := by
  cases p with
  | done a => trivial
  | call c k => rfl
  | _ => exact fun i => inTime_none _ _

variable [DecidableEq S.Op] [DecidableEq S.Call]

/-- What a read does with a piece, in one formula. -/
theorem step_received_eq {n t : Nat} (k : Except IoError Bytes ⊕ Fin t → Task S α) {c : Bytes}
    (hne : c ≠ []) (hc : c.length ≤ n) :
    (Task.read n t k).step (.received c) =
      if c.length = n then some (k (.inl (.ok c)))
      else some (.read (n - c.length) t fun r => k (Task.prepend c r)) := by
  have hpos : 0 < c.length := List.length_pos_iff.mpr hne
  rw [Task.step, if_pos ⟨hne, hc⟩]
  by_cases hn : c.length = n
  · rw [if_pos hn, Task.feed_read k hn (by omega)]
  · rw [if_neg hn, Task.feed_read_of_lt k (by omega)]

/-- **An event that is no timer** does the same at any time. -/
theorem Erases.step_untimed {e : Task.Event S} (h : p.Erases q) (he : ∀ i, e ≠ .elapsed i)
    (now : Nat) : Option.Rel Erases (p.step now e) (q.step e) := by
  cases p with
  | done a =>
    obtain rfl : q = .done a := h
    cases e <;> exact .none
  | read n t due k =>
    obtain ⟨k', rfl, hk⟩ := h
    cases e with
    | received c =>
      by_cases hc : c ≠ [] ∧ c.length ≤ n
      · rw [step_received_eq k' hc.1 hc.2, TimedTask.step, if_pos hc]
        by_cases hn : c.length = n
        · rw [if_pos hn, if_pos hn]
          exact .some (hk now _)
        · rw [if_neg hn, if_neg hn]
          exact .some ⟨_, rfl, fun now r => hk now _⟩
      · rw [TimedTask.step, Task.step, if_neg hc, if_neg hc]
        exact .none
    | readFailed e => exact .some (hk now _)
    | elapsed i => exact absurd rfl (he i)
    | _ => exact .none
  | write bs t due k =>
    obtain ⟨k', rfl, hk⟩ := h
    cases e with
    | sent c =>
      by_cases hc : c ≠ [] ∧ c <+: bs
      · rw [TimedTask.step, Task.step, if_pos hc, if_pos hc]
        by_cases hall : c = bs
        · rw [if_pos hall, if_pos hall]
          exact .some (hk now _)
        · rw [if_neg hall, if_neg hall]
          exact .some ⟨k', rfl, hk⟩
      · rw [TimedTask.step, Task.step, if_neg hc, if_neg hc]
        exact .none
    | writeFailed e => exact .some (hk now _)
    | elapsed i => exact absurd rfl (he i)
    | _ => exact .none
  | await op t due k =>
    obtain ⟨k', rfl, hk⟩ := h
    cases e with
    | answered op' r =>
      by_cases hop : op' = op
      · subst hop
        rw [TimedTask.step, Task.step, dif_pos rfl, dif_pos rfl]
        exact .some (hk now _)
      · rw [TimedTask.step, Task.step, dif_neg hop, dif_neg hop]
        exact .none
    | elapsed i => exact absurd rfl (he i)
    | _ => exact .none
  | call c k =>
    obtain ⟨k', rfl, hk⟩ := h
    cases e with
    | returned c' r =>
      by_cases hc : c' = c
      · subst hc
        rw [TimedTask.step, Task.step, dif_pos rfl, dif_pos rfl]
        exact .some (hk now _)
      · rw [TimedTask.step, Task.step, dif_neg hc, dif_neg hc]
        exact .none
    | _ => exact .none

/-- **A timed step is an untimed step.** -/
theorem Erases.step {now : Nat} {e : Task.Event S} {p' : TimedTask S α} (h : p.Erases q)
    (hs : p.step now e = some p') : ∃ q', q.step e = some q' ∧ p'.Erases q' := by
  by_cases he : ∃ i, e = .elapsed i
  · obtain ⟨i, rfl⟩ := he
    cases p with
    | read n t due k | write bs t due k | await op t due k =>
      obtain ⟨k', rfl, hk⟩ := h
      exact erases_of_fire hk hs
    | _ => cases hs
  · have hboth := h.step_untimed (not_exists.mp he) now
    rw [hs] at hboth
    generalize q.step e = step at hboth
    cases hboth with
    | some herases => exact ⟨_, rfl, herases⟩

/-- **Every timed run is a run**, with the same events, result and world. -/
theorem run_erases {slack : Option Nat} {W : World S σ} {s s' : State S α σ}
    {es : List (Nat × Task.Event S)} (h : s.task.Erases q)
    (hr : run (State.step slack W) s es = some s') :
    ∃ q', run W.step (q, s.world) (es.map Prod.snd) = some (q', s'.world) ∧ s'.task.Erases q' := by
  induction es generalizing s q with
  | nil =>
    obtain rfl : s = s' := Option.some.inj hr
    exact ⟨q, rfl, h⟩
  | cons e es ih =>
    obtain ⟨mid, hstep, hrest⟩ := run_cons hr
    unfold State.step at hstep
    split at hstep
    · obtain ⟨task, htask, hmap⟩ := Option.bind_eq_some_iff.mp hstep
      obtain ⟨world, hworld, rfl⟩ := Option.map_eq_some_iff.mp hmap
      obtain ⟨q₁, hq₁, herases⟩ := h.step htask
      obtain ⟨q', hrun, hq'⟩ := ih herases hrest
      refine ⟨q', ?_, hq'⟩
      have hone : W.step (q, s.world) e.2 = some (q₁, world) := by
        simp only [World.step, hq₁, hworld, Option.bind_some, Option.map_some]
      simp only [List.map_cons, run, hone, Option.bind_some]
      exact hrun
    · simp at hstep

/-- **An untimed step can be timed**, at the earliest time it is due. -/
theorem Erases.exists_step {e : Task.Event S} {q' : Task S α} (h : p.Erases q)
    (hs : q.step e = some q') (last : Nat) :
    ∃ now, last ≤ now ∧ p.MayStand none last now ∧ ∃ p', p.step now e = some p' ∧ p'.Erases q' := by
  by_cases he : ∃ i, e = .elapsed i
  · obtain ⟨i, rfl⟩ := he
    cases p with
    | read n t due k | write bs t due k | await op t due k =>
      obtain ⟨k', rfl, hk⟩ := h
      obtain ⟨now, hlast, hfire⟩ := exists_fire due hk hs last
      exact ⟨now, hlast, fun i => inTime_none _ _, hfire⟩
    | done a =>
      obtain rfl : q = .done a := h
      cases hs
    | call c k =>
      obtain ⟨k', rfl, -⟩ := h
      cases hs
  · have hboth := h.step_untimed (not_exists.mp he) last
    rw [hs] at hboth
    generalize hstep : p.step last e = step at hboth
    cases hboth with
    | some herases => exact ⟨last, le_refl _, p.mayStand_last last, _, hstep, herases⟩

/-- **Every run has a timing**: its events can happen at some times. -/
theorem run_timing {W : World S σ} {s : State S α σ} {q' : Task S α} {w' : σ}
    {events : List (Task.Event S)} (h : s.task.Erases q)
    (hr : run W.step (q, s.world) events = some (q', w')) :
    ∃ es s', es.map Prod.snd = events ∧ run (State.step none W) s es = some s' ∧
      s'.world = w' ∧ s'.task.Erases q' := by
  induction events generalizing s q with
  | nil =>
    obtain ⟨rfl, rfl⟩ := Prod.mk.inj (Option.some.inj hr)
    exact ⟨[], s, rfl, rfl, rfl, h⟩
  | cons event events ih =>
    obtain ⟨⟨q₁, w₁⟩, hstep, hrest⟩ := run_cons hr
    obtain ⟨q₂, hq₂, hmap⟩ := Option.bind_eq_some_iff.mp hstep
    obtain ⟨w₂, hw₂, heq⟩ := Option.map_eq_some_iff.mp hmap
    obtain ⟨rfl, rfl⟩ := Prod.mk.inj heq
    obtain ⟨now, hlast, hstand, p', hp', herases⟩ := h.exists_step hq₂ s.last
    obtain ⟨es, s', hes, hrun, hw, hq⟩ := ih (s := ⟨now, p', w₂⟩) herases hrest
    refine ⟨(now, event) :: es, s', by simp [hes], ?_, hw, hq⟩
    have hone : State.step none W s (now, event) = some ⟨now, p', w₂⟩ := by
      have heffect : W.effect s.world event = some w₂ := hw₂
      simp only [State.step, if_pos (And.intro hlast hstand), hp', heffect, Option.bind_some,
        Option.map_some]
    simp only [run, hone, Option.bind_some]
    exact hrun

end Erases

end TimedTask

end Infra
