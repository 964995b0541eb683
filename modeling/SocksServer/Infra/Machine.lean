import Mathlib.Data.List.Induction
import Mathlib.Data.Option.Basic

/-!
# Runs of a state machine

A component is modelled by a function `step : σ → ε → Option σ`: an event either takes the
state to the next one or cannot happen. A run is a list of events that can all happen.

* `run_invariant` — what every step preserves holds after every run
* `run_history` — the same for a property of the state and of the events behind it
* `run_length_le` — what every step lowers bounds the number of steps
-/

namespace Infra

section Run

variable {σ ε : Type} (step : σ → ε → Option σ)

/-- The state after a list of events. `none` when one of them could not happen. -/
def run (s : σ) : List ε → Option σ
  | [] => some s
  | e :: es => (step s e).bind fun s => run s es

variable {step}

@[simp] theorem run_nil (s : σ) : run step s [] = some s := rfl

theorem run_cons {s s' : σ} {e : ε} {es : List ε} (h : run step s (e :: es) = some s') :
    ∃ mid, step s e = some mid ∧ run step mid es = some s' := Option.bind_eq_some_iff.mp h

/-- **Invariant rule.** -/
theorem run_invariant {I : σ → Prop} (hstep : ∀ s e s', I s → step s e = some s' → I s')
    {s s' : σ} {es : List ε} (hs : I s) (h : run step s es = some s') : I s' := by
  induction es generalizing s with
  | nil =>
    rw [run_nil] at h
    rw [← Option.some.inj h]
    exact hs
  | cons e es ih =>
    obtain ⟨mid, hmid, hrest⟩ := run_cons h
    exact ih (hstep s e mid hs hmid) hrest

/-- **Measure rule.** What every step lowers bounds the number of steps. -/
theorem run_length_le {I : σ → Prop} {φ : σ → Nat}
    (hstep : ∀ s e s', I s → step s e = some s' → I s')
    (hφ : ∀ s e s', I s → step s e = some s' → φ s' + 1 ≤ φ s) {s s' : σ} {es : List ε} (hs : I s)
    (h : run step s es = some s') : es.length + φ s' ≤ φ s := by
  induction es generalizing s with
  | nil =>
    rw [run_nil] at h
    rw [← Option.some.inj h]
    simp
  | cons e es ih =>
    obtain ⟨mid, hmid, hrest⟩ := run_cons h
    have hfirst := hφ s e mid hs hmid
    have hrest' := ih (hstep s e mid hs hmid) hrest
    rw [List.length_cons]
    omega

theorem run_append {s s' : σ} {es es' : List ε} :
    run step s (es ++ es') = some s' ↔
      ∃ mid, run step s es = some mid ∧ run step mid es' = some s' := by
  induction es generalizing s with
  | nil => simp [run]
  | cons a es ih =>
    simp only [List.cons_append, run, Option.bind_eq_some_iff, ih]
    constructor
    · rintro ⟨t, ht, mid, hrun, hrest⟩
      exact ⟨mid, ⟨t, ht, hrun⟩, hrest⟩
    · rintro ⟨mid, ⟨t, ht, hrun⟩, hrest⟩
      exact ⟨t, ht, mid, hrun, hrest⟩

theorem run_concat {s s' : σ} {e : ε} {es : List ε} :
    run step s (es ++ [e]) = some s' ↔
      ∃ mid, run step s es = some mid ∧ step mid e = some s' :=
  run_append.trans (by simp [run])

/-- **Invariant rule** with the events so far in the invariant. -/
theorem run_history {I : List ε → σ → Prop} {s₀ : σ} (hinit : I [] s₀)
    (hstep : ∀ es s e s', I es s → step s e = some s' → I (es ++ [e]) s') {s : σ} {es : List ε}
    (h : run step s₀ es = some s) : I es s := by
  induction es using List.reverseRecOn generalizing s with
  | nil =>
    rw [run_nil] at h
    rw [← Option.some.inj h]
    exact hinit
  | append_singleton es e ih =>
    obtain ⟨mid, hrun, he⟩ := run_concat.mp h
    exact hstep es mid e s (ih hrun) he

end Run

end Infra
