import Mathlib.Data.Option.Basic
import Mathlib.Logic.Function.Iterate

/-!
# A counting semaphore

Permits are taken one at a time without waiting (`tryAcquire`), or many at once by a caller
that waits (`acquireMany`). The waiting caller takes what is available at once and keeps it;
what is released goes to it first. If it gives up, what it had taken becomes available again.
One caller waits at a time.

* `SemaphoreOps.Lawful` — the above, as laws about any semaphore
* `Semaphore`, `Semaphore.lawful` — one that keeps them. What is said below of it is proved
  from the laws
* `free` — permits that nobody holds: available, or set aside for the caller that waits
* `free_*` — only `tryAcquire` and `release` change their number
* `available_of_waitsFor` — while a caller waits for all permits, none is available
* `acquired_iff_of_waitsFor` — it has got them when they are all free
-/

namespace Infra

/-- Permits that are given back when their owner drops them. -/
structure Permit where
  permits : Nat
  deriving DecidableEq, Repr

/-- An acquire of `need` permits that has taken some of them. -/
structure Acquire where
  need : Nat
  taken : Nat
  taken_le : taken ≤ need
  deriving DecidableEq, Repr

namespace Acquire

def complete (a : Acquire) : Bool := a.taken = a.need

/-- One more permit. -/
def take (a : Acquire) (h : a.taken ≠ a.need) : Acquire :=
  ⟨a.need, a.taken + 1, Nat.lt_of_le_of_ne a.taken_le h⟩

end Acquire

/-! ## The laws -/

/-- A semaphore, from outside. -/
structure SemaphoreOps (σ : Type) where
  available : σ → Nat
  /-- The acquire of the caller that waits. -/
  pending : σ → Option Acquire
  new : Nat → σ
  tryAcquire : σ → Option (Permit × σ)
  /-- The first poll of an acquire of many permits. -/
  acquireMany : σ → Nat → σ
  /-- One permit comes back. -/
  release : σ → σ
  /-- The acquire is dropped: its caller gives up, or is done with what it got. -/
  dropAcquire : σ → σ

namespace SemaphoreOps

/-- What is relied on. -/
structure Lawful {σ : Type} (S : SemaphoreOps σ) : Prop where
  /-- At first nobody holds or wants a permit. -/
  new : ∀ n, S.available (S.new n) = n ∧ S.pending (S.new n) = none
  tryAcquire_none : ∀ s, S.tryAcquire s = none ↔ S.available s = 0
  /-- A permit that is taken is one that nobody held. -/
  tryAcquire_some : ∀ {s p s'}, S.tryAcquire s = some (p, s') →
    p = ⟨1⟩ ∧ S.available s' + 1 = S.available s ∧ S.pending s' = S.pending s
  /-- A caller that waits takes at once what there is. -/
  acquireMany : ∀ s n, S.available (S.acquireMany s n) = S.available s - min n (S.available s) ∧
    S.pending (S.acquireMany s n) = some ⟨n, min n (S.available s), Nat.min_le_left _ _⟩
  /-- As long as it lacks permits, there are none for others. -/
  greedy : ∀ {s a}, S.pending s = some a → a.taken ≠ a.need → S.available s = 0
  /-- What is released goes to it first. -/
  release_waiting : ∀ {s a} (_ : S.pending s = some a) (hne : a.taken ≠ a.need),
    S.available (S.release s) = S.available s ∧ S.pending (S.release s) = some (a.take hne)
  release_complete : ∀ {s a}, S.pending s = some a → a.taken = a.need →
    S.available (S.release s) = S.available s + 1 ∧ S.pending (S.release s) = some a
  release_none : ∀ {s}, S.pending s = none →
    S.available (S.release s) = S.available s + 1 ∧ S.pending (S.release s) = none
  /-- When it is dropped, what it had taken is given back. -/
  dropAcquire : ∀ {s a}, S.pending s = some a →
    S.available (S.dropAcquire s) = S.available s + a.taken ∧ S.pending (S.dropAcquire s) = none
  dropAcquire_none : ∀ {s}, S.pending s = none → S.dropAcquire s = s

end SemaphoreOps

/-! ## A semaphore -/

structure Semaphore where
  available : Nat
  pending : Option Acquire
  /-- A caller that still lacks permits has left none. -/
  greedy : ∀ a ∈ pending, a.taken ≠ a.need → available = 0

namespace Semaphore

def new (permits : Nat) : Semaphore := ⟨permits, none, by simp⟩

/-- One permit, if one is available. -/
def tryAcquire (s : Semaphore) : Option (Permit × Semaphore) :=
  if 0 < s.available then
    some (⟨1⟩, ⟨s.available - 1, s.pending, fun a ha hne => by
      have := s.greedy a ha hne
      omega⟩)
  else none

def acquireMany (s : Semaphore) (n : Nat) : Semaphore :=
  ⟨s.available - min n s.available, some ⟨n, min n s.available, Nat.min_le_left _ _⟩, by
    intro a ha hne
    obtain rfl := Option.some.inj ha
    simp only at hne
    omega⟩

def release (s : Semaphore) : Semaphore :=
  match h : s.pending with
  | some a =>
    if hne : a.taken = a.need then
      ⟨s.available + 1, some a, fun b hb hne' => by
        obtain rfl := Option.some.inj hb
        exact absurd hne hne'⟩
    else
      ⟨s.available, some (a.take hne), fun _ _ _ => s.greedy a (by simp [h]) hne⟩
  | none => ⟨s.available + 1, none, by simp⟩

def dropAcquire (s : Semaphore) : Semaphore :=
  match s.pending with
  | some a => ⟨s.available + a.taken, none, by simp⟩
  | none => s

def ops : SemaphoreOps Semaphore where
  available
  pending
  new
  tryAcquire
  acquireMany
  release
  dropAcquire

/-- **The laws hold.** -/
theorem lawful : ops.Lawful where
  new _ := ⟨rfl, rfl⟩
  tryAcquire_none s := by
    show tryAcquire s = none ↔ _
    unfold tryAcquire
    split
    · next h => exact iff_of_false (by rintro ⟨⟩) (Nat.ne_of_gt h)
    · next h => exact iff_of_true rfl (Nat.eq_zero_of_not_pos h)
  tryAcquire_some {s p s'} h := by
    change tryAcquire s = some (p, s') at h
    unfold tryAcquire at h
    split at h
    · next hpos =>
      obtain ⟨rfl, rfl⟩ := Prod.mk.inj (Option.some.inj h)
      exact ⟨rfl, Nat.sub_add_cancel hpos, rfl⟩
    · cases h
  acquireMany _ _ := ⟨rfl, rfl⟩
  greedy {s a} h hne := s.greedy a h hne
  release_waiting {s a} h hne := by
    change s.pending = some a at h
    show s.release.available = _ ∧ s.release.pending = _
    unfold release
    split
    · next b hb =>
      obtain rfl : b = a := Option.some.inj (hb.symm.trans h)
      rw [dif_neg hne]
      exact ⟨rfl, rfl⟩
    · next hb => cases hb.symm.trans h
  release_complete {s a} h heq := by
    change s.pending = some a at h
    show s.release.available = _ ∧ s.release.pending = _
    unfold release
    split
    · next b hb =>
      obtain rfl : b = a := Option.some.inj (hb.symm.trans h)
      rw [dif_pos heq]
      exact ⟨rfl, rfl⟩
    · next hb => cases hb.symm.trans h
  release_none {s} h := by
    change s.pending = none at h
    show s.release.available = _ ∧ s.release.pending = _
    unfold release
    split
    · next b hb => cases hb.symm.trans h
    · exact ⟨rfl, rfl⟩
  dropAcquire {s a} h := by
    change s.pending = some a at h
    show s.dropAcquire.available = _ ∧ s.dropAcquire.pending = _
    unfold dropAcquire
    rw [h]
    exact ⟨rfl, rfl⟩
  dropAcquire_none {s} h := by
    change s.pending = none at h
    show s.dropAcquire = _
    unfold dropAcquire
    rw [h]

/-- `drop(permit)` -/
def dropPermit (s : Semaphore) (permit : Permit) : Semaphore := release^[permit.permits] s

/-- Set aside for the caller that waits. -/
def taken (s : Semaphore) : Nat := s.pending.elim 0 Acquire.taken

/-- Permits that no `Permit` stands for. -/
def free (s : Semaphore) : Nat := s.available + s.taken

/-- How many permits the caller that waits has asked for. -/
def waitsFor (s : Semaphore) : Option Nat := s.pending.map Acquire.need

/-- The caller that waits has got all it asked for. -/
def acquired (s : Semaphore) : Bool := s.pending.any Acquire.complete

section Lemmas

variable {s s' : Semaphore} {p : Permit}

@[simp] theorem free_new (n : Nat) : (new n).free = n := rfl

@[simp] theorem waitsFor_new (n : Nat) : (new n).waitsFor = none := rfl

/-! ## One permit -/

/-- One permit is taken, and who waits still does. -/
theorem tryAcquire_eq_some (h : s.tryAcquire = some (p, s')) :
    p = ⟨1⟩ ∧ s'.free + 1 = s.free ∧ s'.waitsFor = s.waitsFor := by
  obtain ⟨hp, havailable, hpending⟩ :
      p = ⟨1⟩ ∧ s'.available + 1 = s.available ∧ s'.pending = s.pending := lawful.tryAcquire_some h
  refine ⟨hp, ?_, ?_⟩
  · rw [free, free, taken, taken, hpending]
    omega
  · rw [waitsFor, waitsFor, hpending]

/-- No permit is taken when none is available. -/
theorem tryAcquire_eq_none : s.tryAcquire = none ↔ s.available = 0 := lawful.tryAcquire_none s

/-- What a permit that comes back does, whoever gets it. -/
theorem release_eq (s : Semaphore) :
    s.release.free = s.free + 1 ∧ s.release.waitsFor = s.waitsFor := by
  cases h : s.pending with
  | none =>
    obtain ⟨havailable, hpending⟩ :
        s.release.available = s.available + 1 ∧ s.release.pending = none := lawful.release_none h
    simp [free, taken, waitsFor, havailable, hpending, h]
  | some a =>
    by_cases hne : a.taken = a.need
    · obtain ⟨havailable, hpending⟩ :
          s.release.available = s.available + 1 ∧
            s.release.pending = some a := lawful.release_complete h hne
      simp only [free, taken, waitsFor, havailable, hpending, h, Option.elim, Option.map_some,
        and_true]
      omega
    · obtain ⟨havailable, hpending⟩ :
          s.release.available = s.available ∧
            s.release.pending = some (a.take hne) := lawful.release_waiting h hne
      simp only [free, taken, waitsFor, havailable, hpending, h, Option.elim, Option.map_some,
        Acquire.take, and_true]
      omega

@[simp] theorem free_release (s : Semaphore) : s.release.free = s.free + 1 := (release_eq s).1

@[simp] theorem waitsFor_release (s : Semaphore) : s.release.waitsFor = s.waitsFor :=
  (release_eq s).2

/-- A dropped permit gives back all it holds. -/
@[simp] theorem free_dropPermit (s : Semaphore) (p : Permit) :
    (s.dropPermit p).free = s.free + p.permits := by
  unfold dropPermit
  induction p.permits with
  | zero => rfl
  | succ n ih =>
    rw [Function.iterate_succ_apply', free_release, ih]
    omega

@[simp] theorem waitsFor_dropPermit (s : Semaphore) (p : Permit) :
    (s.dropPermit p).waitsFor = s.waitsFor := by
  unfold dropPermit
  induction p.permits with
  | zero => rfl
  | succ n ih => rw [Function.iterate_succ_apply', waitsFor_release, ih]

/-! ## Many permits -/

/-- Who waits holds what is free, so nothing is lost. -/
theorem free_acquireMany (h : s.waitsFor = none) (n : Nat) : (s.acquireMany n).free = s.free := by
  have hp : s.pending = none := Option.map_eq_none_iff.mp h
  obtain ⟨havailable, hpending⟩ :
      (s.acquireMany n).available = s.available - min n s.available ∧
        (s.acquireMany n).pending = some ⟨n, min n s.available, _⟩ := lawful.acquireMany s n
  simp only [free, taken, havailable, hpending, hp, Option.elim]
  omega

@[simp] theorem waitsFor_acquireMany (s : Semaphore) (n : Nat) :
    (s.acquireMany n).waitsFor = some n := by
  have hpending : (s.acquireMany n).pending = _ := (lawful.acquireMany s n).2
  rw [waitsFor, hpending]
  rfl

/-- What dropping an acquire does, complete or not. -/
theorem dropAcquire_eq (s : Semaphore) :
    s.dropAcquire.free = s.free ∧ s.dropAcquire.waitsFor = none := by
  cases h : s.pending with
  | none =>
    rw [show s.dropAcquire = s from lawful.dropAcquire_none h]
    exact ⟨rfl, by simp [waitsFor, h]⟩
  | some a =>
    obtain ⟨havailable, hpending⟩ :
        s.dropAcquire.available = s.available + a.taken ∧
          s.dropAcquire.pending = none := lawful.dropAcquire h
    simp [free, taken, waitsFor, havailable, hpending, h]

/-- Who stops waiting gives back what it holds. -/
@[simp] theorem free_dropAcquire (s : Semaphore) : s.dropAcquire.free = s.free :=
  (dropAcquire_eq s).1

@[simp] theorem waitsFor_dropAcquire (s : Semaphore) : s.dropAcquire.waitsFor = none :=
  (dropAcquire_eq s).2

/-- Without a waiter, what is free is available. -/
theorem free_of_waitsFor_none (h : s.waitsFor = none) : s.free = s.available := by
  have hp : s.pending = none := Option.map_eq_none_iff.mp h
  simp [free, taken, hp]

/-- **A caller that waits for at least all permits leaves none available.** -/
theorem available_of_waitsFor {n : Nat} (h : s.waitsFor = some n) (hn : s.free ≤ n) :
    s.available = 0 := by
  obtain ⟨a, ha, hneed⟩ := Option.map_eq_some_iff.mp h
  by_cases hc : a.taken = a.need
  · -- it has got everything, so nothing else is left
    have htaken : s.taken = a.taken := by simp [taken, ha]
    rw [free] at hn
    omega
  · exact lawful.greedy ha hc

/-- **A caller that waits for all permits has got them when they are all free.** -/
theorem acquired_iff_of_waitsFor {n : Nat} (h : s.waitsFor = some n) (hn : s.free ≤ n) :
    s.acquired = true ↔ s.free = n := by
  have havailable := available_of_waitsFor h hn
  obtain ⟨a, ha, hneed⟩ := Option.map_eq_some_iff.mp h
  have hfree : s.free = a.taken := by simp [free, taken, ha, havailable]
  rw [hfree, ← hneed, acquired, ha]
  simp [Acquire.complete]

end Lemmas

end Semaphore

end Infra
