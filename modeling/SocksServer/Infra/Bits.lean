import Mathlib.Tactic.Ring

/-!
# Bit strings that start alike

Bits are counted from the most significant one, as in a network prefix.

* `AgreeOn p x y` — `x` and `y` have the same first `p` bits
* `and_eq_and_iff` — comparing under a prefix mask is comparing the prefix
* `agreeOn_append` — a prefix that ends inside the second of two parts
* `agreeOn_iff_div` — the prefix as a number
-/

namespace Infra

variable {v w : Nat}

/-- The first `p` bits are the same. -/
def AgreeOn (p : Nat) (x y : BitVec w) : Prop := ∀ i < p, x.getMsbD i = y.getMsbD i

instance (p : Nat) (x y : BitVec w) : Decidable (AgreeOn p x y) :=
  inferInstanceAs (Decidable (∀ i < p, _ = _))

/-- The bits of `m` are `p` ones and then zeros. -/
def IsPrefixMask (p : Nat) (m : BitVec w) : Prop := ∀ i < w, m.getMsbD i = decide (i < p)

instance (p : Nat) (m : BitVec w) : Decidable (IsPrefixMask p m) :=
  inferInstanceAs (Decidable (∀ i < w, _ = _))

theorem AgreeOn.symm {p : Nat} {x y : BitVec w} (h : AgreeOn p x y) : AgreeOn p y x :=
  fun i hi => (h i hi).symm

/-- Comparing under a mask is comparing the prefix. -/
theorem and_eq_and_iff {p : Nat} {m : BitVec w} (hm : IsPrefixMask p m) (x y : BitVec w) :
    x &&& m = y &&& m ↔ AgreeOn p x y := by
  constructor
  · intro h i hi
    by_cases hw : i < w
    · have hbit := congrArg (BitVec.getMsbD · i) h
      simpa [hm i hw, hi] using hbit
    · rw [BitVec.getMsbD_of_ge _ _ (by omega), BitVec.getMsbD_of_ge _ _ (by omega)]
  · intro h
    apply BitVec.eq_of_getMsbD_eq
    intro i hw
    rw [BitVec.getMsbD_and, BitVec.getMsbD_and, hm i hw]
    by_cases hi : i < p
    · rw [h i hi]
    · simp [hi]

/-- A prefix that covers the first part and `p` bits of the second. -/
theorem agreeOn_append {p : Nat} {x x' : BitVec v} {y y' : BitVec w} :
    AgreeOn (v + p) (x ++ y) (x' ++ y') ↔ x = x' ∧ AgreeOn p y y' := by
  constructor
  · intro h
    refine ⟨BitVec.eq_of_getMsbD_eq ?_, ?_⟩
    · intro i hi
      have hbit := h i (by omega)
      simpa [BitVec.getMsbD_append, Nat.not_le.mpr hi] using hbit
    · intro i hi
      have hbit := h (v + i) (by omega)
      simpa [BitVec.getMsbD_append] using hbit
  · rintro ⟨rfl, h⟩ i hi
    rw [BitVec.getMsbD_append, BitVec.getMsbD_append]
    split
    · exact h (i - v) (by omega)
    · rfl

/-- The first `p` bits are the number without its last `w - p` bits. -/
theorem agreeOn_iff_div {p : Nat} (hp : p ≤ w) {x y : BitVec w} :
    AgreeOn p x y ↔ x.toNat / 2 ^ (w - p) = y.toNat / 2 ^ (w - p) := by
  have hbit : ∀ (z : BitVec w) (i : Nat), i < p →
      (z.toNat / 2 ^ (w - p)).testBit (p - 1 - i) = z.getMsbD i := by
    intro z i hi
    rw [Nat.testBit_div_two_pow, BitVec.getMsbD, decide_eq_true (by omega), Bool.true_and,
      BitVec.getLsbD, show p - 1 - i + (w - p) = w - 1 - i by omega]
  constructor
  · intro h
    apply Nat.eq_of_testBit_eq
    intro j
    by_cases hj : j < p
    · have hx := hbit x (p - 1 - j) (by omega)
      have hy := hbit y (p - 1 - j) (by omega)
      rw [show p - 1 - (p - 1 - j) = j by omega] at hx hy
      rw [hx, hy, h _ (by omega)]
    · -- neither number has more than `p` bits
      have hzero : ∀ z : BitVec w, (z.toNat / 2 ^ (w - p)).testBit j = false := by
        intro z
        rw [Nat.testBit_div_two_pow]
        exact BitVec.getLsbD_of_ge z _ (by omega)
      rw [hzero x, hzero y]
  · intro h i hi
    rw [← hbit x i hi, ← hbit y i hi, h]

end Infra
