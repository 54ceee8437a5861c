import Mathlib.Tactic.Common
import Mathlib.Algebra.Order.Ring.Int

/-!
# Counters converted to another unit

A counter of which `f` ticks make `k` units is read as `x * k / f`, with a product
that wraps at `M`. Two readings tell the time between them if and only if their
products have wrapped equally often (`tracks_iff`).
-/

namespace Ticks

/-- The reading of the counter `x`, with the product modulo `M`. -/
def scaled (M k f x : Nat) : Nat := x * k % M / f

/-- The readings `u` and `v` of the counters `a` and `b` do not decrease, and their difference is
`(b - a) * k / f` up to 1. -/
structure Tracks (k f a b u v : Nat) : Prop where
  mono : u ≤ v
  near : (((v : Int) - u) * f - ((b : Int) - a) * k).natAbs ≤ f

variable {M k f a b x y : Nat}

/-- A quotient, multiplied again, is less than one divisor short. -/
theorem mul_div_bounds (hf : 0 < f) (x : Nat) : f * (x / f) ≤ x ∧ x < f * (x / f) + f := by
  have hmod := Nat.mod_lt x hf
  have hsum := Nat.div_add_mod x f
  omega

/-- The difference of two quotients, multiplied again. -/
theorem div_sub_div (hf : 0 < f) (x y : Nat) :
    ((((y / f : Nat) : Int) - (x / f : Nat)) * f - ((y : Int) - x)).natAbs < f := by
  obtain ⟨hx₁, hx₂⟩ := mul_div_bounds hf x
  obtain ⟨hy₁, hy₂⟩ := mul_div_bounds hf y
  have hmul : (((y / f : Nat) : Int) - (x / f : Nat)) * f =
      ((f * (y / f) : Nat) : Int) - (f * (x / f) : Nat) := by
    rw [Int.sub_mul, Nat.cast_mul, Nat.cast_mul, Int.mul_comm, Int.mul_comm (x / f : Nat)]
  rw [hmul]
  omega

/-- The difference of two products, with what was lost when they wrapped. -/
theorem wrapped_sub (M x y : Nat) :
    ((y % M : Nat) : Int) - (x % M : Nat) =
      (y - x) - (((y / M : Nat) : Int) - (x / M : Nat)) * M := by
  have hx := Nat.div_add_mod x M
  have hy := Nat.div_add_mod y M
  have hmul : (((y / M : Nat) : Int) - (x / M : Nat)) * M =
      ((M * (y / M) : Nat) : Int) - (M * (x / M) : Nat) := by
    rw [Int.sub_mul, Nat.cast_mul, Nat.cast_mul, Int.mul_comm, Int.mul_comm (x / M : Nat)]
  rw [hmul]
  omega

/-- Readings tell the time exactly as long as the product does not wrap between them. -/
theorem tracks_iff (hf : 0 < f) (hM : 2 * f ≤ M) (hab : a ≤ b) :
    Tracks k f a b (scaled M k f a) (scaled M k f b) ↔ a * k / M = b * k / M := by
  have hmul : a * k ≤ b * k := Nat.mul_le_mul_right k hab
  have hwraps : a * k / M ≤ b * k / M := Nat.div_le_div_right hmul
  have hexact : ((b : Int) - a) * k = (b * k : Nat) - (a * k : Nat) := by
    rw [Int.sub_mul, Nat.cast_mul, Nat.cast_mul]
  have hsub := wrapped_sub M (a * k) (b * k)
  have hdiv := div_sub_div hf (a * k % M) (b * k % M)
  unfold scaled
  constructor
  · rintro ⟨-, hnear⟩
    by_contra hne
    -- the readings have lost at least `M`, which is two units
    have hlost : (M : Int) ≤ (((b * k / M : Nat) : Int) - (a * k / M : Nat)) * M := by
      have hone : (1 : Int) ≤ ((b * k / M : Nat) : Int) - (a * k / M : Nat) := by omega
      calc (M : Int) = 1 * M := (Int.one_mul _).symm
        _ ≤ _ := Int.mul_le_mul_of_nonneg_right hone (Int.natCast_nonneg M)
    rw [hexact] at hnear
    omega
  · intro heq
    rw [heq, Int.sub_self, Int.zero_mul, Int.sub_zero] at hsub
    refine ⟨Nat.div_le_div_right (by omega), ?_⟩
    rw [hexact]
    omega

/-- A product that never wraps. -/
theorem div_eq_of_lt (hab : a ≤ b) (h : b * k < M) : a * k / M = b * k / M := by
  have hmul : a * k ≤ b * k := Nat.mul_le_mul_right k hab
  rw [Nat.div_eq_of_lt h, Nat.div_eq_of_lt (Nat.lt_of_le_of_lt hmul h)]

end Ticks
