import Mathlib.Algebra.Order.Archimedean.Basic
import Mathlib.Algebra.Order.Round
import Mathlib.Tactic.Linarith
import Mathlib.Tactic.LinearCombination

/-!
# A logarithmic scale

For an accuracy between zero and one, the scale has a power of
`(1 + accuracy) / (1 - accuracy)` for every bucket.  A value of at least one
belongs to the least power that is not below it, and an estimate between that
power and the one before it is off by no more than the accuracy times the
value.  Rounding the estimate adds at most one half.
-/

namespace Ironclaw.Lib.Scale

variable {K : Type*} [Field K] [LinearOrder K] [IsStrictOrderedRing K]

/-- The ratio of two neighbouring powers. -/
def gamma (accuracy : K) : K := (1 + accuracy) / (1 - accuracy)

/-- The estimate for the values of a bucket. -/
def estimate (accuracy : K) (index : Int) : K :=
  2 * gamma accuracy ^ index / (1 + gamma accuracy)

theorem gamma_mul {accuracy : K} (below : accuracy < 1) :
    (1 - accuracy) * gamma accuracy = 1 + accuracy := by
  have apart : 1 - accuracy ≠ 0 := (sub_pos.mpr below).ne'
  rw [gamma, mul_div_cancel₀ _ apart]

section Accuracy

variable {accuracy : K}
variable (positive : 0 < accuracy) (below : accuracy < 1)
include positive below

theorem one_lt_gamma : 1 < gamma accuracy := by
  rw [gamma, lt_div_iff₀ (sub_pos.mpr below)]
  linarith

theorem estimate_eq (index : Int) :
    estimate accuracy index = (1 - accuracy) * gamma accuracy ^ index := by
  have product := gamma_mul below
  have nonzero : 1 + gamma accuracy ≠ 0 := by
    linarith [one_lt_gamma positive below]
  rw [estimate, div_eq_iff nonzero]
  linear_combination -(gamma accuracy ^ index) * product

theorem exists_le_pow [Archimedean K] (value : K) :
    ∃ power : Nat, value ≤ gamma accuracy ^ power := by
  rcases pow_unbounded_of_one_lt value (one_lt_gamma positive below) with
    ⟨power, above⟩
  exact ⟨power, above.le⟩

end Accuracy

/-- The power is the least one that is not below the value. -/
structure IsIndex (accuracy value : K) (power : Nat) : Prop where
  le : value ≤ gamma accuracy ^ power
  least : ∀ smaller < power, gamma accuracy ^ smaller < value

namespace IsIndex

variable {accuracy value : K} {power : Nat}

omit [IsStrictOrderedRing K] in
theorem mono
    {other : K} {otherPower : Nat} (isIndex : IsIndex accuracy value power)
    (otherIndex : IsIndex accuracy other otherPower)
    (order : value ≤ other) : power ≤ otherPower := by
  by_contra later
  have early := isIndex.least otherPower (Nat.not_le.mp later)
  exact absurd (le_trans order otherIndex.le) (not_le_of_gt early)

/-- The estimate is within the accuracy, relative to the value. -/
theorem abs_estimate_sub_le (isIndex : IsIndex accuracy value power)
    (positive : 0 < accuracy) (below : accuracy < 1) (one : 1 ≤ value) :
    |estimate accuracy power - value| ≤ accuracy * value := by
  have factor : 0 < 1 - accuracy := sub_pos.mpr below
  have lower : (1 - accuracy) * value ≤ estimate accuracy power := by
    rw [estimate_eq positive below, zpow_natCast]
    exact mul_le_mul_of_nonneg_left isIndex.le factor.le
  have upper : estimate accuracy power ≤ (1 + accuracy) * value := by
    rw [estimate_eq positive below, zpow_natCast]
    cases power with
    | zero =>
      rw [pow_zero]
      nlinarith
    | succ smaller =>
      have previous := isIndex.least smaller (Nat.lt_succ_self smaller)
      have product := gamma_mul below
      calc (1 - accuracy) * gamma accuracy ^ (smaller + 1)
          = (1 - accuracy) * gamma accuracy *
              gamma accuracy ^ smaller := by ring
        _ = (1 + accuracy) * gamma accuracy ^ smaller := by rw [product]
        _ ≤ (1 + accuracy) * value :=
            mul_le_mul_of_nonneg_left previous.le (by linarith)
  rw [abs_le]
  constructor
  · linarith
  · linarith

theorem abs_round_sub_le
    [FloorRing K] (isIndex : IsIndex accuracy value power)
    (positive : 0 < accuracy) (below : accuracy < 1) (one : 1 ≤ value) :
    |(round (estimate accuracy power) : K) - value| ≤
      accuracy * value + 1 / 2 := by
  have relative := isIndex.abs_estimate_sub_le positive below one
  have rounding := abs_sub_round (estimate accuracy power)
  rw [abs_le] at relative rounding ⊢
  constructor
  · linarith
  · linarith

end IsIndex

end Ironclaw.Lib.Scale
