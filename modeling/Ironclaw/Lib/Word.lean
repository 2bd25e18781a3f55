import Ironclaw.Lib.Lists
import Mathlib.Algebra.BigOperators.Group.List.Basic
import Mathlib.Algebra.GroupWithZero.Nat
import Mathlib.Algebra.Ring.Int.Defs

/-!
# Sixty-four bit counters

Counters of the modelled program are signed 64-bit integers that wrap.  A
counter that was increased once per item equals the number of items modulo
`2^64`; it never exceeds that number, and equals it below `2^63`.
-/

namespace Ironclaw.Lib

open Int64

instance int64AddCommGroup : AddCommGroup Int64 where
  add_assoc := Int64.add_assoc
  zero_add := Int64.zero_add
  add_zero := Int64.add_zero
  add_comm := Int64.add_comm
  neg_add_cancel := Int64.add_left_neg
  sub_eq_add_neg := Int64.sub_eq_add_neg
  nsmul := nsmulRec
  zsmul := zsmulRec

namespace Word

variable {left right : Int64}

@[simp]
theorem ofNat_zero : ofNat 0 = 0 := rfl

theorem ofNat_succ (count : Nat) :
    ofNat (count + 1) = ofNat count + 1 :=
  ofNat_add count 1

theorem toInt_ofNat_le (count : Nat) : (ofNat count).toInt ≤ count := by
  rw [Int64.toInt_ofNat', Int.bmod_def]
  have size : ((size : Nat) : Int) = 18446744073709551616 := rfl
  rw [size]
  split <;> omega

theorem ofNat_lt_ofNat_iff {left right : Nat} (leftBound : left < 2 ^ 63)
    (rightBound : right < 2 ^ 63) :
    ofNat left < ofNat right ↔ left < right := by
  rw [lt_iff_toInt_lt, toInt_ofNat_of_lt leftBound,
    toInt_ofNat_of_lt rightBound]
  exact Int.ofNat_lt

theorem ofNat_nonneg {count : Nat} (bound : count < 2 ^ 63) :
    ¬ofNat count < 0 := by
  rw [lt_iff_toInt_lt, toInt_ofNat_of_lt bound]
  exact Int.not_lt.mpr (Int.natCast_nonneg count)

/-- A counter of fewer than `2^64` things is zero only without any. -/
theorem ofNat_eq_zero_iff {count : Nat} (bound : count < 2 ^ 64) :
    ofNat count = 0 ↔ count = 0 := by
  constructor
  · intro zero
    have counter := congrArg toInt zero
    rw [Int64.toInt_ofNat', Int.bmod_def] at counter
    have size : ((size : Nat) : Int) = 18446744073709551616 := rfl
    have right : (0 : Int64).toInt = 0 := rfl
    rw [size, right] at counter
    split at counter <;> omega
  · rintro rfl
    rfl

theorem toInt_add_one
    {count : Int64} (bound : count.toInt < 9223372036854775807) :
    (count + 1).toInt = count.toInt + 1 := by
  have lower := le_toInt count
  rw [toInt_add, Int.bmod_def]
  have one : (1 : Int64).toInt = 1 := rfl
  rw [one]
  split <;> omega

theorem toInt_add (lower : -9223372036854775808 ≤ left.toInt + right.toInt)
    (upper : left.toInt + right.toInt ≤ 9223372036854775807) :
    (left + right).toInt = left.toInt + right.toInt := by
  rw [Int64.toInt_add, Int.bmod_def]
  split <;> omega

theorem le_add_of_nonneg
    (leftNonneg : 0 ≤ left.toInt) (rightNonneg : 0 ≤ right.toInt)
    (sumNonneg : 0 ≤ (left + right).toInt) :
    left.toInt ≤ (left + right).toInt := by
  have leftBound := Int64.toInt_lt left
  have rightBound := Int64.toInt_lt right
  rw [Int64.toInt_add, Int.bmod_def] at sumNonneg ⊢
  split at sumNonneg <;> split <;> omega

theorem toInt_sub (lower : -9223372036854775808 ≤ left.toInt - right.toInt)
    (upper : left.toInt - right.toInt ≤ 9223372036854775807) :
    (left - right).toInt = left.toInt - right.toInt := by
  rw [Int64.toInt_sub, Int.bmod_def]
  split <;> omega

theorem toInt_mul (lower : -9223372036854775808 ≤ left.toInt * right.toInt)
    (upper : left.toInt * right.toInt ≤ 9223372036854775807) :
    (left * right).toInt = left.toInt * right.toInt := by
  rw [Int64.toInt_mul, Int.bmod_def]
  split <;> omega

theorem toInt_div (positive : 0 < right.toInt) :
    (left / right).toInt = left.toInt.tdiv right.toInt := by
  apply Int64.toInt_div_of_ne_right
  rintro rfl
  exact absurd positive (by decide)

theorem sum_map_ofNat
    {Item : Type*} (items : List Item) (count : Item → Nat) :
    (items.map fun item => Int64.ofNat (count item)).sum =
      ofNat (items.map count).sum := by
  induction items with
  | nil => rfl
  | cons head tail induction =>
    simp only [List.map_cons, List.sum_cons, induction, ofNat_add]

theorem sum_map_eq_ofInt
    {Item : Type*} (items : List Item) (counter : Item → Int64) :
    (items.map counter).sum =
      ofInt (items.map fun item => (counter item).toInt).sum := by
  induction items with
  | nil => rfl
  | cons item rest induction =>
    rw [List.map_cons, List.sum_cons, List.map_cons, List.sum_cons,
      ofInt_add, ofInt_toInt, induction]

theorem toInt_sum_map
    {Item : Type*} {items : List Item} {counter : Item → Int64}
    (lower : -9223372036854775808 ≤
      (items.map fun item => (counter item).toInt).sum)
    (upper : (items.map fun item => (counter item).toInt).sum ≤
      9223372036854775807) :
    (items.map counter).sum.toInt =
      (items.map fun item => (counter item).toInt).sum := by
  have size : ((size : Nat) : Int) = 18446744073709551616 := rfl
  rw [sum_map_eq_ofInt, toInt_ofInt]
  apply Int.bmod_eq_of_le_mul_two <;> omega

theorem add_ofNat_injective (base : Int64) {left right : Nat}
    (leftBound : left < 2 ^ 64) (rightBound : right < 2 ^ 64)
    (equal : base + Int64.ofNat left = base + Int64.ofNat right) :
    left = right := by
  have offsets : ofNat left = ofNat right := add_left_cancel equal
  have bits := congrArg toBitVec offsets
  simp only [Int64.toBitVec_ofNat'] at bits
  have values := congrArg BitVec.toNat bits
  simp only [BitVec.toNat_ofNat] at values
  rwa [Nat.mod_eq_of_lt leftBound, Nat.mod_eq_of_lt rightBound] at values

end Word

end Ironclaw.Lib
