import Ironclaw.Aggregate.Quantile
import Ironclaw.Lib.Scale
import Mathlib.Data.Rat.Floor

/-!
# The accuracy of reported percentiles

The formulas of the sketch, read as exact arithmetic: the index of a value is
the least power that is not below it, and a bucket reports an estimate that is
rounded to a whole number and capped at the greatest one.  The estimate is
within the relative accuracy; rounding moves the report by up to one half more,
which matters for small values.
-/

namespace Ironclaw.Aggregate

open Lib

/-- The index and the value of the logarithmic scale. -/
def logarithmic : Formulas where
  index accuracy value :=
    if valid : 0 < accuracy ∧ accuracy < 1 then
      Nat.find (Scale.exists_le_pow valid.1 valid.2 (value.toInt : ℚ))
    else 0
  value accuracy index :=
    let estimate := round (Scale.estimate accuracy index)
    if maxInt64.toInt ≤ estimate then maxInt64 else Int64.ofInt estimate

section Valid

variable {accuracy : ℚ}
variable (positive : 0 < accuracy) (below : accuracy < 1)
include positive below

theorem logarithmic_index (value : Int64) :
    ∃ power : Nat, logarithmic.index accuracy value = power ∧
      Scale.IsIndex accuracy (value.toInt : ℚ) power := by
  have found := Scale.exists_le_pow positive below (value.toInt : ℚ)
  refine ⟨Nat.find found, dif_pos ⟨positive, below⟩, ?_, ?_⟩
  · exact Nat.find_spec found
  · intro smaller less
    exact lt_of_not_ge (Nat.find_min found less)

theorem logarithmic_monotone : logarithmic.Monotone accuracy := by
  intro low high _ order
  rcases logarithmic_index positive below low with ⟨lowPower, lowEq, low⟩
  rcases logarithmic_index positive below high with ⟨highPower, highEq, high⟩
  rw [lowEq, highEq]
  apply Int.ofNat_le.mpr
  apply low.mono high
  exact Int.cast_le.mpr (Int64.le_iff_toInt_le.mp order)

/-- What a bucket reports for a value in it. -/
theorem abs_logarithmic_sub_le {value : Int64} (sample : 0 < value) :
    |((logarithmic.value accuracy
        (logarithmic.index accuracy value)).toInt : ℚ) - value.toInt| ≤
      accuracy * value.toInt + 1 / 2 := by
  rcases logarithmic_index positive below value with ⟨power, same, isIndex⟩
  have one : (1 : ℚ) ≤ value.toInt :=
    Int.cast_le.mpr (Int64.lt_iff_toInt_lt.mp sample)
  have error := isIndex.abs_round_sub_le positive below one
  rw [same]
  simp only [logarithmic]
  split
  · rename_i capped
    -- The value is not above the cap, and the estimate is not below it.
    have cap : (value.toInt : ℚ) ≤ maxInt64.toInt :=
      Int.cast_le.mpr (Int64.le_iff_toInt_le.mp (le_maxInt64 value))
    have above : (maxInt64.toInt : ℚ) ≤
        round (Scale.estimate accuracy power) := Int.cast_le.mpr capped
    rw [abs_le] at error ⊢
    constructor
    · linarith
    · linarith
  · rename_i uncapped
    have least : (-1 : ℚ) ≤ round (Scale.estimate accuracy power) := by
      have product : accuracy * (value.toInt : ℚ) ≤ value.toInt :=
        mul_le_of_le_one_left (le_trans zero_le_one one) below.le
      rw [abs_le] at error
      linarith
    have lower : -1 ≤ round (Scale.estimate accuracy power) := by
      exact_mod_cast least
    have bound : maxInt64.toInt = 9223372036854775807 := rfl
    rw [Int64.toInt_ofInt_of_le (by omega) (by omega)]
    exact error

end Valid

/-! ## The sketch of a list of samples -/

/-- A new sketch to which the samples are added in order. -/
def sketchOf (formulas : Formulas) (accuracy : ℚ) (samples : List Int64) :
    Except Fault Sketch :=
  match Sketch.new accuracy with
  | .error fault => .error fault
  | .ok sketch =>
    .ok (samples.foldl (fun sketch sample => sketch.add formulas sample)
      sketch)

theorem Sampled.Kept.foldl_add
    {formulas : Formulas} {accuracy : ℚ} (samples : List Int64)
    {entry : Sampled} (kept : entry.Kept formulas accuracy) :
    Sampled.Kept formulas accuracy
      ⟨samples.foldl (fun sketch sample => sketch.add formulas sample)
        entry.sketch, entry.values ++ samples⟩ := by
  induction samples generalizing entry with
  | nil =>
    rw [List.append_nil]
    exact kept
  | cons sample rest induction =>
    have later := induction (kept.add sample)
    rw [List.append_assoc] at later
    exact later

theorem exists_sketchOf
    (formulas : Formulas) {accuracy : ℚ} (positive : 0 < accuracy)
    (below : accuracy < 1) (samples : List Int64) :
    ∃ sketch, sketchOf formulas accuracy samples = .ok sketch ∧
      Sampled.Kept formulas accuracy ⟨sketch, samples⟩ := by
  have valid : ¬ (accuracy ≤ 0 ∨ 1 ≤ accuracy) :=
    not_or.mpr ⟨not_le_of_gt positive, not_le_of_gt below⟩
  cases built : Sketch.new accuracy with
  | error fault =>
    rw [Sketch.new, if_neg valid] at built
    cases built
  | ok sketch =>
    have kept := (@Sampled.Kept.new formulas _ _ built).foldl_add samples
    refine ⟨_, ?_, kept⟩
    simp only [sketchOf, built]

/-- Every rank is the rank of some quantile. -/
theorem exists_quantile {rank amount : Nat} (inside : rank < amount) :
    ∃ quantile : ℚ, 0 ≤ quantile ∧ quantile ≤ 1 ∧
      rankIn quantile amount = rank := by
  have last : rank ≤ amount - 1 := Nat.le_sub_one_of_lt inside
  refine ⟨rank / (amount - 1 : Nat), ?_, ?_, ?_⟩
  · exact div_nonneg (Nat.cast_nonneg _) (Nat.cast_nonneg _)
  · exact div_le_one_of_le₀ (Nat.cast_le.mpr last) (Nat.cast_nonneg _)
  · have product : (rank / (amount - 1 : Nat) : ℚ) * (amount - 1 : Nat) =
        (rank : Int) := by
      by_cases single : amount - 1 = 0
      · rw [single] at last ⊢
        rw [Nat.le_zero.mp last]
        simp
      · rw [div_mul_cancel₀ _ (Nat.cast_ne_zero.mpr single)]
        rfl
    rw [rankIn, product, Rat.floor_intCast]
    rfl

/--
Every accuracy between zero and one, every non-empty list of fewer than `2^63`
positive samples and every rank: some quantile has the rank, and every
quantile of that rank reports a value that differs from the sample of the
rank by at most the accuracy times the sample, and one half for the rounding.
-/
theorem percentiles_within_accuracy
    (accuracy : ℚ) (positive : 0 < accuracy) (below : accuracy < 1)
    (samples : List Int64) (samplesPositive : ∀ sample ∈ samples, 0 < sample)
    (bound : samples.length < 2 ^ 63)
    (rank : Nat) (inside : rank < samples.length) :
    ∃ sketch sample, sketchOf logarithmic accuracy samples = .ok sketch ∧
        (ascending samples)[rank]? = some sample ∧
        (∃ quantile : ℚ, 0 ≤ quantile ∧ quantile ≤ 1 ∧
          rankIn quantile samples.length = rank) ∧
        ∀ quantile : ℚ, 0 ≤ quantile → quantile ≤ 1 →
          rankIn quantile samples.length = rank → ∃ answer : Int64,
              (sketch.quantile logarithmic quantile).2 = .ok answer ∧
                |(answer.toInt : ℚ) - sample.toInt| ≤
                  accuracy * sample.toInt + 1 / 2 := by
  rcases exists_sketchOf logarithmic positive below samples with
    ⟨sketch, built, kept⟩
  have position : rank < (ascending samples).length := by
    rw [(ascending_perm samples).length_eq]
    exact inside
  have found := List.getElem?_eq_getElem position
  generalize (ascending samples)[rank] = sample at found
  have listed : sample ∈ samples :=
    (ascending_perm samples).mem_iff.mp (List.mem_of_getElem? found)
  refine ⟨sketch, sample, built, found, exists_quantile inside, ?_⟩
  intro quantile nonneg atMost same
  have represents := kept.represents bound
  have monotone : logarithmic.Monotone sketch.relativeAccuracy := by
    rw [kept.accuracy_eq]
    exact logarithmic_monotone positive below
  rw [← same] at found
  have answer := (represents.quantile_eq kept.cached monotone bound nonneg
    atMost found).1
  have larger := samplesPositive sample listed
  rw [reported, if_pos larger, kept.accuracy_eq] at answer
  exact ⟨_, answer, abs_logarithmic_sub_le positive below larger⟩

theorem percentiles_within_accuracy_example : ∃ sketch sample,
      sketchOf logarithmic (1 / 100) [80, 3, 1000000] = .ok sketch ∧
        (ascending [80, 3, 1000000])[1]? = some sample ∧
        ∀ quantile : ℚ, 0 ≤ quantile → quantile ≤ 1 → rankIn quantile 3 = 1 →
            ∃ answer : Int64,
              (sketch.quantile logarithmic quantile).2 = .ok answer ∧
                |(answer.toInt : ℚ) - sample.toInt| ≤
                  1 / 100 * sample.toInt + 1 / 2 := by
  have positive : ∀ sample ∈ ([80, 3, 1000000] : List Int64), 0 < sample := by
    simp
  rcases percentiles_within_accuracy (1 / 100) (by norm_num) (by norm_num)
    [80, 3, 1000000] positive (by decide) 1 (by decide) with
    ⟨sketch, sample, built, found, _, answers⟩
  exact ⟨sketch, sample, built, found, answers⟩

/-! ## Eighty nanoseconds -/

theorem isIndex_eighty : Scale.IsIndex (1 / 100 : ℚ) 80 220 where
  le := by
    norm_num [Scale.gamma]
  least := by
    intro smaller less
    have base : (1 : ℚ) ≤ Scale.gamma (1 / 100) := by
      norm_num [Scale.gamma]
    calc Scale.gamma (1 / 100 : ℚ) ^ smaller
        ≤ Scale.gamma (1 / 100) ^ 219 :=
          pow_le_pow_right₀ base (Nat.le_of_lt_succ less)
      _ < 80 := by norm_num [Scale.gamma]

theorem logarithmic_eighty :
    logarithmic.value (1 / 100) (logarithmic.index (1 / 100) 80) = 81 := by
  rcases @logarithmic_index (1 / 100) (by norm_num) (by norm_num) 80 with
    ⟨power, same, isIndex⟩
  have power_eq : power = 220 :=
    Nat.le_antisymm (isIndex.mono isIndex_eighty (le_refl _))
      (isIndex_eighty.mono isIndex (le_refl _))
  have rounded : round (Scale.estimate (1 / 100 : ℚ) 220) = 81 := by
    rw [round_eq, Int.floor_eq_iff]
    norm_num [Scale.estimate, Scale.gamma]
  rw [same, power_eq]
  simp only [logarithmic, Nat.cast_ofNat, rounded]
  decide

/--
With the default accuracy, a sample of eighty is reported as eighty-one: one
percent of it is less than one.
-/
theorem rounding_exceeds_accuracy :
    ∃ sketch, sketchOf logarithmic (1 / 100) [80] = .ok sketch ∧
      (sketch.quantile logarithmic (95 / 100)).2 = .ok 81 ∧
        ¬ |(81 : ℚ) - 80| ≤ 1 / 100 * 80 := by
  have positive : (0 : ℚ) < 1 / 100 := by norm_num
  have below : (1 / 100 : ℚ) < 1 := by norm_num
  rcases exists_sketchOf logarithmic positive below [80] with
    ⟨sketch, built, kept⟩
  refine ⟨sketch, built, ?_, by norm_num⟩
  have monotone : logarithmic.Monotone sketch.relativeAccuracy := by
    rw [kept.accuracy_eq]
    exact logarithmic_monotone positive below
  have inside : rankIn (95 / 100) 1 < 1 := rankIn_lt (by norm_num) Nat.one_pos
  have found : (ascending [80])[rankIn (95 / 100) 1]? = some 80 := by
    rw [Nat.lt_one_iff.mp inside]
    rfl
  have bound : ([80] : List Int64).length < 2 ^ 63 := by decide
  have answer := ((kept.represents bound).quantile_eq kept.cached monotone
    bound (by norm_num) (by norm_num) found).1
  have sample : (0 : Int64) < 80 := by decide
  rw [reported, if_pos sample, kept.accuracy_eq, logarithmic_eighty] at answer
  exact answer

end Ironclaw.Aggregate
