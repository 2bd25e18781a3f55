import Ironclaw.Aggregate.Sketch
import Ironclaw.Lib.Machine
import Mathlib.Data.Rat.Cast.Order

/-!
# Sketches select the exact rank

Sketches are made, filled, merged with each other or with themselves, cloned
and asked for quantiles, in any order.  Beside each sketch stands the list of
the values it represents.  As long as fewer than `2^63` values are
represented, the counters are those of the list, and a quantile reports the
bucket of the element of its rank in the sorted list.
-/

namespace Ironclaw.Aggregate

open Lib List Option Int64 Sketch

variable {formulas : Formulas}
variable {value : Int64} {sketch : Sketch} {values : List Int64}

/-- The values that are counted without a bucket. -/
def notPositive (value : Int64) : Bool := decide (value ≤ 0)

theorem notPositive_eq_false_iff : notPositive value = false ↔ 0 < value := by
  rw [notPositive, decide_eq_false_iff_not]
  exact Int64.not_le

/-- The sketch counts the values. -/
structure Represents
    (formulas : Formulas) (values : List Int64) (sketch : Sketch) :
    Prop where
  count : sketch.count = Int64.ofNat values.length
  zeroCount : sketch.zeroCount = Int64.ofNat (values.countP notPositive)
  buckets : ∀ index, index ∈ sketch.buckets ↔ ∃ value ∈ values, 0 < value ∧
      formulas.index sketch.relativeAccuracy value = index
  weights : ∀ index, sketch.bucket index = Int64.ofNat (values.countP
      (freshIn (formulas.index sketch.relativeAccuracy) index notPositive))
  greatest : Greatest values sketch.maxValue
  least : Least values sketch.minValue

/-! ## Every operation keeps the representation -/

theorem represents_new
    {accuracy : ℚ} (built : Sketch.new accuracy = .ok sketch) :
    Represents formulas [] sketch := by
  rw [new] at built
  split at built
  · cases built
  · cases built
    constructor
    · rfl
    · rfl
    · intro index
      simp [AList.notMem_empty]
    · intro index
      rfl
    · exact extreme_nil _ _
    · exact extreme_nil _ _

namespace Represents

section Represents

variable (represents : Represents formulas values sketch)
include represents

theorem mem_concat (value : Int64) (index : Int) :
    (∃ other ∈ values ++ [value], 0 < other ∧
        formulas.index sketch.relativeAccuracy other = index) ↔
      index ∈ sketch.buckets ∨ 0 < value ∧
        formulas.index sketch.relativeAccuracy value = index := by
  rw [represents.buckets]
  constructor
  · rintro ⟨other, listed, positive⟩
    rcases mem_append.mp listed with earlier | last
    · exact Or.inl ⟨other, earlier, positive⟩
    · rw [mem_singleton.mp last] at positive
      exact Or.inr positive
  · rintro (⟨other, earlier, positive⟩ | positive)
    · exact ⟨other, mem_append_left _ earlier, positive⟩
    · exact ⟨value, by simp, positive⟩

theorem count_concat (value : Int64) :
    sketch.count + 1 = ofNat (values ++ [value]).length := by
  rw [length_append, length_singleton, Word.ofNat_succ, represents.count]

theorem greatest_concat (value : Int64) : Greatest (values ++ [value])
      (if sketch.maxValue < value then value else sketch.maxValue) := by
  apply represents.greatest.append
  apply extreme_singleton
  exact Int64.le_refl

theorem least_concat (value : Int64) : Least (values ++ [value])
      (if value < sketch.minValue then value else sketch.minValue) := by
  apply represents.least.append
  apply extreme_singleton
  exact Int64.le_refl

theorem add (value : Int64) :
    Represents formulas (values ++ [value]) (sketch.add formulas value) := by
  have buckets := represents.mem_concat value
  rw [Sketch.add]
  split
  · rename_i zero
    have seen : notPositive value = true := decide_eq_true zero
    refine ⟨represents.count_concat value, ?_, ?_, ?_,
      represents.greatest_concat value, represents.least_concat value⟩
    · show sketch.zeroCount + 1 = _
      rw [countP_append, countP_singleton, if_pos seen,
        Word.ofNat_succ, represents.zeroCount]
    · intro index
      show index ∈ sketch.buckets ↔ _
      rw [buckets index]
      constructor
      · exact Or.inl
      · rintro (known | ⟨positive, _⟩)
        · exact known
        · exact absurd zero (Int64.not_le.mpr positive)
    · intro index
      show sketch.bucket index = Int64.ofNat (countP (freshIn
        (formulas.index sketch.relativeAccuracy) index notPositive) _)
      have outside : freshIn (formulas.index sketch.relativeAccuracy)
          index notPositive value = false := by
        simp [freshIn, seen]
      rw [countP_append, countP_singleton, outside, represents.weights]
      rfl
  · rename_i positive
    have unseen : notPositive value = false := decide_eq_false positive
    refine ⟨represents.count_concat value, ?_, ?_, ?_,
      represents.greatest_concat value, represents.least_concat value⟩
    · show sketch.zeroCount = _
      rw [countP_append, countP_singleton, unseen, represents.zeroCount]
      rfl
    · intro index
      apply Iff.trans _ (buckets index).symm
      rw [mem_raise]
      constructor
      · rintro (same | known)
        · exact Or.inr ⟨Int64.not_le.mp positive, same.symm⟩
        · exact Or.inl known
      · rintro (known | ⟨_, same⟩)
        · exact Or.inr known
        · exact Or.inl same.symm
    · intro index
      rw [bucket_raise]
      show sketch.bucket index +
          (if index = formulas.index sketch.relativeAccuracy value then 1
            else 0) =
        ofNat (countP (freshIn
          (formulas.index sketch.relativeAccuracy) index notPositive) _)
      rw [countP_append, countP_singleton, ofNat_add, represents.weights]
      congr 1
      by_cases same : index = formulas.index sketch.relativeAccuracy value
      · rw [if_pos same]
        have inside : freshIn (formulas.index sketch.relativeAccuracy)
            index notPositive value = true := by
          simp [freshIn, unseen, same]
        rw [if_pos inside]
        rfl
      · rw [if_neg same]
        have outside : freshIn (formulas.index sketch.relativeAccuracy)
            index notPositive value = false := by
          simp [freshIn, Ne.symm same]
        rw [outside]
        rfl

/-- Merging adds up counters, buckets and bests. -/
theorem append {otherValues : List Int64} {other : Sketch}
    (otherRepresents : Represents formulas otherValues other)
    (accuracy : other.relativeAccuracy = sketch.relativeAccuracy)
    {merged : Sketch}
    (same : merged.relativeAccuracy = sketch.relativeAccuracy)
    (count : merged.count = sketch.count + other.count)
    (zeroCount : merged.zeroCount = sketch.zeroCount + other.zeroCount)
    (buckets : ∀ index, index ∈ merged.buckets ↔
      index ∈ sketch.buckets ∨ index ∈ other.buckets)
    (weights : ∀ index,
      merged.bucket index = sketch.bucket index + other.bucket index)
    (greatest : Greatest (values ++ otherValues) merged.maxValue)
    (least : Least (values ++ otherValues) merged.minValue) :
    Represents formulas (values ++ otherValues) merged where
  count := by
    rw [count, represents.count, otherRepresents.count, length_append,
      ofNat_add]
  zeroCount := by
    rw [zeroCount, represents.zeroCount, otherRepresents.zeroCount,
      countP_append, ofNat_add]
  buckets := by
    intro index
    rw [buckets, represents.buckets, otherRepresents.buckets, same, accuracy]
    constructor
    · rintro (⟨value, listed, inside⟩ | ⟨value, listed, inside⟩)
      · exact ⟨value, mem_append_left _ listed, inside⟩
      · exact ⟨value, mem_append_right _ listed, inside⟩
    · rintro ⟨value, listed, inside⟩
      rcases mem_append.mp listed with first | second
      · exact Or.inl ⟨value, first, inside⟩
      · exact Or.inr ⟨value, second, inside⟩
  weights := by
    intro index
    rw [weights, represents.weights, otherRepresents.weights, same,
      accuracy, countP_append, ofNat_add]
  greatest := greatest
  least := least

/-- A successful merge represents the values of both sketches. -/
theorem merge {otherValues : List Int64} {other : Sketch}
    (otherRepresents : Represents formulas otherValues other)
    (bound : otherValues.length < 2 ^ 64)
    (merged : (sketch.merge (some other)).2 = none) :
    Represents formulas (values ++ otherValues)
      (sketch.merge (some other)).1 := by
  simp only [Sketch.merge] at merged ⊢
  split at merged
  · cases merged
  · rename_i agrees
    have accuracy : other.relativeAccuracy = sketch.relativeAccuracy :=
      not_not.mp agrees
    rw [if_neg agrees]
    split
    · rename_i empty
      -- A counter below `2^64` is zero only for the empty list.
      rw [otherRepresents.count, Word.ofNat_eq_zero_iff bound] at empty
      rw [eq_nil_of_length_eq_zero empty, append_nil]
      exact represents
    · rcases foldl_raise_frame other.buckets.entries sketch with
        ⟨buckets, stale, raised⟩
      have members := mem_foldl_raise other.buckets.entries sketch
      have sums := bucket_foldl_raise other.buckets.nodupKeys sketch
      rw [raised] at members sums ⊢
      apply represents.append otherRepresents accuracy
      · rfl
      · rfl
      · rfl
      · exact members
      · exact sums
      · exact represents.greatest.append otherRepresents.greatest
      · exact represents.least.append otherRepresents.least

theorem reorder (sorted : Option Slice) (stale : Bool) :
    Represents formulas values
      { sketch with sorted := sorted, sortedStale := stale } :=
  { represents with }

end Represents

end Represents

/-! ## The rank of a quantile -/

/-- The values in ascending order. -/
def ascending (values : List Int64) : List Int64 :=
  values.insertionSort fun low high => low ≤ high

theorem ascending_perm (values : List Int64) :
    (ascending values).Perm values :=
  perm_insertionSort _ _

theorem ascending_pairwise (values : List Int64) :
    (ascending values).Pairwise fun low high => low ≤ high :=
  pairwise_insertionSort _ _

theorem ascending_congr {left right : List Int64} (same : left.Perm right) :
    ascending left = ascending right := by
  have ordered : (ascending left).Perm (ascending right) :=
    (ascending_perm left).trans (same.trans (ascending_perm right).symm)
  exact ordered.eq_of_pairwise (fun _ _ _ _ => Int64.le_antisymm)
    (ascending_pairwise left) (ascending_pairwise right)

/-- The number of values before the quantile. -/
def rankIn (quantile : ℚ) (amount : Nat) : Nat :=
  (quantile * (amount - 1 : Nat)).floor.toNat

theorem floor_mul_nonneg
    {quantile : ℚ} (nonneg : 0 ≤ quantile) (amount : Nat) :
    0 ≤ (quantile * amount).floor := by
  rw [Rat.le_floor_iff]
  exact mul_nonneg nonneg (Nat.cast_nonneg amount)

theorem rankIn_lt {quantile : ℚ} (atMost : quantile ≤ 1)
    {amount : Nat} (nonempty : 0 < amount) :
    rankIn quantile amount < amount := by
  have product : quantile * (amount - 1 : Nat) ≤ (amount - 1 : Nat) :=
    mul_le_of_le_one_left (Nat.cast_nonneg _) atMost
  have cast : ((quantile * (amount - 1 : Nat)).floor : ℚ) ≤
      ((amount - 1 : Nat) : Int) :=
    le_trans (Rat.floor_le _) product
  have floor : (quantile * (amount - 1 : Nat)).floor ≤
      ((amount - 1 : Nat) : Int) := Int.cast_le.mp cast
  rw [rankIn]
  omega

/-- The rank is computed from the counter as from the number of values. -/
theorem rankOf_eq {quantile : ℚ} (nonneg : 0 ≤ quantile)
    {amount : Nat} (nonempty : 0 < amount) (bound : amount < 2 ^ 63) :
    Sketch.rankOf quantile (Int64.ofNat amount) =
      Int64.ofNat (rankIn quantile amount) := by
  rcases Nat.exists_eq_succ_of_ne_zero nonempty.ne' with ⟨rest, rfl⟩
  have last : Int64.ofNat (rest + 1) - 1 = Int64.ofNat rest := by
    rw [Word.ofNat_succ, Int64.add_sub_cancel]
  have fits : rest < 2 ^ 63 := Nat.lt_of_succ_lt bound
  rw [rankOf, last, Int64.toInt_ofNat_of_lt fits]
  show Int64.ofInt (quantile * rest).floor =
    Int64.ofNat (quantile * rest).floor.toNat
  rw [← Int64.ofInt_eq_ofNat,
    Int.toNat_of_nonneg (floor_mul_nonneg nonneg rest)]

section Represents

variable (represents : Represents formulas values sketch)
include represents

/-- The formulas spread positive values over the ordered buckets. -/
theorem Represents.spread
    (monotone : formulas.Monotone sketch.relativeAccuracy) :
    Spread (fun low high => low ≤ high)
      (formulas.index sketch.relativeAccuracy) (ascending values)
      notPositive (orderedKeys sketch.buckets) where
  lower := by
    intro low _ high _ below seen
    have zero : high ≤ 0 := of_decide_eq_true seen
    exact decide_eq_true (Int64.le_trans below zero)
  mono := by
    intro low high below lowUnseen _
    exact monotone low high (notPositive_eq_false_iff.mp lowUnseen) below
  ordered := orderedKeys_pairwise sketch.buckets
  covered := by
    intro value member unseen
    rw [mem_orderedKeys, represents.buckets]
    exact ⟨value, (ascending_perm values).mem_iff.mp member,
      notPositive_eq_false_iff.mp unseen, rfl⟩

/-- The loop finds the bucket of the positive value at the rank. -/
theorem Represents.search_eq
    (monotone : formulas.Monotone sketch.relativeAccuracy)
    (bound : values.length < 2 ^ 63) {rank : Nat}
    (found : (ascending values)[rank]? = some value) (positive : 0 < value) :
    sketch.search (Int64.ofNat rank) (Sketch.orderedKeys sketch.buckets) =
      some (formulas.index sketch.relativeAccuracy value) := by
  have length : (ascending values).length = values.length :=
    (ascending_perm values).length_eq
  rw [search, represents.zeroCount, ← (ascending_perm values).countP_eq]
  apply firstOver_eq_bucket ofNat_add _
    (represents.spread monotone) (ascending_pairwise values) found
    (notPositive_eq_false_iff.mpr positive)
  · intro index _
    rw [represents.weights, (ascending_perm values).countP_eq]
  · intro left right leftBound rightBound
    apply Word.ofNat_lt_ofNat_iff
    · omega
    · omega

/-- A value that is not positive lies before the counted zeros end. -/
theorem Represents.rank_lt_zeroCount_iff
    (bound : values.length < 2 ^ 63) {rank : Nat}
    (found : (ascending values)[rank]? = some value) :
    ofNat rank < sketch.zeroCount ↔ value ≤ 0 := by
  have lower : Lower (fun low high : Int64 => low ≤ high)
      (ascending values) notPositive := by
    intro low _ high _ below seen
    have zero : high ≤ 0 := of_decide_eq_true seen
    exact decide_eq_true (Int64.le_trans below zero)
  have length : (ascending values).length = values.length :=
    (ascending_perm values).length_eq
  have position := (List.getElem?_eq_some_iff.mp found).1
  have zeros : values.countP notPositive ≤ values.length := countP_le_length
  rw [represents.zeroCount, Word.ofNat_lt_ofNat_iff (by omega) (by omega),
    ← (ascending_perm values).countP_eq,
    ← lower.mem_iff_lt_countP (ascending_pairwise values) found]
  exact decide_eq_true_iff

end Represents

/-- The bucket of a positive value, and zero for the others. -/
def reported (formulas : Formulas) (accuracy : ℚ) (value : Int64) : Int64 :=
  if 0 < value then formulas.value accuracy (formulas.index accuracy value)
  else 0

/-- What a quantile answers, and that its loop finds a bucket. -/
theorem Represents.quantile_eq
    (represents : Represents formulas values sketch) (cached : sketch.Cached)
    (monotone : formulas.Monotone sketch.relativeAccuracy)
    (bound : values.length < 2 ^ 63)
    {quantile : ℚ} (nonneg : 0 ≤ quantile) (atMost : quantile ≤ 1)
    (found : (ascending values)[rankIn quantile values.length]? =
      some value) :
    (sketch.quantile formulas quantile).2 =
        .ok (reported formulas sketch.relativeAccuracy value) ∧
      (0 < value → sketch.sortedIndexes.1.search
            (Sketch.rankOf quantile sketch.count) sketch.sortedIndexes.2 =
          some (formulas.index sketch.relativeAccuracy value)) := by
  have length : (ascending values).length = values.length :=
    (ascending_perm values).length_eq
  have position := (List.getElem?_eq_some_iff.mp found).1
  have nonempty : 0 < values.length := by omega
  have valid : ¬ (quantile < 0 ∨ 1 < quantile) := by
    rintro (negative | above)
    · exact absurd nonneg (not_le_of_gt negative)
    · exact absurd atMost (not_le_of_gt above)
  have counted : sketch.count ≠ 0 := by
    rw [represents.count]
    intro zero
    have none := (Word.ofNat_eq_zero_iff (by omega)).mp zero
    omega
  have rank : rankOf quantile sketch.count =
      ofNat (rankIn quantile values.length) := by
    rw [represents.count]
    exact rankOf_eq nonneg nonempty bound
  have zeros := represents.rank_lt_zeroCount_iff bound found
  rcases sortedIndexes_fst sketch with ⟨sorted, stale, ordered⟩
  have searched : 0 < value → sketch.sortedIndexes.1.search
          (rankOf quantile sketch.count) sketch.sortedIndexes.2 =
        some (formulas.index sketch.relativeAccuracy value) := by
    intro positive
    rw [rank, sortedIndexes_snd cached, ordered]
    exact (represents.reorder sorted stale).search_eq monotone bound found
      positive
  refine ⟨?_, searched⟩
  simp only [Sketch.quantile, if_neg valid, if_neg counted]
  by_cases positive : 0 < value
  · have notZero : ¬ Sketch.rankOf quantile sketch.count <
        sketch.zeroCount := by
      rw [rank]
      exact fun before => Int64.not_le.mpr positive (zeros.mp before)
    rw [if_neg notZero, searched positive, reported, if_pos positive, ordered]
  · have zero : rankOf quantile sketch.count < sketch.zeroCount := by
      rw [rank]
      exact zeros.mpr (Int64.not_lt.mp positive)
    rw [if_pos zero, reported, if_neg positive]

/-! ## Any number of sketches -/

/-- A sketch with the values it represents. -/
structure Sampled where
  sketch : Sketch
  values : List Int64

/-- A call on one of several sketches. -/
inductive SketchCall where
  | new
  | add (position : Nat) (value : Int64)
  | merge (position other : Nat)
  | clone (position : Nat)
  | quantile (position : Nat) (quantile : ℚ)

/-- One call on a shelf of sketches; a position without a sketch is none. -/
def callSketch
    (formulas : Formulas) (accuracy : ℚ) (shelf : List Sampled) :
    SketchCall → Option (List Sampled)
  | .new =>
    match Sketch.new accuracy with
    | .error _ => none
    | .ok sketch => some (shelf ++ [⟨sketch, []⟩])
  | .add position value => do
      let entry ← shelf[position]?
      some (shelf.set position
        ⟨entry.sketch.add formulas value, entry.values ++ [value]⟩)
  | .merge position other => do
      let entry ← shelf[position]?
      let operand ← shelf[other]?
      some (shelf.set position ⟨(entry.sketch.merge (some operand.sketch)).1,
          entry.values ++ operand.values⟩)
  | .clone position => do
      let entry ← shelf[position]?
      some (shelf ++ [⟨entry.sketch.clone, entry.values⟩])
  | .quantile position quantile => do
      let entry ← shelf[position]?
      some (shelf.set position
        ⟨(entry.sketch.quantile formulas quantile).1, entry.values⟩)

/-- Sketches of one accuracy under any calls. -/
def sketchMachine (formulas : Formulas) (accuracy : ℚ) :
    Machine (List Sampled) SketchCall where
  initial shelf := shelf = []
  step := callSketch formulas accuracy

/-- What every call keeps of every sketch. -/
structure Sampled.Kept
    (formulas : Formulas) (accuracy : ℚ) (entry : Sampled) : Prop where
  accuracy_eq : entry.sketch.relativeAccuracy = accuracy
  cached : entry.sketch.Cached
  represents : entry.values.length < 2 ^ 63 →
    Represents formulas entry.values entry.sketch

namespace Sampled.Kept

variable {accuracy : ℚ} {entry operand : Sampled}

theorem new (built : Sketch.new accuracy = .ok sketch) :
    Sampled.Kept formulas accuracy ⟨sketch, []⟩ where
  accuracy_eq := by
    rw [Sketch.new] at built
    split at built
    · cases built
    · cases built
      rfl
  cached := by
    rw [Sketch.new] at built
    split at built
    · cases built
    · cases built
      intro _ slice impossible
      cases impossible
  represents _ := represents_new built

section Kept

variable (kept : entry.Kept formulas accuracy)
include kept

theorem add (value : Int64) : Sampled.Kept formulas accuracy
      ⟨entry.sketch.add formulas value, entry.values ++ [value]⟩ where
  accuracy_eq := by
    rw [← kept.accuracy_eq]
    simp only [Sketch.add]
    split <;> rfl
  cached := kept.cached.add formulas value
  represents := by
    intro bound
    rw [length_append, length_singleton] at bound
    exact (kept.represents (Nat.lt_of_succ_lt bound)).add value

theorem merge (other : operand.Kept formulas accuracy) :
    Sampled.Kept formulas accuracy
      ⟨(entry.sketch.merge (some operand.sketch)).1,
        entry.values ++ operand.values⟩ where
  accuracy_eq := by
    rw [← kept.accuracy_eq]
    simp only [Sketch.merge]
    split
    · rfl
    · split
      · rfl
      · rcases Sketch.foldl_raise_frame operand.sketch.buckets.entries
          entry.sketch with ⟨buckets, stale, raised⟩
        rw [raised]
  cached := kept.cached.merge _
  represents := by
    intro bound
    rw [length_append] at bound
    have agrees : operand.sketch.relativeAccuracy =
        entry.sketch.relativeAccuracy :=
      other.accuracy_eq.trans kept.accuracy_eq.symm
    apply (kept.represents (by omega)).merge (other.represents (by omega))
    · omega
    · simp only [Sketch.merge, agrees, ne_eq, not_true, if_false]
      split <;> rfl

theorem clone : Sampled.Kept formulas accuracy
      ⟨entry.sketch.clone, entry.values⟩ where
  accuracy_eq := kept.accuracy_eq
  cached := entry.sketch.cached_clone
  represents bound := (kept.represents bound).reorder none false

theorem sortedIndexes : Sampled.Kept formulas accuracy
      ⟨entry.sketch.sortedIndexes.1, entry.values⟩ := by
  have cached := kept.cached.sortedIndexes
  rcases sortedIndexes_fst entry.sketch with ⟨sorted, stale, same⟩
  rw [same] at cached ⊢
  exact ⟨kept.accuracy_eq, cached,
    fun bound => (kept.represents bound).reorder sorted stale⟩

theorem quantile (quantile : ℚ) : Sampled.Kept formulas accuracy
      ⟨(entry.sketch.quantile formulas quantile).1, entry.values⟩ := by
  simp only [Sketch.quantile]
  split
  · exact kept
  · split
    · exact kept
    · split
      · exact kept
      · split
        · exact kept.sortedIndexes
        · exact kept.sortedIndexes

end Kept

end Sampled.Kept

theorem kept_of_reachable {accuracy : ℚ} {shelf : List Sampled}
    (reachable : (sketchMachine formulas accuracy).Reachable shelf) :
    ∀ entry ∈ shelf, entry.Kept formulas accuracy := by
  apply reachable.invariant
  · rintro state rfl entry impossible
    cases impossible
  · intro before call after _ kept step
    -- One sketch is appended or replaced, and the others stay.
    have appended : ∀ fresh : Sampled, fresh.Kept formulas accuracy →
        ∀ entry ∈ before ++ [fresh], entry.Kept formulas accuracy := by
      intro fresh keeps entry member
      rcases mem_append.mp member with old | last
      · exact kept entry old
      · rw [mem_singleton.mp last]
        exact keeps
    have replaced : ∀ (position : Nat) (fresh : Sampled),
        fresh.Kept formulas accuracy → ∀ entry ∈ before.set position fresh,
            entry.Kept formulas accuracy := by
      intro position fresh keeps entry member
      rcases mem_or_eq_of_mem_set member with old | rfl
      · exact kept entry old
      · exact keeps
    cases call with
    | new =>
      simp only [sketchMachine, callSketch] at step
      split at step
      · cases step
      · rename_i sketch built
        cases step
        exact appended _ (Sampled.Kept.new built)
    | add position value =>
      rcases bind_eq_some_iff.mp step with ⟨entry, found, ran⟩
      cases ran
      exact replaced _ _ ((kept entry (mem_of_getElem? found)).add value)
    | merge position other =>
      rcases bind_eq_some_iff.mp step with ⟨entry, found, rest⟩
      rcases bind_eq_some_iff.mp rest with ⟨operand, second, ran⟩
      cases ran
      exact replaced _ _
        ((kept entry (mem_of_getElem? found)).merge
          (kept operand (mem_of_getElem? second)))
    | clone position =>
      rcases bind_eq_some_iff.mp step with ⟨entry, found, ran⟩
      cases ran
      exact appended _ (kept entry (mem_of_getElem? found)).clone
    | quantile position quantile =>
      rcases bind_eq_some_iff.mp step with ⟨entry, found, ran⟩
      cases ran
      exact replaced _ _
        ((kept entry (mem_of_getElem? found)).quantile quantile)

/-! ## What a sketch answers -/

/-- The sketch answers every question from the values it represents. -/
structure Answers
    (formulas : Formulas) (accuracy : ℚ) (values : List Int64)
    (sketch : Sketch) : Prop where
  count : sketch.count.toInt = values.length
  empty : values = [] → sketch.max = 0 ∧ sketch.min = 0
  max : values ≠ [] →
    sketch.max ∈ values ∧ ∀ value ∈ values, value ≤ sketch.max
  min : values ≠ [] →
    sketch.min ∈ values ∧ ∀ value ∈ values, sketch.min ≤ value
  quantile_empty : values = [] → ∀ quantile : ℚ, 0 ≤ quantile → quantile ≤ 1 →
      (sketch.quantile formulas quantile).2 = .ok 0
  /-- The element of the rank: zero if it is not positive, else its bucket. -/
  quantile : values ≠ [] → ∀ quantile : ℚ, 0 ≤ quantile → quantile ≤ 1 →
      ∃ value,
        (ascending values)[rankIn quantile values.length]? = some value ∧
          (sketch.quantile formulas quantile).2 = .ok (if 0 < value then
              formulas.value accuracy (formulas.index accuracy value)
            else 0)
  /-- A loop that is entered finds an index. -/
  loop : ∀ quantile : ℚ, 0 ≤ quantile → quantile ≤ 1 → sketch.count ≠ 0 →
      ¬ Sketch.rankOf quantile sketch.count < sketch.zeroCount →
        (sketch.sortedIndexes.1.search (Sketch.rankOf quantile sketch.count)
            sketch.sortedIndexes.2).isSome = true
  ordering : sketch.sortedIndexes.2 = Sketch.orderedKeys sketch.buckets

namespace Represents

theorem count_eq_zero_iff (represents : Represents formulas values sketch)
    (bound : values.length < 2 ^ 63) : sketch.count = 0 ↔ values = [] := by
  rw [represents.count, Word.ofNat_eq_zero_iff (by omega)]
  exact length_eq_zero_iff

theorem exists_element
    (nonempty : values ≠ []) {quantile : ℚ} (atMost : quantile ≤ 1) :
    ∃ value,
      (ascending values)[rankIn quantile values.length]? = some value := by
  have inside : rankIn quantile values.length < (ascending values).length := by
    rw [(ascending_perm values).length_eq]
    exact rankIn_lt atMost (length_pos_iff.mpr nonempty)
  exact ⟨_, getElem?_eq_getElem inside⟩

theorem answers
    (represents : Represents formulas values sketch) (cached : sketch.Cached)
    (monotone : formulas.Monotone sketch.relativeAccuracy)
    (bound : values.length < 2 ^ 63) :
    Answers formulas sketch.relativeAccuracy values sketch := by
  have counted := represents.count_eq_zero_iff bound
  constructor
  · rw [represents.count, toInt_ofNat_of_lt bound]
  · intro empty
    have zero := counted.mpr empty
    exact ⟨if_pos zero, if_pos zero⟩
  · intro nonempty
    rw [Sketch.max, if_neg fun zero => nonempty (counted.mp zero)]
    rcases represents.greatest.attained with listed | ⟨empty, _⟩
    · exact ⟨listed, represents.greatest.bound⟩
    · exact absurd empty nonempty
  · intro nonempty
    rw [Sketch.min, if_neg fun zero => nonempty (counted.mp zero)]
    rcases represents.least.attained with listed | ⟨empty, _⟩
    · exact ⟨listed, represents.least.bound⟩
    · exact absurd empty nonempty
  · intro empty quantile nonneg atMost
    have valid : ¬ (quantile < 0 ∨ 1 < quantile) :=
      not_or.mpr ⟨not_lt_of_ge nonneg, not_lt_of_ge atMost⟩
    simp only [Sketch.quantile, if_neg valid, if_pos (counted.mpr empty)]
  · intro nonempty quantile nonneg atMost
    rcases exists_element nonempty atMost with ⟨value, found⟩
    have answer := (represents.quantile_eq cached monotone bound nonneg
      atMost found).1
    exact ⟨value, found, answer⟩
  · intro quantile nonneg atMost some notZero
    have nonempty : values ≠ [] := fun empty => some (counted.mpr empty)
    rcases exists_element nonempty atMost with ⟨value, found⟩
    have rank : rankOf quantile sketch.count =
        ofNat (rankIn quantile values.length) := by
      rw [represents.count]
      exact rankOf_eq nonneg (length_pos_iff.mpr nonempty) bound
    rw [rank, represents.rank_lt_zeroCount_iff bound found] at notZero
    rw [(represents.quantile_eq cached monotone bound nonneg atMost
      found).2 (Int64.not_le.mp notZero)]
    rfl
  · exact sortedIndexes_snd cached

end Represents

/-- Two sketches of the same values in another order answer alike. -/
theorem Answers.agree
    {accuracy : ℚ} {left right : List Int64} {first second : Sketch}
    (leftAnswers : Answers formulas accuracy left first)
    (rightAnswers : Answers formulas accuracy right second)
    (same : left.Perm right) :
    first.count = second.count ∧ first.max = second.max ∧
      first.min = second.min ∧ ∀ quantile : ℚ, 0 ≤ quantile → quantile ≤ 1 →
        (first.quantile formulas quantile).2 =
          (second.quantile formulas quantile).2 := by
  have count : first.count = second.count := by
    apply toInt_inj.mp
    rw [leftAnswers.count, rightAnswers.count, same.length_eq]
  by_cases empty : left = []
  · have other : right = [] := by
      rw [empty] at same
      exact same.nil_eq.symm
    have ours := leftAnswers.empty empty
    have theirs := rightAnswers.empty other
    refine ⟨count, ours.1.trans theirs.1.symm, ours.2.trans theirs.2.symm, ?_⟩
    intro quantile nonneg atMost
    rw [leftAnswers.quantile_empty empty quantile nonneg atMost,
      rightAnswers.quantile_empty other quantile nonneg atMost]
  · have other : right ≠ [] := by
      intro nothing
      rw [nothing] at same
      exact empty same.eq_nil
    have ourMax := leftAnswers.max empty
    have theirMax := rightAnswers.max other
    have ourMin := leftAnswers.min empty
    have theirMin := rightAnswers.min other
    refine ⟨count, ?_, ?_, ?_⟩
    · exact Int64.le_antisymm (theirMax.2 _ (same.mem_iff.mp ourMax.1))
        (ourMax.2 _ (same.mem_iff.mpr theirMax.1))
    · exact Int64.le_antisymm (ourMin.2 _ (same.mem_iff.mpr theirMin.1))
        (theirMin.2 _ (same.mem_iff.mp ourMin.1))
    · intro quantile nonneg atMost
      rcases leftAnswers.quantile empty quantile nonneg atMost with
        ⟨value, found, ours⟩
      rcases rightAnswers.quantile other quantile nonneg atMost with
        ⟨otherValue, otherFound, theirs⟩
      rw [ascending_congr same, same.length_eq, otherFound] at found
      rw [ours, theirs, some.inj found]

/--
In every run of calls on sketches of one accuracy, for any monotone index and
any value formula: a sketch that represents fewer than `2^63` values answers
from those values, and two sketches of the same values, in whatever order and
by whatever merges they came, answer alike.
-/
theorem quantiles_select_the_rank
    (formulas : Formulas) (accuracy : ℚ)
    (monotone : formulas.Monotone accuracy) (shelf : List Sampled)
    (reachable : (sketchMachine formulas accuracy).Reachable shelf) :
    (∀ entry ∈ shelf, entry.values.length < 2 ^ 63 →
      Answers formulas accuracy entry.values entry.sketch) ∧
      ∀ left ∈ shelf, ∀ right ∈ shelf,
        left.values.length < 2 ^ 63 → left.values.Perm right.values →
          left.sketch.count = right.sketch.count ∧
            left.sketch.max = right.sketch.max ∧
            left.sketch.min = right.sketch.min ∧
            ∀ quantile : ℚ, 0 ≤ quantile → quantile ≤ 1 →
              (left.sketch.quantile formulas quantile).2 =
                (right.sketch.quantile formulas quantile).2 := by
  have answers : ∀ entry ∈ shelf, entry.values.length < 2 ^ 63 →
      Answers formulas accuracy entry.values entry.sketch := by
    intro entry member bound
    have kept := kept_of_reachable reachable entry member
    rw [← kept.accuracy_eq]
    apply (kept.represents bound).answers kept.cached _ bound
    rw [kept.accuracy_eq]
    exact monotone
  refine ⟨answers, ?_⟩
  intro left leftMember right rightMember bound same
  have otherBound : right.values.length < 2 ^ 63 := by
    rw [← same.length_eq]
    exact bound
  exact (answers left leftMember bound).agree
    (answers right rightMember otherBound) same

/-- A scale with one bucket for every ten values. -/
def decimal : Formulas where
  index _ value := value.toInt / 10
  value _ index := Int64.ofInt (index * 10)

theorem decimal_monotone (accuracy : ℚ) : decimal.Monotone accuracy := by
  intro low high _ below
  exact Int.ediv_le_ediv (by decide) (le_iff_toInt_le.mp below)

def onePercent : ℚ := mkRat 1 100

/-- Two sketches, one merged into the other and then into itself. -/
def exampleCalls : List SketchCall :=
  [.new, .new, .add 0 25, .add 0 (-3), .add 1 71, .quantile 0 1, .merge 0 1,
    .merge 0 0, .clone 0]

def exampleShelf : List Sampled :=
  ((sketchMachine decimal onePercent).run [] exampleCalls).getD []

theorem exampleShelf_reachable :
    (sketchMachine decimal onePercent).Reachable exampleShelf :=
  @Machine.Reachable.run _ _ _ _ _ exampleCalls
    (Machine.Reachable.start rfl) rfl

theorem quantiles_select_the_rank_example :
    ∃ entry ∈ exampleShelf, entry.values = [25, -3, 71, 25, -3, 71] ∧
      Answers decimal onePercent entry.values entry.sketch := by
  have merged : ∃ entry ∈ exampleShelf,
      entry.values = [25, -3, 71, 25, -3, 71] := by
    decide
  rcases merged with ⟨entry, member, values⟩
  have bound : entry.values.length < 2 ^ 63 := by
    rw [values]
    decide
  exact ⟨entry, member, values,
    (quantiles_select_the_rank decimal onePercent (decimal_monotone _)
      exampleShelf exampleShelf_reachable).1 entry member bound⟩

end Ironclaw.Aggregate
