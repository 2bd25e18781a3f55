import Ironclaw.Aggregate.Aggregator
import Ironclaw.Lib.Rank
import Ironclaw.Lib.Word

/-!
# The quantile sketch

A sketch counts values in buckets of a logarithmic scale, with one counter for
the values that are not positive.  The bucket indexes are sorted lazily: the
sorted slice is kept, and a flag says whether it is out of date.  The formulas
of the scale are a parameter; each sketch uses those of its accuracy.
-/

namespace Ironclaw.Aggregate

open Lib List Int64

variable {first second : List Int64}

def errAccuracyMismatch : Fault :=
  .sentinel
    "aggregate: cannot merge sketches with different relative accuracy"
def errInvalidQuantile : Fault :=
  .sentinel "aggregate: quantile must be in [0,1]"
def errNilSketchOperand : Fault :=
  .sentinel "aggregate: sketch operand is nil"

/-- The formulas of the scale of an accuracy. -/
structure Formulas where
  index : ℚ → Int64 → Int
  value : ℚ → Int → Int64

/-- The index of a greater value is not smaller. -/
def Formulas.Monotone (formulas : Formulas) (accuracy : ℚ) : Prop :=
  ∀ low high : Int64, 0 < low → low ≤ high →
    formulas.index accuracy low ≤ formulas.index accuracy high

/-- A slice of indexes, with the capacity of its array. -/
structure Slice where
  elements : List Int
  capacity : Nat
deriving DecidableEq, Repr

/-- Counts per logarithmic bucket, and the extremes. -/
structure Sketch where
  relativeAccuracy : ℚ
  buckets : GoMap Int Int64
  /-- The sorted indexes; nothing stands for a nil slice. -/
  sorted : Option Slice
  sortedStale : Bool
  zeroCount : Int64
  count : Int64
  maxValue : Int64
  minValue : Int64

/-- The bounds of the 64-bit numbers. -/
def maxInt64 : Int64 := 9223372036854775807
def minInt64 : Int64 := -9223372036854775808

namespace Sketch

variable {sketch : Sketch}

def new (relativeAccuracy : ℚ) : Except Fault Sketch :=
  if relativeAccuracy ≤ 0 ∨ 1 ≤ relativeAccuracy then
    .error errInvalidAccuracy
  else
    .ok {
      relativeAccuracy := relativeAccuracy
      buckets := ∅
      sorted := none
      sortedStale := false
      zeroCount := 0
      count := 0
      maxValue := minInt64
      minValue := maxInt64 }

def max (sketch : Sketch) : Int64 :=
  if sketch.count = 0 then 0 else sketch.maxValue

def min (sketch : Sketch) : Int64 :=
  if sketch.count = 0 then 0 else sketch.minValue

def bucket (sketch : Sketch) (index : Int) : Int64 :=
  (sketch.buckets.lookup index).getD 0

/-- Add to a bucket; a bucket that did not exist makes the order stale. -/
def raise (index : Int) (amount : Int64) (sketch : Sketch) : Sketch :=
  { sketch with
    sortedStale := sketch.sortedStale || !decide (index ∈ sketch.buckets)
    buckets := sketch.buckets.insert index (sketch.bucket index + amount) }

def add (formulas : Formulas) (value : Int64) (sketch : Sketch) : Sketch :=
  let counted := { sketch with
    count := sketch.count + 1
    maxValue := if sketch.maxValue < value then value else sketch.maxValue
    minValue := if value < sketch.minValue then value else sketch.minValue }
  if value ≤ 0 then
    { counted with zeroCount := counted.zeroCount + 1 }
  else
    counted.raise (formulas.index counted.relativeAccuracy value) 1

/-- The bucket indexes in ascending order. -/
def orderedKeys (buckets : GoMap Int Int64) : List Int :=
  buckets.keys.insertionSort fun left right => left ≤ right

/-- The array to sort into: the old one, if it has room for all indexes. -/
def room (need : Nat) (sorted : Option Slice) : Option Slice :=
  if (sorted.elim 0 Slice.capacity) < need then some ⟨[], need⟩
  else sorted.map fun slice => { slice with elements := [] }

def sortedIndexes (sketch : Sketch) : Sketch × List Int :=
  match sketch.sortedStale, sketch.sorted with
  | false, some slice => (sketch, slice.elements)
  | _, sorted =>
    -- Without buckets a nil slice stays nil.
    let filled := (room (GoMap.size sketch.buckets) sorted).map
      fun slice => { slice with elements := orderedKeys sketch.buckets }
    ({ sketch with sorted := filled, sortedStale := false },
      filled.elim [] Slice.elements)

/-- Merge a sketch into another one; a nil operand is nothing. -/
def merge (other : Option Sketch) (sketch : Sketch) :
    Sketch × Option Fault :=
  match other with
  | none => (sketch, some errNilSketchOperand)
  | some other =>
    if other.relativeAccuracy ≠ sketch.relativeAccuracy then
      (sketch, some errAccuracyMismatch)
    else if other.count = 0 then (sketch, none)
    else
      let raised := other.buckets.entries.foldl
        (fun sketch entry => sketch.raise entry.1 entry.2) sketch
      ({ raised with
          zeroCount := raised.zeroCount + other.zeroCount
          count := raised.count + other.count
          maxValue :=
            if raised.maxValue < other.maxValue then other.maxValue
            else raised.maxValue
          minValue :=
            if other.minValue < raised.minValue then other.minValue
            else raised.minValue },
        none)

/-- The rank of a quantile, as the number of values before it. -/
def rankOf (quantile : ℚ) (count : Int64) : Int64 :=
  Int64.ofInt (quantile * (count - 1).toInt).floor

/-- The loop over the sorted indexes: the first one above the rank. -/
def search (rank : Int64) (indexes : List Int) (sketch : Sketch) :
    Option Int :=
  firstOver sketch.bucket rank sketch.zeroCount indexes

def quantile (formulas : Formulas) (quantile : ℚ) (sketch : Sketch) :
    Sketch × Except Fault Int64 :=
  if quantile < 0 ∨ 1 < quantile then (sketch, .error errInvalidQuantile)
  else if sketch.count = 0 then (sketch, .ok 0)
  else
    let rank := rankOf quantile sketch.count
    if rank < sketch.zeroCount then (sketch, .ok 0)
    else
      let (sketch, indexes) := sketch.sortedIndexes
      match sketch.search rank indexes with
      | some index =>
        (sketch, .ok (formulas.value sketch.relativeAccuracy index))
      | none => (sketch, .ok sketch.maxValue)

def clone (sketch : Sketch) : Sketch :=
  { sketch with sorted := none, sortedStale := false }

/-! ## The order kept is the order of the buckets -/

/-- A slice that is not marked stale lists the buckets in order. -/
def Cached (sketch : Sketch) : Prop :=
  sketch.sortedStale = false → ∀ slice, sketch.sorted = some slice →
    slice.elements = orderedKeys sketch.buckets

theorem mem_orderedKeys {buckets : GoMap Int Int64} {index : Int} :
    index ∈ orderedKeys buckets ↔ index ∈ buckets :=
  (perm_insertionSort _ _).mem_iff

theorem orderedKeys_pairwise (buckets : GoMap Int Int64) :
    (orderedKeys buckets).Pairwise (· < ·) := by
  have ordered : (orderedKeys buckets).Pairwise (· ≤ ·) :=
    pairwise_insertionSort _ _
  have distinct : (orderedKeys buckets).Pairwise (· ≠ ·) :=
    (perm_insertionSort _ _).nodup_iff.mpr buckets.nodupKeys
  exact (ordered.and distinct).imp fun both => lt_of_le_of_ne both.1 both.2

theorem orderedKeys_congr {left right : GoMap Int Int64}
    (same : ∀ index, index ∈ left ↔ index ∈ right) :
    orderedKeys left = orderedKeys right := by
  have keys : left.keys.Perm right.keys :=
    (perm_ext_iff_of_nodup left.nodupKeys right.nodupKeys).mpr same
  have ordered : (orderedKeys left).Perm (orderedKeys right) :=
    (perm_insertionSort _ _).trans (keys.trans (perm_insertionSort _ _).symm)
  exact ordered.eq_of_pairwise (fun _ _ _ _ => le_antisymm)
    (pairwise_insertionSort _ _) (pairwise_insertionSort _ _)

theorem Cached.raise (cached : sketch.Cached) (index : Int) (amount : Int64) :
    (sketch.raise index amount).Cached := by
  intro fresh slice kept
  have flags : sketch.sortedStale = false ∧ index ∈ sketch.buckets := by
    simpa [Sketch.raise] using fresh
  have before := cached flags.1 slice kept
  rw [before]
  apply orderedKeys_congr
  intro other
  show other ∈ sketch.buckets ↔ other ∈ sketch.buckets.insert index _
  rw [AList.mem_insert]
  constructor
  · exact Or.inr
  · rintro (rfl | known)
    · exact flags.2
    · exact known

theorem Cached.foldl_raise
    (entries : List (Sigma fun _ : Int => Int64)) (cached : sketch.Cached) :
    (entries.foldl (fun sketch entry => sketch.raise entry.1 entry.2)
      sketch).Cached := by
  induction entries generalizing sketch with
  | nil => exact cached
  | cons entry rest induction => exact induction (cached.raise _ _)

theorem Cached.add
    (cached : sketch.Cached) (formulas : Formulas) (value : Int64) :
    (sketch.add formulas value).Cached := by
  rw [Sketch.add]
  split
  · exact cached
  · exact Cached.raise cached _ _

theorem Cached.merge (cached : sketch.Cached) (other : Option Sketch) :
    (sketch.merge other).1.Cached := by
  cases other with
  | none => exact cached
  | some other =>
    simp only [Sketch.merge]
    split
    · exact cached
    · split
      · exact cached
      · exact Cached.foldl_raise _ cached

theorem cached_clone (sketch : Sketch) : sketch.clone.Cached := by
  intro _ slice impossible
  cases impossible

/-- A new order is that of the buckets. -/
theorem elements_room (buckets : GoMap Int Int64) (sorted : Option Slice) :
    ((room (GoMap.size buckets) sorted).map fun slice =>
      { slice with elements := orderedKeys buckets }).elim []
        Slice.elements = orderedKeys buckets := by
  cases space : room (GoMap.size buckets) sorted with
  | some slice => rfl
  | none =>
    -- A nil slice is kept only when there is nothing to sort.
    rw [room] at space
    split at space
    · cases space
    · rename_i enough
      have nothing : sorted = none := Option.map_eq_none_iff.mp space
      rw [nothing] at enough
      have empty : GoMap.size buckets = 0 :=
        Nat.le_zero.mp (Nat.le_of_not_lt enough)
      rw [GoMap.eq_empty_of_size empty]
      rfl

theorem sortedIndexes_snd (cached : sketch.Cached) :
    sketch.sortedIndexes.2 = orderedKeys sketch.buckets := by
  rw [sortedIndexes]
  split
  · next slice fresh kept => exact cached fresh slice kept
  · exact elements_room _ _

theorem sortedIndexes_fst (sketch : Sketch) :
    ∃ sorted stale, sketch.sortedIndexes.1 =
      { sketch with sorted := sorted, sortedStale := stale } := by
  rw [sortedIndexes]
  split
  · exact ⟨sketch.sorted, sketch.sortedStale, rfl⟩
  · exact ⟨_, _, rfl⟩

theorem Cached.sortedIndexes (cached : sketch.Cached) :
    sketch.sortedIndexes.1.Cached := by
  rw [Sketch.sortedIndexes]
  split
  · exact cached
  · intro _ slice kept
    rcases Option.map_eq_some_iff.mp kept with ⟨space, _, rfl⟩
    rfl

/-! ## Raising buckets -/

theorem bucket_raise (index other : Int) (amount : Int64) (sketch : Sketch) :
    (sketch.raise index amount).bucket other =
      sketch.bucket other + if other = index then amount else 0 := by
  simp only [raise, bucket]
  by_cases same : other = index
  · rw [same, AList.lookup_insert, if_pos rfl]
    rfl
  · rw [AList.lookup_insert_ne same, if_neg same, add_zero]

theorem mem_raise {index other : Int} {amount : Int64} :
    other ∈ (sketch.raise index amount).buckets ↔
      other = index ∨ other ∈ sketch.buckets :=
  AList.mem_insert _

theorem foldl_raise_frame
    (entries : List (Sigma fun _ : Int => Int64)) (sketch : Sketch) :
    ∃ buckets stale,
      entries.foldl (fun sketch entry => sketch.raise entry.1 entry.2)
          sketch =
        { sketch with buckets := buckets, sortedStale := stale } := by
  induction entries generalizing sketch with
  | nil => exact ⟨sketch.buckets, sketch.sortedStale, rfl⟩
  | cons entry rest induction =>
    rcases induction (sketch.raise entry.1 entry.2) with
      ⟨buckets, stale, raised⟩
    exact ⟨buckets, stale, raised⟩

theorem bucket_foldl_raise {entries : List (Sigma fun _ : Int => Int64)}
    (distinct : entries.NodupKeys) (sketch : Sketch) (index : Int) :
    (entries.foldl (fun sketch entry => sketch.raise entry.1 entry.2)
        sketch).bucket index =
      sketch.bucket index + (entries.dlookup index).getD 0 := by
  induction entries generalizing sketch with
  | nil => exact (add_zero _).symm
  | cons entry rest induction =>
    rcases entry with ⟨key, amount⟩
    have parts := nodupKeys_cons.mp distinct
    rw [foldl_cons, induction parts.2, bucket_raise, add_assoc]
    congr 1
    by_cases same : index = key
    · rw [same, dlookup_cons_eq, dlookup_eq_none.mpr parts.1, if_pos rfl]
      exact add_zero _
    · rw [dlookup_cons_ne _ _ same, if_neg same, zero_add]

theorem mem_foldl_raise
    (entries : List (Sigma fun _ : Int => Int64)) (sketch : Sketch)
    (index : Int) :
    index ∈ (entries.foldl (fun sketch entry =>
        sketch.raise entry.1 entry.2) sketch).buckets ↔
      index ∈ sketch.buckets ∨ index ∈ entries.keys := by
  induction entries generalizing sketch with
  | nil => simp
  | cons entry rest induction =>
    rw [foldl_cons, induction, mem_raise, keys_cons, mem_cons]
    tauto

end Sketch

/-! ## Greatest and least values -/

/-- The best of some values in an order, or the start if there are none. -/
structure Extreme
    (le : Int64 → Int64 → Prop) (start : Int64) (values : List Int64)
    (best : Int64) : Prop where
  bound : ∀ value ∈ values, le value best
  attained : best ∈ values ∨ values = [] ∧ best = start

theorem extreme_nil (le : Int64 → Int64 → Prop) (start : Int64) :
    Extreme le start [] start where
  bound := by
    intro value impossible
    cases impossible
  attained := Or.inr ⟨rfl, rfl⟩

theorem extreme_singleton
    {le : Int64 → Int64 → Prop} (reflexive : ∀ value, le value value)
    (start value : Int64) : Extreme le start [value] value where
  bound := by
    intro other member
    rw [mem_singleton.mp member]
    exact reflexive value
  attained := Or.inl (mem_singleton_self value)

theorem Extreme.perm {le : Int64 → Int64 → Prop} {start best : Int64}
    (extreme : Extreme le start first best) (same : first.Perm second) :
    Extreme le start second best where
  bound value member := extreme.bound value (same.mem_iff.mpr member)
  attained := by
    rcases extreme.attained with listed | ⟨none, isStart⟩
    · exact Or.inl (same.mem_iff.mp listed)
    · rw [none] at same
      exact Or.inr ⟨same.nil_eq.symm, isStart⟩

section Orders

variable {le : Int64 → Int64 → Prop} {start : Int64}
variable
    (transitive : ∀ first second third,
      le first second → le second third → le first third)
    (antisymmetric : ∀ first second,
      le first second → le second first → first = second)
    (least : ∀ value, le start value)
include transitive antisymmetric least

/-- A best that is not beaten by the best of more values stays the best. -/
theorem Extreme.append_of_le
    {left right : Int64} (leftBest : Extreme le start first left)
    (rightBest : Extreme le start second right) (beaten : le right left) :
    Extreme le start (first ++ second) left := by
  constructor
  · intro value member
    rcases mem_append.mp member with earlier | later
    · exact leftBest.bound value earlier
    · exact transitive _ _ _ (rightBest.bound value later) beaten
  · rcases leftBest.attained with listed | ⟨none, isStart⟩
    · exact Or.inl (mem_append_left _ listed)
    · -- Without values on the left, the right best is the start too.
      have same : right = left :=
        antisymmetric _ _ beaten (isStart ▸ least right)
      rw [none, nil_append, ← same]
      rcases rightBest.attained with listed | ⟨nothing, rightStart⟩
      · exact Or.inl listed
      · exact Or.inr ⟨nothing, rightStart⟩

theorem Extreme.append
    {left right : Int64} (leftBest : Extreme le start first left)
    (rightBest : Extreme le start second right) {better : Prop}
    [Decidable better] (taken : better → le left right)
    (kept : ¬ better → le right left) :
    Extreme le start (first ++ second) (if better then right else left) := by
  split
  · rename_i chosen
    apply Extreme.perm _ perm_append_comm
    exact rightBest.append_of_le transitive antisymmetric least leftBest
      (taken chosen)
  · rename_i chosen
    exact leftBest.append_of_le transitive antisymmetric least rightBest
      (kept chosen)

end Orders

/-- The greatest of some values, or the least number. -/
abbrev Greatest : List Int64 → Int64 → Prop :=
  Extreme (fun low high => low ≤ high) minInt64

/-- The least of some values, or the greatest number. -/
abbrev Least : List Int64 → Int64 → Prop :=
  Extreme (fun high low => low ≤ high) maxInt64

theorem minInt64_le (value : Int64) : minInt64 ≤ value :=
  le_iff_toInt_le.mpr (le_toInt value)

theorem le_maxInt64 (value : Int64) : value ≤ maxInt64 := by
  have bound := toInt_lt value
  exact le_iff_toInt_le.mpr (Int.le_of_lt_add_one bound)

theorem Greatest.append {left right : Int64}
    (leftBest : Greatest first left) (rightBest : Greatest second right) :
    Greatest (first ++ second) (if left < right then right else left) := by
  apply Extreme.append _ _ minInt64_le leftBest rightBest
  · intro less
    exact Int64.le_of_lt less
  · intro notLess
    exact Int64.not_lt.mp notLess
  · intro low middle high
    exact Int64.le_trans
  · intro low high
    exact Int64.le_antisymm

theorem Least.append {left right : Int64}
    (leftBest : Least first left) (rightBest : Least second right) :
    Least (first ++ second) (if right < left then right else left) := by
  apply Extreme.append _ _ le_maxInt64 leftBest rightBest
  · intro less
    exact Int64.le_of_lt less
  · intro notLess
    exact Int64.not_lt.mp notLess
  · intro high middle low upper lower
    exact Int64.le_trans lower upper
  · intro high low upper lower
    exact Int64.le_antisymm lower upper

end Ironclaw.Aggregate
