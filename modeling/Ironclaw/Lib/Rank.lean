import Mathlib.Data.List.Sort

/-!
# Ranks in a sorted list

An element of a sorted list belongs to a lower set exactly when its position
is below the number of elements of that set.  From this follows a search by
running totals: when the elements are spread over buckets in a monotone way,
the first bucket whose running total exceeds a position is the bucket of the
element at that position.

The totals may be of any type into which numbers up to the length of the list
embed, so that a counter of fixed width is covered as long as the list fits.
-/

namespace Ironclaw.Lib

open List

variable {Value Key Amount : Type*}
variable {value : Value}

/-- What lies below an element of the set is in the set. -/
def Lower
    (le : Value → Value → Prop) (values : List Value)
    (inside : Value → Bool) : Prop :=
  ∀ low ∈ values, ∀ high ∈ values,
    le low high → inside high = true → inside low = true

/-- Membership in a lower set, read off the position. -/
theorem Lower.mem_iff_lt_countP
    {le : Value → Value → Prop} {inside : Value → Bool}
    {values : List Value} (lower : Lower le values inside)
    (sorted : values.Pairwise le) {rank : Nat}
    (found : values[rank]? = some value) :
    inside value = true ↔ rank < values.countP inside := by
  induction values generalizing rank with
  | nil => cases found
  | cons head tail induction =>
    have parts := pairwise_cons.mp sorted
    have lowerTail : Lower le tail inside :=
      fun low lowMember high highMember =>
        lower low (mem_cons_of_mem _ lowMember)
          high (mem_cons_of_mem _ highMember)
    -- Outside the set, the head leaves no element of the tail inside.
    have outside : inside head = false → tail.countP inside = 0 := by
      intro out
      apply countP_eq_zero.mpr
      intro other member inner
      have above := lower head mem_cons_self other
        (mem_cons_of_mem _ member) (parts.1 other member) inner
      rw [out] at above
      cases above
    cases rank with
    | zero =>
      have same : head = value := Option.some.inj found
      rw [← same, countP_cons]
      cases membership : inside head with
      | true => simp
      | false => simp [outside membership]
    | succ rank =>
      have later := induction lowerTail parts.2 found
      rw [later, countP_cons]
      cases membership : inside head with
      | true => simp
      | false => simp [outside membership]

/-- The first key whose running total exceeds the rank. -/
def firstOver
    [Add Amount] [LT Amount] [DecidableLT Amount]
    (weight : Key → Amount) (rank : Amount) :
    Amount → List Key → Option Key
  | _, [] => none
  | total, key :: rest =>
    if rank < total + weight key then some key
    else firstOver weight rank (total + weight key) rest

/-- The elements seen once a bucket was passed. -/
def seenWith
    [DecidableEq Key] (bucket : Value → Key) (key : Key)
    (seen : Value → Bool) (value : Value) : Bool :=
  seen value || decide (bucket value = key)

/-- The elements of a bucket that were not seen before. -/
def freshIn
    [DecidableEq Key] (bucket : Value → Key) (key : Key)
    (seen : Value → Bool) (value : Value) : Bool :=
  !seen value && decide (bucket value = key)

theorem countP_seenWith [DecidableEq Key] (bucket : Value → Key) (key : Key)
    (seen : Value → Bool) (values : List Value) :
    values.countP (seenWith bucket key seen) =
      values.countP seen + values.countP (freshIn bucket key seen) := by
  induction values with
  | nil => rfl
  | cons value rest induction =>
    rw [countP_cons, countP_cons, countP_cons, induction, seenWith, freshIn]
    cases seen value <;> by_cases same : bucket value = key <;>
      simp [same] <;> omega

/-- The unseen values are spread over the remaining keys in order. -/
structure Spread
    [LinearOrder Key] (le : Value → Value → Prop) (bucket : Value → Key)
    (values : List Value) (seen : Value → Bool) (keys : List Key) :
    Prop where
  lower : Lower le values seen
  mono : ∀ low high, le low high → seen low = false →
    seen high = false → bucket low ≤ bucket high
  ordered : keys.Pairwise (· < ·)
  covered : ∀ value ∈ values, seen value = false → bucket value ∈ keys

section Buckets

variable [LinearOrder Key]
variable {le : Value → Value → Prop} {bucket : Value → Key}
variable {seen : Value → Bool} {values : List Value}
variable {key : Key} {rest : List Key}

theorem seenWith_eq_false_iff : seenWith bucket key seen value = false ↔
      seen value = false ∧ bucket value ≠ key := by
  simp [seenWith]

/-- With the first key, the seen values are a lower set again. -/
theorem Spread.lower_seenWith
    (spread : Spread le bucket values seen (key :: rest)) :
    Lower le values (seenWith bucket key seen) := by
  intro low lowMember high highMember below inside
  cases lowSeen : seen low with
  | true => simp [seenWith, lowSeen]
  | false =>
    have highUnseen : seen high = false := by
      cases highSeen : seen high with
      | false => rfl
      | true =>
        rw [spread.lower low lowMember high highMember below highSeen]
          at lowSeen
        cases lowSeen
    have highest : bucket high = key := by
      simpa [seenWith, highUnseen] using inside
    have order := spread.mono low high below lowSeen highUnseen
    have listed := spread.covered low lowMember lowSeen
    have least : bucket low = key := by
      rcases mem_cons.mp listed with same | later
      · exact same
      · have above := (pairwise_cons.mp spread.ordered).1 _ later
        rw [highest] at order
        exact absurd above (not_lt_of_ge order)
    simp [seenWith, least]

/-- Passing the first key keeps the rest in order. -/
theorem Spread.pass (spread : Spread le bucket values seen (key :: rest)) :
    Spread le bucket values (seenWith bucket key seen) rest where
  lower := spread.lower_seenWith
  mono := by
    intro low high below lowUnseen highUnseen
    exact spread.mono low high below (seenWith_eq_false_iff.mp lowUnseen).1
      (seenWith_eq_false_iff.mp highUnseen).1
  ordered := (pairwise_cons.mp spread.ordered).2
  covered := by
    intro value member unseen
    have parts := seenWith_eq_false_iff.mp unseen
    rcases mem_cons.mp (spread.covered value member parts.1) with same | later
    · exact absurd same parts.2
    · exact later

/-- Another bucket has the same fresh values after a key was passed. -/
theorem countP_freshIn_seenWith
    {other : Key} (different : other ≠ key) (values : List Value) :
    values.countP (freshIn bucket other (seenWith bucket key seen)) =
      values.countP (freshIn bucket other seen) := by
  apply countP_congr
  intro value _
  simp only [freshIn, seenWith, Bool.and_eq_true, Bool.not_eq_true',
    Bool.or_eq_false_iff, decide_eq_true_eq, decide_eq_false_iff_not]
  constructor
  · rintro ⟨⟨unseen, _⟩, same⟩
    exact ⟨unseen, same⟩
  · rintro ⟨unseen, same⟩
    exact ⟨⟨unseen, fun equal => different (same.symm.trans equal)⟩, same⟩

/--
The search by running totals finds the bucket of the element at the rank, if
that element was not seen before the search.
-/
theorem firstOver_eq_bucket
    [Add Amount] [LT Amount] [DecidableLT Amount] {embed : Nat → Amount}
    (additive : ∀ left right, embed (left + right) = embed left + embed right)
    (reflects : ∀ left right, left ≤ values.length →
      right ≤ values.length → (embed left < embed right ↔ left < right))
    {keys : List Key} (spread : Spread le bucket values seen keys)
    (sorted : values.Pairwise le) {rank : Nat}
    (found : values[rank]? = some value) (unseen : seen value = false)
    {weight : Key → Amount}
    (weights : ∀ key ∈ keys,
      weight key = embed (values.countP (freshIn bucket key seen))) :
    firstOver weight (embed rank) (embed (values.countP seen)) keys =
      some (bucket value) := by
  have member : value ∈ values := mem_of_getElem? found
  have position : rank ≤ values.length :=
    (List.getElem?_eq_some_iff.mp found).1.le
  -- Along the keys, the seen values stay a lower set and the totals count it.
  induction keys generalizing seen with
  | nil => cases spread.covered value member unseen
  | cons key rest induction =>
    have total : embed (values.countP seen) + weight key =
        embed (values.countP (seenWith bucket key seen)) := by
      rw [weights key mem_cons_self, ← additive, countP_seenWith]
    have exceeded : embed rank <
        embed (values.countP (seenWith bucket key seen)) ↔
          bucket value = key := by
      rw [reflects _ _ position countP_le_length,
        ← spread.lower_seenWith.mem_iff_lt_countP sorted found]
      simp [seenWith, unseen]
    rw [firstOver, total]
    by_cases same : bucket value = key
    · rw [if_pos (exceeded.mpr same), same]
    · rw [if_neg fun exceeds => same (exceeded.mp exceeds)]
      apply induction spread.pass
      · exact seenWith_eq_false_iff.mpr ⟨unseen, same⟩
      · intro other listed
        have above := (pairwise_cons.mp spread.ordered).1 other listed
        rw [weights other (mem_cons_of_mem _ listed),
          countP_freshIn_seenWith above.ne']

end Buckets

end Ironclaw.Lib
