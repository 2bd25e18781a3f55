import Mathlib.Data.Prod.Lex
import Mathlib.Data.List.Basic

/-!
# Keeping the best of a stream

A stream is scanned with one item in hand, which is replaced when the next one
ranks strictly higher.  What is kept at the end ranks highest, so two scans of
the same items end with items of one rank, in whatever order they arrive.
Which of several highest items is kept depends on the order.
-/

namespace Ironclaw.Lib

open List

variable {Item Rank Value : Type*} [LinearOrder Rank]
variable {rank : Item → Rank}
variable {items : List Item}

/-- The item of higher rank; on a tie the one in hand. -/
def better (rank : Item → Rank) (best item : Item) : Item :=
  if rank best < rank item then item else best

/-- The item in hand after a scan. -/
def champion (rank : Item → Rank) (start : Item) (items : List Item) :
    Item :=
  items.foldl (better rank) start

/-- An item of a collection that no other one outranks. -/
structure Best (rank : Item → Rank) (items : Item → Prop) (item : Item) :
    Prop where
  mem : items item
  le : ∀ other, items other → rank other ≤ rank item

theorem champion_best (start : Item) (items : List Item) :
    Best rank (· ∈ start :: items) (champion rank start items) := by
  induction items generalizing start with
  | nil =>
    constructor
    · exact mem_singleton_self start
    · intro other member
      rw [mem_singleton.mp member]
      rfl
  | cons item rest induction =>
    rcases induction (better rank start item) with ⟨inside, upper⟩
    have known : rank start ≤ rank (better rank start item) ∧
        rank item ≤ rank (better rank start item) ∧
          better rank start item ∈ [start, item] := by
      rw [better]
      split
      · next less => exact ⟨less.le, le_rfl, by simp⟩
      · next least => exact ⟨le_rfl, not_lt.mp least, by simp⟩
    have reached := upper _ mem_cons_self
    constructor
    · rcases mem_cons.mp inside with same | later
      · rw [champion, foldl_cons]
        rw [champion] at same
        rw [same]
        have pair := known.2.2
        simp only [mem_cons, not_mem_nil, or_false] at pair ⊢
        rcases pair with first | second
        · exact Or.inl first
        · exact Or.inr (Or.inl second)
      · exact mem_cons_of_mem _ (mem_cons_of_mem _ later)
    · intro other member
      rcases mem_cons.mp member with rfl | member
      · exact known.1.trans reached
      · rcases mem_cons.mp member with rfl | later
        · exact known.2.1.trans reached
        · exact upper other (mem_cons_of_mem _ later)

namespace Best

variable {items : Item → Prop} {left right : Item}

theorem rank_eq (leftBest : Best rank items left)
    (rightBest : Best rank items right) : rank left = rank right :=
  le_antisymm (rightBest.le left leftBest.mem)
    (leftBest.le right rightBest.mem)

theorem congr {items' : Item → Prop} (best : Best rank items left)
    (same : ∀ item, items item ↔ items' item) : Best rank items' left where
  mem := (same left).mp best.mem
  le other member := best.le other ((same other).mpr member)

theorem of_map {image : Value → Item} {values : List Value}
    (best : Best rank (· ∈ values.map image) left) :
    ∃ value, Best (fun value => rank (image value)) (· ∈ values) value ∧
      left = image value := by
  rcases mem_map.mp best.mem with ⟨value, member, rfl⟩
  exact ⟨value, ⟨member, fun other known =>
    best.le _ (mem_map_of_mem known)⟩, rfl⟩

end Best

/-- A start that is outranked by every item does not last. -/
theorem champion_mem {start : Item} (present : items ≠ [])
    (outranked : ∀ item ∈ items, rank start < rank item) :
    Best rank (· ∈ items) (champion rank start items) := by
  rcases @champion_best _ _ _ rank start items with ⟨inside, upper⟩
  constructor
  · rcases mem_cons.mp inside with same | member
    · rcases exists_mem_of_ne_nil items present with ⟨item, member⟩
      have reached := upper item (mem_cons_of_mem _ member)
      rw [same] at reached
      exact absurd (outranked item member) (not_lt.mpr reached)
    · exact member
  · exact fun other member => upper other (mem_cons_of_mem _ member)

/-- The first of the best items lasts. -/
theorem champion_of_first
    {start first : Item} (outranked : rank start < rank first)
    (highest : ∀ item ∈ items, rank item ≤ rank first) :
    champion rank start (first :: items) = first := by
  rw [champion, foldl_cons, better, if_pos outranked]
  induction items with
  | nil => rfl
  | cons item rest induction =>
    rw [foldl_cons, better, if_neg (not_lt.mpr (highest item mem_cons_self))]
    exact induction fun other member =>
      highest other (mem_cons_of_mem _ member)

/-- The first best item of a list. -/
def firstBest (rank : Item → Rank) : List Item → Option Item
  | [] => none
  | item :: rest => some (champion rank item rest)

theorem firstBest_best
    {item : Item} (chosen : firstBest rank items = some item) :
    Best rank (· ∈ items) item := by
  cases items with
  | nil => cases chosen
  | cons first rest =>
    cases chosen
    exact champion_best first rest

theorem exists_firstBest (present : items ≠ []) :
    ∃ item, firstBest rank items = some item := by
  cases items with
  | nil => exact absurd rfl present
  | cons first rest => exact ⟨_, rfl⟩

end Ironclaw.Lib
