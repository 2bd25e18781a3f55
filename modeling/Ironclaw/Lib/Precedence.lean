import Ironclaw.Lib.Text
import Mathlib.Data.List.Nodup

/-!
# Order of arrival

In a list that grows at its end without repetition, one item precedes another
if it stands before it.  This never changes once both are in the list.
-/

namespace Ironclaw.Lib

open List

variable {Item : Type*}

/-- The first item stands before the second one. -/
def Precedes (first second : Item) (items : List Item) : Prop :=
  ∃ earlier later, items = earlier ++ first :: later ∧ second ∈ later

namespace Precedes

variable {first second last : Item} {items : List Item}

theorem of_append
    {more : List Item} (present : first ∈ items) (later : second ∈ more) :
    Precedes first second (items ++ more) := by
  rcases append_of_mem present with ⟨before, behind, rfl⟩
  refine ⟨before, behind ++ more, ?_, mem_append_right behind later⟩
  rw [append_assoc, cons_append]

/-- An arrival does not change the order of the others. -/
theorem of_concat (precedes : Precedes first second (items ++ [last]))
    (different : second ≠ last) : Precedes first second items := by
  rcases precedes with ⟨earlier, later, same, member⟩
  rcases eq_nil_or_concat later with rfl | ⟨initial, final, rfl⟩
  · cases member
  · rw [concat_eq_append, ← cons_append, ← append_assoc] at same
    rcases List.append_inj' same rfl with ⟨here, ends⟩
    cases ends
    refine ⟨earlier, initial, here, ?_⟩
    rw [concat_eq_append] at member
    rcases mem_append.mp member with inside | equal
    · exact inside
    · exact absurd (mem_singleton.mp equal) different

/-- Behind an item stand exactly those that it precedes. -/
theorem mem_of_split
    (precedes : Precedes first second items) (nodup : items.Nodup)
    {before behind : List Item} (split : items = before ++ first :: behind) :
    second ∈ behind := by
  rcases precedes with ⟨earlier, later, same, member⟩
  have unique : earlier ++ first :: later = before ++ first :: behind :=
    same.symm.trans split
  have absentLeft : first ∉ earlier := by
    rw [same] at nodup
    intro inside
    exact (disjoint_of_nodup_append nodup) inside mem_cons_self
  have absentRight : first ∉ before := by
    rw [split] at nodup
    intro inside
    exact (disjoint_of_nodup_append nodup) inside mem_cons_self
  rw [← (Text.split_at_first absentLeft absentRight unique).2]
  exact member

end Precedes

end Ironclaw.Lib
