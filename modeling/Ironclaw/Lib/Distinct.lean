import Mathlib.Data.Finset.Union

/-!
# First occurrences

Deduplication by a key, in order of arrival: an item is kept when its key was
not seen before.  The result depends only on the set of keys seen, so it
composes over the parts of a stream.
-/

namespace Ironclaw.Lib

open List

variable {Item Key : Type*} [DecidableEq Key]
variable {items : List Item}

/-- The items whose key is neither in `seen` nor on an earlier item. -/
def firstBy (key : Item → Key) : Finset Key → List Item → List Item
  | _, [] => []
  | seen, item :: rest =>
    if key item ∈ seen then firstBy key seen rest
    else item :: firstBy key (insert (key item) seen) rest

/-- The keys of a list of items. -/
def keysOf (key : Item → Key) (items : List Item) : Finset Key :=
  (items.map key).toFinset

variable {key : Item → Key}

@[simp]
theorem mem_keysOf {value : Key} :
    value ∈ keysOf key items ↔ ∃ item ∈ items, key item = value := by
  simp [keysOf]

theorem keysOf_append (first second : List Item) :
    keysOf key (first ++ second) = keysOf key first ∪ keysOf key second := by
  ext value
  simp [or_and_right, exists_or]

theorem keysOf_concat (items : List Item) (item : Item) :
    keysOf key (items ++ [item]) = insert (key item) (keysOf key items) := by
  ext value
  simp [or_and_right, exists_or, or_comm, eq_comm]

theorem firstBy_append (seen : Finset Key) (first second : List Item) :
    firstBy key seen (first ++ second) = firstBy key seen first ++
        firstBy key (seen ∪ keysOf key first) second := by
  induction first generalizing seen with
  | nil => simp [firstBy, keysOf]
  | cons item rest induction =>
    have keys : keysOf key (item :: rest) =
        insert (key item) (keysOf key rest) := by
      simp [keysOf]
    by_cases known : key item ∈ seen
    · have same : seen ∪ keysOf key (item :: rest) =
          seen ∪ keysOf key rest := by
        rw [keys, Finset.union_insert,
          Finset.insert_eq_of_mem (Finset.mem_union_left _ known)]
      simp only [cons_append, firstBy, known, if_true, induction, same]
    · have same : seen ∪ keysOf key (item :: rest) =
          insert (key item) seen ∪ keysOf key rest := by
        rw [keys, Finset.union_insert, Finset.insert_union]
      simp only [cons_append, firstBy, known, if_false, induction, same]

theorem firstBy_concat (seen : Finset Key) (items : List Item) (item : Item) :
    firstBy key seen (items ++ [item]) =
      if key item ∈ seen ∪ keysOf key items then firstBy key seen items
      else firstBy key seen items ++ [item] := by
  rw [firstBy_append]
  by_cases known : key item ∈ seen ∪ keysOf key items
  · simp only [firstBy, known, if_true, append_nil]
  · simp only [firstBy, known, if_false]

theorem firstBy_sublist (seen : Finset Key) (items : List Item) :
    (firstBy key seen items).Sublist items := by
  induction items generalizing seen with
  | nil => exact Sublist.slnil
  | cons item rest induction =>
    simp only [firstBy]
    split
    · exact (induction seen).cons _
    · exact (induction _).cons_cons _

/-- Nothing kept has a key seen before. -/
theorem firstBy_fresh {seen : Finset Key} {item : Item}
    (member : item ∈ firstBy key seen items) : key item ∉ seen := by
  induction items generalizing seen with
  | nil => cases member
  | cons head rest induction =>
    simp only [firstBy] at member
    split at member
    · exact induction member
    · rename_i absent
      rcases mem_cons.mp member with rfl | later
      · exact absent
      · intro present
        exact induction later (Finset.mem_insert_of_mem present)

theorem firstBy_nodup (seen : Finset Key) (items : List Item) :
    ((firstBy key seen items).map key).Nodup := by
  induction items generalizing seen with
  | nil => exact nodup_nil
  | cons item rest induction =>
    simp only [firstBy]
    split
    · exact induction seen
    · rw [map_cons, nodup_cons]
      refine ⟨?_, induction _⟩
      intro repeated
      obtain ⟨other, member, same⟩ := mem_map.mp repeated
      apply firstBy_fresh member
      rw [same]
      exact Finset.mem_insert_self _ _

/-- Every key of the stream is seen before or kept once. -/
theorem exists_mem_firstBy {seen : Finset Key} {item : Item}
    (member : item ∈ items) (fresh : key item ∉ seen) :
    ∃ kept ∈ firstBy key seen items, key kept = key item := by
  induction items generalizing seen with
  | nil => cases member
  | cons head rest induction =>
    simp only [firstBy]
    by_cases known : key head ∈ seen
    · rw [if_pos known]
      rcases mem_cons.mp member with rfl | later
      · exact absurd known fresh
      · exact induction later fresh
    · rw [if_neg known]
      by_cases same : key head = key item
      · exact ⟨head, mem_cons_self, same⟩
      · rcases mem_cons.mp member with rfl | later
        · exact absurd rfl same
        · obtain ⟨kept, keptMember, equal⟩ := @induction
            (insert (key head) seen) later (by
              simp [fresh, Ne.symm same])
          exact ⟨kept, mem_cons_of_mem _ keptMember, equal⟩

theorem mem_firstBy
    (named : Set.InjOn key {item | item ∈ items}) {item : Item} :
    item ∈ firstBy key ∅ items ↔ item ∈ items := by
  constructor
  · exact fun member => (firstBy_sublist ∅ items).subset member
  · intro member
    obtain ⟨kept, keptMember, equal⟩ :=
      exists_mem_firstBy member (Finset.notMem_empty (key item))
    have same := named ((firstBy_sublist ∅ items).subset keptMember)
      member equal
    exact same ▸ keptMember

end Ironclaw.Lib
