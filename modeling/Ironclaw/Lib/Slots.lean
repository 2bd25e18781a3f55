import Mathlib.Algebra.BigOperators.Fin
import Mathlib.Algebra.BigOperators.Group.Finset.Basic
import Mathlib.Algebra.GroupWithZero.Nat
import Mathlib.Algebra.Order.Group.Multiset
import Mathlib.Data.List.Indexes

/-!
# Numbered slots

A system of any number of calls or threads keeps them in a list that grows at
its end and whose elements are replaced in place, so that a position names a
call for ever.  `total` adds up what the slots contribute to a book; a move of
one slot changes the total by what that slot contributed.
-/

namespace Ironclaw.Lib.Slots

open List

variable {Slot Total : Type*} [AddCommMonoid Total]
variable {other : Nat → Slot → Total} {slot : Slot} {position : Nat}

/-- The sum of what each slot contributes. -/
def total (part : Nat → Slot → Total) (slots : List Slot) : Total :=
  (slots.mapIdx part).sum

variable (part : Nat → Slot → Total)

@[simp]
theorem total_nil : total part [] = 0 := rfl

theorem total_append (slots : List Slot) (last : Slot) :
    total part (slots ++ [last]) =
      total part slots + part slots.length last := by
  simp [total, mapIdx_append]

variable {slots : List Slot} {index : Nat} {old new : Slot}

theorem getElem?_set
    (new : Slot) (found : slots[index]? = some old) (position : Nat) :
    (slots.set index new)[position]? =
      if index = position then some new else slots[position]? := by
  have inside := (List.getElem?_eq_some_iff.mp found).1
  rw [List.getElem?_set]
  simp [inside]

/-- Replacing a list element exchanges its summand. -/
theorem sum_set {values : List Total} {value : Total} (replacement : Total)
    (found : values[index]? = some value) :
    (values.set index replacement).sum + value =
      values.sum + replacement := by
  induction values generalizing index with
  | nil => simp at found
  | cons head tail induction =>
    cases index with
    | zero =>
      simp only [getElem?_cons_zero, Option.some.injEq] at found
      simp only [set_cons_zero, sum_cons, found]
      ac_rfl
    | succ index =>
      simp only [getElem?_cons_succ] at found
      simp only [set_cons_succ, sum_cons, add_assoc, induction found]

theorem total_set (new : Slot) (found : slots[index]? = some old) :
    total part (slots.set index new) + part index old =
      total part slots + part index new := by
  rw [total, mapIdx_set]
  apply sum_set
  simp [found]

/-- One slot moves, and every contribution stays what it was. -/
theorem total_exchange (found : slots[index]? = some old)
    (here : other index new = part index old)
    (elsewhere : ∀ position slot, slots[position]? = some slot →
      index ≠ position → other position slot = part position slot) :
    total other (slots.set index new) = total part slots := by
  rw [total, total]
  congr 1
  apply ext_getElem?
  intro position
  rw [getElem?_mapIdx, getElem?_mapIdx, getElem?_set new found]
  by_cases same : index = position
  · subst same
    rw [if_pos rfl, found]
    exact congrArg some here
  · rw [if_neg same]
    cases present : slots[position]? with
    | none => rfl
    | some slot => exact congrArg some (elsewhere position slot present same)

theorem total_set_same (found : slots[index]? = some old)
    (same : part index new = part index old) :
    total part (slots.set index new) = total part slots :=
  total_exchange part found same fun _ _ _ _ => rfl

theorem total_eq_sum (slots : List Slot) : total part slots =
      ∑ index : Fin slots.length, part index (slots.get index) := by
  rw [total, mapIdx_eq_ofFn, sum_ofFn]

theorem total_congr
    (same : ∀ index slot, slots[index]? = some slot →
      part index slot = other index slot) :
    total part slots = total other slots := by
  rw [total_eq_sum, total_eq_sum]
  apply Finset.sum_congr rfl
  intro position _
  exact same position _ (getElem?_eq_getElem position.isLt)

/-- When one slot contributes more, so much more is the total. -/
theorem total_gain {gain : Total} (found : slots[index]? = some old)
    (more : other index old = part index old + gain)
    (same : ∀ position slot, slots[position]? = some slot →
      position ≠ index → other position slot = part position slot) :
    total other slots = total part slots + gain := by
  rcases List.getElem?_eq_some_iff.mp found with ⟨bound, rfl⟩
  let moved : Fin slots.length := ⟨index, bound⟩
  have rest : ∑ position ∈ Finset.univ.erase moved,
      other position.val (slots.get position) =
      ∑ position ∈ Finset.univ.erase moved,
        part position.val (slots.get position) := by
    apply Finset.sum_congr rfl
    intro position inside
    apply same position _ (getElem?_eq_getElem position.isLt)
    intro equal
    exact Finset.ne_of_mem_erase inside (Fin.ext equal)
  have here : other moved.val (slots.get moved) =
      part moved.val (slots.get moved) + gain := more
  rw [total_eq_sum, total_eq_sum,
    ← Finset.add_sum_erase _ _ (Finset.mem_univ moved),
    ← Finset.add_sum_erase _ (fun position : Fin slots.length =>
      part position.val (slots.get position)) (Finset.mem_univ moved),
    rest, here, add_right_comm]

/-- When some slots contribute one more each, so many more is the total. -/
theorem total_add_length
    {part other : Nat → Slot → Nat} {positions : List Nat}
    (distinct : positions.Nodup)
    (inside : ∀ position ∈ positions, position < slots.length)
    (gain : ∀ index slot, slots[index]? = some slot → other index slot =
        part index slot + if index ∈ positions then 1 else 0) :
    total other slots = total part slots + positions.length := by
  induction positions generalizing other with
  | nil =>
    rw [length_nil, add_zero]
    apply total_congr
    intro index slot found
    simpa using gain index slot found
  | cons position rest induction =>
    obtain ⟨fresh, others⟩ := nodup_cons.mp distinct
    have bound := inside position mem_cons_self
    have earlier := @induction
      (fun index slot => part index slot + if index ∈ rest then 1 else 0)
      others
      (fun other member => inside other (mem_cons_of_mem _ member))
      fun _ _ _ => rfl
    rw [length_cons, ← add_assoc, ← earlier]
    refine total_gain _ (getElem?_eq_getElem bound) ?_ ?_
    · rw [gain position _ (getElem?_eq_getElem bound)]
      simp [fresh]
    · intro index slot found different
      rw [gain index slot found]
      simp [different]

theorem total_map
    {Item : Type*} (part : Nat → Item → Total) (map : Slot → Item)
    (slots : List Slot) :
    total part (slots.map map) =
      total (fun index slot => part index (map slot)) slots := by
  rw [total, total, mapIdx_eq_zipIdx_map, mapIdx_eq_zipIdx_map,
    zipIdx_map, map_map]
  rfl

theorem total_eq_zero
    (empty : ∀ index slot, slots[index]? = some slot → part index slot = 0) :
    total part slots = 0 := by
  rw [total_eq_sum]
  apply Finset.sum_eq_zero
  intro position _
  exact empty position _ (getElem?_eq_getElem position.isLt)

theorem total_eq_single (found : slots[index]? = some old)
    (others : ∀ position slot, slots[position]? = some slot →
      position ≠ index → part position slot = 0) :
    total part slots = part index old := by
  rcases List.getElem?_eq_some_iff.mp found with ⟨bound, rfl⟩
  rw [total_eq_sum]
  apply Finset.sum_eq_single_of_mem (⟨index, bound⟩ : Fin slots.length)
  · exact Finset.mem_univ _
  · intro position _ different
    apply others position _ (List.getElem?_eq_getElem position.isLt)
    intro same
    exact different (Fin.ext same)

theorem map_total {Image : Type*} [AddCommMonoid Image] (map : Total →+ Image)
    (slots : List Slot) :
    map (total part slots) =
      total (fun index slot => map (part index slot)) slots := by
  rw [total_eq_sum, total_eq_sum, map_sum]

theorem mem_total
    {Item : Type*} {part : Nat → Slot → Multiset Item} {item : Item} :
    item ∈ total part slots ↔ ∃ index slot, slots[index]? = some slot ∧
        item ∈ part index slot := by
  rw [total_eq_sum, Multiset.mem_sum]
  constructor
  · rintro ⟨position, _, inside⟩
    exact ⟨position, _, List.getElem?_eq_getElem position.isLt, inside⟩
  · rintro ⟨index, slot, found, inside⟩
    rcases List.getElem?_eq_some_iff.mp found with ⟨bound, rfl⟩
    exact ⟨⟨index, bound⟩, Finset.mem_univ _, inside⟩

theorem eq_or_mem_set
    (new : Slot) (found : slots[index]? = some old) (member : slot ∈ slots) :
    slot = old ∨ slot ∈ slots.set index new := by
  rcases mem_iff_getElem?.mp member with ⟨position, here⟩
  by_cases same : index = position
  · rw [← same, found] at here
    exact Or.inl (Option.some.inj here).symm
  · apply Or.inr
    apply mem_of_getElem? (i := position)
    rw [getElem?_set_ne same, here]

/-! ## Positions -/

theorem concat_iff {last : Slot} : (slots ++ [last])[position]? = some slot ↔
      slots[position]? = some slot ∨
        position = slots.length ∧ slot = last := by
  rcases lt_trichotomy position slots.length with inside | rfl | outside
  · simp [getElem?_append_left inside, inside.ne]
  · simp [eq_comm]
  · rw [getElem?_eq_none (by rw [length_append]; exact outside)]
    simp [outside.le, outside.ne']

/-- A slot moves on, and a slot with the property is still there. -/
theorem exists_set {holds : Slot → Prop} (found : slots[index]? = some old)
    (kept : holds old → holds new)
    (known : ∃ slot, slots[position]? = some slot ∧ holds slot) :
    ∃ slot, (slots.set index new)[position]? = some slot ∧ holds slot := by
  obtain ⟨slot, present, held⟩ := known
  rw [getElem?_set _ found]
  by_cases same : index = position
  · subst same
    rw [found] at present
    cases present
    exact ⟨new, if_pos rfl, kept held⟩
  · exact ⟨slot, by rwa [if_neg same], held⟩

theorem of_set (found : (slots.set index new)[position]? = some slot) :
    (position = index ∧ slot = new) ∨
      (position ≠ index ∧ slots[position]? = some slot) := by
  by_cases same : index = position
  · subst same
    have bound := (List.getElem?_eq_some_iff.mp found).1
    rw [length_set] at bound
    rw [List.getElem?_set_self bound] at found
    exact Or.inl ⟨rfl, (Option.some.inj found).symm⟩
  · rw [List.getElem?_set_ne same] at found
    exact Or.inr ⟨Ne.symm same, found⟩

theorem set_self (new : Slot) (found : slots[index]? = some old) :
    (slots.set index new)[index]? = some new :=
  List.getElem?_set_self (List.getElem?_eq_some_iff.mp found).1

theorem set_of_ne (new : Slot)
    (different : position ≠ index) (found : slots[position]? = some slot) :
    (slots.set index new)[position]? = some slot := by
  rw [getElem?_set_ne (Ne.symm different)]
  exact found

/-! ## Exclusive holders -/

/-- What is taken is held by exactly one slot. -/
structure Held
    {Key : Type*} (slots : List Slot) (holds : Slot → Key → Prop)
    (taken : Key → Prop) : Prop where
  taken : ∀ key, taken key ↔
    ∃ (index : Nat) (slot : Slot), slots[index]? = some slot ∧ holds slot key
  unique : ∀ key (first second : Nat) (left right : Slot),
    slots[first]? = some left → slots[second]? = some right →
      holds left key → holds right key → first = second

section Held

variable {Key : Type*} {holds : Slot → Key → Prop} {taken : Key → Prop}

/-- A new slot that holds nothing. -/
theorem Held.append (held : Held slots holds taken) {last : Slot}
    (idle : ∀ key, ¬holds last key) : Held (slots ++ [last]) holds taken where
  taken key := by
    rw [held.taken]
    constructor
    · rintro ⟨index, slot, found, holding⟩
      exact ⟨index, slot, concat_iff.mpr (.inl found), holding⟩
    · rintro ⟨index, slot, found, holding⟩
      rcases concat_iff.mp found with here | ⟨_, rfl⟩
      · exact ⟨index, slot, here, holding⟩
      · exact absurd holding (idle key)
  unique := by
    intro key first second left right foundLeft foundRight holdsLeft
      holdsRight
    rcases concat_iff.mp foundLeft with hereLeft | ⟨_, rfl⟩
    · rcases concat_iff.mp foundRight with hereRight | ⟨_, rfl⟩
      · exact held.unique key first second left right hereLeft hereRight
          holdsLeft holdsRight
      · exact absurd holdsRight (idle key)
    · exact absurd holdsLeft (idle key)

/-- A slot that takes what was free, or gives up what it held. -/
theorem Held.set
    (held : Held slots holds taken) (found : slots[index]? = some old)
    (fresh : ∀ key, holds new key → holds old key ∨ ¬taken key)
    {next : Key → Prop}
    (moved : ∀ key, next key ↔ holds new key ∨ (taken key ∧ ¬holds old key)) :
    Held (slots.set index new) holds next where
  taken key := by
    rw [moved, held.taken]
    constructor
    · rintro (holding | ⟨⟨position, slot, here, holding⟩, other⟩)
      · exact ⟨index, new, set_self new found, holding⟩
      · have different : position ≠ index := by
          rintro rfl
          rw [found] at here
          cases here
          exact other holding
        exact ⟨position, slot, set_of_ne new different here, holding⟩
    · rintro ⟨position, slot, here, holding⟩
      rcases of_set here with ⟨_, rfl⟩ | ⟨different, there⟩
      · exact Or.inl holding
      · refine Or.inr ⟨⟨position, slot, there, holding⟩, ?_⟩
        intro both
        exact different (held.unique key position index slot old there found
          holding both)
  unique := by
    -- A slot elsewhere holds only what is taken and not held by the old slot.
    have elsewhere : ∀ key (position : Nat) (slot : Slot),
        position ≠ index → slots[position]? = some slot →
          holds slot key → ¬holds new key := by
      intro key position slot different there holding both
      rcases fresh key both with old | free
      · exact different (held.unique key position index slot _ there found
          holding old)
      · exact free ((held.taken key).mpr ⟨position, slot, there, holding⟩)
    intro key first second left right foundLeft foundRight holdsLeft
      holdsRight
    rcases of_set foundLeft with ⟨rfl, rfl⟩ | ⟨differentLeft, hereLeft⟩
    · rcases of_set foundRight with ⟨rfl, rfl⟩ | ⟨differentRight, hereRight⟩
      · rfl
      · exact absurd holdsLeft (elsewhere key second right differentRight
          hereRight holdsRight)
    · rcases of_set foundRight with ⟨rfl, rfl⟩ | ⟨differentRight, hereRight⟩
      · exact absurd holdsRight (elsewhere key first left differentLeft
          hereLeft holdsLeft)
      · exact held.unique key first second left right hereLeft hereRight
          holdsLeft holdsRight

/-- A slot that goes on holding what it held. -/
theorem Held.set_same
    (held : Held slots holds taken) (found : slots[index]? = some old)
    (same : ∀ key, holds new key ↔ holds old key) :
    Held (slots.set index new) holds taken := by
  apply held.set found
  · intro key holding
    exact Or.inl ((same key).mp holding)
  · intro key
    constructor
    · intro isTaken
      by_cases holding : holds old key
      · exact Or.inl ((same key).mpr holding)
      · exact Or.inr ⟨isTaken, holding⟩
    · rintro (holding | ⟨isTaken, _⟩)
      · exact (held.taken key).mpr ⟨index, old, found, (same key).mp holding⟩
      · exact isTaken

end Held

/-- A move of one member of a finite family exchanges its contribution. -/
theorem sum_update {Index : Type*} [Fintype Index] [DecidableEq Index]
    (part : Slot → Total) (family : Index → Slot)
    (index : Index) (new : Slot) :
    (∑ each, part (Function.update family index new each)) +
        part (family index) = (∑ each, part (family each)) + part new := by
  have rest : ∑ each ∈ Finset.univ.erase index,
      part (Function.update family index new each) =
      ∑ each ∈ Finset.univ.erase index, part (family each) := by
    apply Finset.sum_congr rfl
    intro each member
    rw [Function.update_of_ne (Finset.ne_of_mem_erase member)]
  rw [← Finset.add_sum_erase _ _ (Finset.mem_univ index), rest,
    ← Finset.add_sum_erase _ (fun each => part (family each))
      (Finset.mem_univ index), Function.update_self]
  ac_rfl

/-! ## Turns -/

/--
A run that moves one slot after the other: what holds before the first turn
holds after the last, when each turn passes it on.
-/
theorem each_in_turn
    {before after : Nat → Slot → Prop} {holds : List Slot → Nat → Prop}
    (turn : ∀ (slots : List Slot) (index : Nat) (slot : Slot),
      slots[index]? = some slot → before index slot → holds slots index →
        ∃ next, after index next ∧ holds (slots.set index next) (index + 1))
    {slots : List Slot} (start : holds slots 0)
    (ready : ∀ (index : Nat) (slot : Slot),
      slots[index]? = some slot → before index slot) :
    ∃ final, final.length = slots.length ∧ (∀ (index : Nat) (slot : Slot),
        final[index]? = some slot → after index slot) ∧
      holds final slots.length := by
  have reached : ∀ count ≤ slots.length, ∃ middle : List Slot,
      middle.length = slots.length ∧
        (∀ (index : Nat) (slot : Slot), middle[index]? = some slot →
          if index < count then after index slot else before index slot) ∧
        holds middle count := by
    intro count bound
    induction count with
    | zero => exact ⟨slots, rfl, ready, start⟩
    | succ count induction =>
      rcases induction (Nat.le_of_succ_le bound) with
        ⟨middle, length, moved, held⟩
      have inside : count < middle.length := by
        rw [length]
        exact bound
      have found := getElem?_eq_getElem inside
      have waiting := moved count _ found
      rw [if_neg (Nat.lt_irrefl count)] at waiting
      rcases turn middle count _ found waiting held with ⟨next, done, later⟩
      refine ⟨middle.set count next, length_set.trans length, ?_, later⟩
      intro index slot present
      rcases of_set present with ⟨rfl, rfl⟩ | ⟨different, there⟩
      · rw [if_pos (Nat.lt_succ_self _)]
        exact done
      · have order : index < count + 1 ↔ index < count := by omega
        simp only [order]
        exact moved index slot there
  rcases reached slots.length le_rfl with ⟨final, length, moved, held⟩
  refine ⟨final, length, ?_, held⟩
  intro index slot found
  have inside := (List.getElem?_eq_some_iff.mp found).1
  rw [length] at inside
  have done := moved index slot found
  rw [if_pos inside] at done
  exact done

end Ironclaw.Lib.Slots
