import Mathlib.Data.List.AList

/-!
# Finite maps with iteration

Maps of the modelled program are association lists with distinct keys.  The
order of the entries stands for the unspecified iteration order of the
source; no result below depends on it.
-/

namespace Ironclaw.Lib

open List AList

/-- A finite map from keys to values. -/
abbrev GoMap (Key Value : Type*) := AList fun _ : Key => Value

namespace GoMap

variable {Key Value : Type*}
variable {map : GoMap Key Value} {value : Value} {key : Key}

def values (map : GoMap Key Value) : List Value :=
  map.entries.map Sigma.snd

def size (map : GoMap Key Value) : Nat := map.entries.length

@[simp]
theorem values_empty : values (∅ : GoMap Key Value) = [] := rfl

@[simp]
theorem size_empty : size (∅ : GoMap Key Value) = 0 := rfl

theorem eq_empty_of_size (empty : size map = 0) : map = ∅ :=
  ext (eq_nil_of_length_eq_zero empty)

variable [DecidableEq Key]

/-- A present entry can be moved to the front. -/
theorem entries_perm_of_lookup (present : map.lookup key = some value) :
    map.entries.Perm (⟨key, value⟩ :: (map.erase key).entries) := by
  have member : key ∈ map.keys := by
    rw [← AList.mem_keys, ← AList.lookup_isSome, present]
    rfl
  obtain ⟨found, first, second, absent, split, erased⟩ :=
    exists_of_kerase member
  have entry : (⟨key, found⟩ : Sigma fun _ : Key => Value) ∈ map.entries := by
    rw [split]
    simp
  have same : found = value := by
    have lookup := mem_lookup_iff.mpr entry
    rw [present] at lookup
    exact (Option.some.inj lookup).symm
  subst same
  change map.entries.Perm (⟨key, found⟩ :: List.kerase key map.entries)
  rw [erased, split]
  exact perm_middle

theorem values_perm_of_lookup (present : map.lookup key = some value) :
    (values map).Perm (value :: values (map.erase key)) := by
  have moved := (entries_perm_of_lookup present).map
    fun entry : Sigma fun _ : Key => Value => entry.2
  exact moved

theorem values_insert_of_notMem (absent : key ∉ map) :
    values (map.insert key value) = value :: values map := by
  rw [values, entries_insert_of_notMem absent]
  rfl

theorem erase_insert_of_notMem (absent : key ∉ map) :
    (map.insert key value).erase key = map := by
  apply ext
  change List.kerase key (map.insert key value).entries = map.entries
  rw [entries_insert_of_notMem absent]
  exact kerase_cons_eq rfl

theorem size_insert (map : GoMap Key Value) (key : Key) (value : Value) :
    size (map.insert key value) = size (map.erase key) + 1 :=
  rfl

theorem size_of_lookup (present : map.lookup key = some value) :
    size map = size (map.erase key) + 1 :=
  (entries_perm_of_lookup present).length_eq

theorem size_erase_le (map : GoMap Key Value) (key : Key) :
    size (map.erase key) ≤ size map :=
  (kerase_sublist key map.entries).length_le

theorem mem_values_iff :
    value ∈ values map ↔ ∃ key, map.lookup key = some value := by
  constructor
  · intro member
    obtain ⟨⟨key, found⟩, entry, rfl⟩ := mem_map.mp member
    exact ⟨key, mem_lookup_iff.mpr entry⟩
  · rintro ⟨key, present⟩
    exact mem_map.mpr ⟨⟨key, value⟩, mem_lookup_iff.mp present, rfl⟩

theorem values_eq_map_keys (map : GoMap Key Value) (default : Value) :
    values map = map.keys.map fun key => (map.lookup key).getD default := by
  change map.entries.map Sigma.snd = (map.entries.map Sigma.fst).map _
  rw [map_map]
  apply map_congr_left
  intro entry member
  have present := mem_lookup_iff.mpr member
  change entry.2 = (map.lookup entry.1).getD default
  rw [present]
  rfl

theorem of_lookup_insert {other : Key} {found : Option Value}
    (lookup : (map.insert key value).lookup other = found) :
    other = key ∧ found = some value ∨
      other ≠ key ∧ map.lookup other = found := by
  by_cases same : other = key
  · rw [same, lookup_insert] at lookup
    exact .inl ⟨same, lookup.symm⟩
  · rw [lookup_insert_ne same] at lookup
    exact .inr ⟨same, lookup⟩

theorem of_lookup_erase
    {other : Key} (lookup : (map.erase key).lookup other = some value) :
    other ≠ key ∧ map.lookup other = some value := by
  by_cases same : other = key
  · rw [same, lookup_erase] at lookup
    cases lookup
  · rw [lookup_erase_ne same] at lookup
    exact ⟨same, lookup⟩

/-- A map is empty as soon as no key has a value. -/
theorem eq_empty_of_lookup (absent : ∀ key, map.lookup key = none) :
    map = ∅ := by
  apply ext
  cases entries : map.entries with
  | nil => rfl
  | cons entry rest =>
    have member : (⟨entry.1, entry.2⟩ : Sigma fun _ : Key => Value) ∈
        map.entries := by
      rw [entries]
      exact mem_cons_self
    have present := mem_lookup_iff.mpr member
    rw [absent] at present
    cases present

end GoMap

end Ironclaw.Lib
