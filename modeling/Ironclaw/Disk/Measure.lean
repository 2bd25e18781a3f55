import Ironclaw.Disk.Station

/-!
# What the index of a spool measures

The index of a spool knows the size of every entry of its directory, and the
directory never holds more entries than the budget allows, whichever file
system calls fail.  The counter of bytes is the sum of the sizes as long as
that sum fits in 64 bits.
-/

namespace Ironclaw.Disk

open Lib List Int64 AList Directory

variable {directory : Directory} {name : String}

/-! ## Sizes -/

/-- The bytes in the entries of a directory. -/
def spooledBytes (directory : Directory) : Nat :=
  ((queueOf directory.journal).map fun entry =>
    entry.payload.length).sum

/-- The number of entries that a budget allows. -/
def entryLimit (maxBytes : Int64) : Nat := (Spool.new maxBytes).maxEntries

theorem entryLimit_lt (maxBytes : Int64) : entryLimit maxBytes < 2 ^ 64 := by
  have bound := toInt_lt (maxBytes / minBudgetPerEntry)
  change max minEntries (maxBytes / minBudgetPerEntry).toInt.toNat < _
  rw [minEntries]
  omega

theorem SameEntries.spooledBytes_eq
    {after : Directory} (same : SameEntries directory after) :
    spooledBytes after = spooledBytes directory := by
  rw [spooledBytes, same.queue, spooledBytes]

theorem Stored.spooledBytes_without
    {entry : Entry} (stored : Stored directory)
    (queued : entry ∈ queueOf directory.journal) :
    spooledBytes directory = entry.payload.length +
        spooledBytes (directory.without entry.name) := by
  have sizes := (stored.perm_without queued).map fun entry =>
    entry.payload.length
  exact sizes.sum_eq

theorem Published.spooledBytes_eq {after : Directory} {payload : Payload}
    (published : Published directory name payload after) :
    spooledBytes after = spooledBytes directory + payload.length := by
  simp [spooledBytes, published.queue]

/-! ## What the index knows -/

/-- The directory is within the limit on entries. -/
structure Limited (maxBytes : Int64) (directory : Directory) : Prop where
  stored : Stored directory
  few : (queueOf directory.journal).length ≤ entryLimit maxBytes

/-- The index lists the directory with the sizes of its entries. -/
structure Measures
    (maxBytes : Int64) (directory : Directory) (spool : Spool) :
    Prop extends Limited maxBytes directory where
  lists : Lists directory spool
  maxBytes_eq : spool.maxBytes = maxBytes
  maxEntries_eq : spool.maxEntries = entryLimit maxBytes
  sized : ∀ entry ∈ queueOf directory.journal, spool.sizes.lookup entry.name =
      some (Int64.ofNat entry.payload.length)

section Measuring

variable {maxBytes : Int64} {after : Directory} {spool : Spool}

theorem Limited.of_sameEntries (limited : Limited maxBytes directory)
    (same : SameEntries directory after) : Limited maxBytes after where
  stored := limited.stored.of_sameEntries same
  few := by
    rw [same.queue]
    exact limited.few

theorem Limited.without
    (limited : Limited maxBytes directory) (name : String) :
    Limited maxBytes (directory.without name) where
  stored := limited.stored.without name
  few := by
    rw [Directory.without, queueOf_removed]
    exact (length_filter_le _ _).trans limited.few

section Measures

variable (measures : Measures maxBytes directory spool)
include measures

theorem Measures.of_sameEntries (same : SameEntries directory after) :
    Measures maxBytes after spool :=
  { measures with
    toLimited := measures.toLimited.of_sameEntries same
    lists := measures.lists.of_sameEntries same
    sized := by
      rw [same.queue]
      exact measures.sized }

theorem Measures.of_eq {other : Spool} (order : other.order = spool.order)
    (sizes : other.sizes = spool.sizes)
    (most : other.maxBytes = spool.maxBytes)
    (limit : other.maxEntries = spool.maxEntries) :
    Measures maxBytes directory other where
  toLimited := measures.toLimited
  lists := measures.lists.of_eq order sizes
  maxBytes_eq := most.trans measures.maxBytes_eq
  maxEntries_eq := limit.trans measures.maxEntries_eq
  sized := by
    rw [sizes]
    exact measures.sized

theorem Measures.length_order :
    spool.order.length = (queueOf directory.journal).length := by
  rw [measures.lists.order_perm.length_eq, length_map]

theorem Measures.order_nodup : spool.order.Nodup :=
  measures.lists.order_perm.nodup_iff.mpr measures.stored.names_nodup

theorem Measures.keys_perm : spool.sizes.keys.Perm spool.order := by
  rw [perm_ext_iff_of_nodup spool.sizes.keys_nodup measures.order_nodup]
  intro name
  rw [← AList.mem_keys]
  exact measures.lists.sizes_iff name

theorem Measures.exists_draws : ∃ sequence, spool.Draws sequence := by
  apply Disk.exists_draws
  have keys := measures.keys_perm.length_eq
  have size : spool.sizes.keys.length = GoMap.size spool.sizes := length_map _
  have bound := entryLimit_lt maxBytes
  have few := measures.few
  rw [measures.length_order] at keys
  omega

theorem Measures.forget (listed : name ∈ spool.order) :
    Measures maxBytes (directory.without name) (spool.forget name) where
  toLimited := measures.toLimited.without name
  lists := measures.lists.forget measures.stored listed
  maxBytes_eq := by
    simpa using measures.maxBytes_eq
  maxEntries_eq := by
    simpa using measures.maxEntries_eq
  sized := by
    intro entry member
    rw [without, queueOf_removed] at member
    obtain ⟨queued, other⟩ := mem_filter.mp member
    rw [(measures.lists.order_forget listed).2,
      lookup_erase_ne (of_decide_eq_true other)]
    exact measures.sized entry queued

/-- The index after an entry was published below the limit. -/
theorem Measures.append {sequence : UInt64} {payload : Payload}
    (room : spool.order.length < spool.maxEntries)
    (draws : spool.Draws sequence) (stored : Stored after)
    (published : Published directory (spool.nextEntry sequence) payload
      after) :
    Measures maxBytes after
      ({ spool with seq := sequence }.append (spool.nextEntry sequence)
        (ofNat payload.length)) where
  stored := stored
  few := by
    rw [measures.length_order, measures.maxEntries_eq] at room
    rw [published.queue, length_append]
    exact room
  lists := by
    have numbered : Lists directory { spool with seq := sequence } :=
      measures.lists.of_eq rfl rfl
    exact numbered.append published _
  maxBytes_eq := measures.maxBytes_eq
  maxEntries_eq := measures.maxEntries_eq
  sized := by
    intro entry member
    change (spool.sizes.insert _ _).lookup _ = _
    rw [published.queue] at member
    rcases mem_append.mp member with old | new
    · rw [lookup_insert_ne, measures.sized entry old]
      intro same
      apply draws.2
      rw [measures.lists.sizes_iff, measures.lists.mem_order]
      exact ⟨entry, old, same⟩
    · rw [mem_singleton.mp new]
      exact lookup_insert _

end Measures

theorem evicting_measures (maxBytes : Int64) :
    Evicting (fun spool directory => Measures maxBytes directory spool)
      (Limited maxBytes) where
  stored measures := measures.stored
  lists measures := measures.lists
  crashes measures := measures.toLimited
  removes first measures :=
    (measures.forget (by simp [first])).of_eq rfl rfl rfl rfl
  fails measures := measures.of_eq rfl rfl rfl rfl

/-! ## Peek and release -/

theorem Measures.wp_peek (measures : Measures maxBytes directory spool) :
    Program.wp fileSystem
      (fun result after => result.1 = spool ∧ after = directory)
      (fun after => after = directory) spool.peek directory := by
  refine Program.wp_mono
    (Disk.wp_peek measures.stored measures.lists) ?_ fun _ dead => dead
  rintro result after ⟨kept, same, -⟩
  exact ⟨kept, same⟩

theorem Measures.wp_release (measures : Measures maxBytes directory spool) :
    Program.wp fileSystem
      (fun result after => Measures maxBytes after result.1)
      (Limited maxBytes) (spool.release name) directory := by
  refine Disk.wp_release measures.stored measures.lists
    measures.toLimited (fun _ => measures) ?_ fun _ => measures
  intro listed
  exact (measures.forget listed).of_eq rfl rfl rfl rfl

end Measuring

/-! ## Opening -/

/-- The size of a file; zero if there is none. -/
def Directory.fileSize (directory : Directory) (name : String) : Nat :=
  ((directory.files.lookup name).getD []).length

theorem Stored.fileSize_eq {entry : Entry} (stored : Stored directory)
    (queued : entry ∈ queueOf directory.journal) :
    directory.fileSize entry.name = entry.payload.length := by
  rw [fileSize, stored.present entry queued]
  rfl

/-- The index that recovery has built knows the sizes of what it found. -/
structure Weighed
    (maxBytes : Int64) (directory : Directory) (spool : Spool)
    (found : List Spool.Found) : Prop where
  maxBytes_eq : spool.maxBytes = maxBytes
  maxEntries_eq : spool.maxEntries = entryLimit maxBytes
  sized : ∀ item ∈ found, spool.sizes.lookup item.name =
    some (Int64.ofNat (directory.fileSize item.name))
  bytes_eq : spool.bytes = Int64.ofNat
    (found.map fun item => directory.fileSize item.name).sum

theorem observing_weighed (maxBytes : Int64) (stored : Stored directory) :
    Observing directory maxBytes fun spool found =>
      Recovered spool found ∧ Weighed maxBytes directory spool found where
  starts := ⟨recovered_new maxBytes, rfl, rfl, by simp, rfl⟩
  observes := by
    rintro spool found entry ordinal sequence ⟨recovered, weighed⟩ queued
      parsed
    have size := stored.fileSize_eq queued
    refine ⟨recovered.observe _ parsed, weighed.maxBytes_eq,
      weighed.maxEntries_eq, ?_, ?_⟩
    · intro item member
      change (spool.sizes.insert _ _).lookup _ = _
      by_cases same : item.name = entry.name
      · rw [same, size]
        exact lookup_insert _
      · rw [lookup_insert_ne same]
        rcases mem_append.mp member with old | new
        · exact weighed.sized item old
        · rw [mem_singleton.mp new] at same
          exact absurd rfl same
    · change spool.bytes + _ = _
      rw [weighed.bytes_eq, ← ofNat_add, map_append,
        sum_append, map_singleton, sum_singleton, size]

section Opening

variable {maxBytes : Int64} {spool : Spool}
variable {found : List Spool.Found}

/-- The index of a directory within the limit, sorted. -/
theorem Weighed.measures (weighed : Weighed maxBytes directory spool found)
    (recovered : Recovered spool found) (limited : Limited maxBytes directory)
    (names : found.map Spool.Found.name = batchNames directory.files.keys) :
    Measures maxBytes directory (spool.sorted found) :=
  { weighed with
    toLimited := limited
    lists := recovered.lists limited.stored names
    sized := by
      intro entry queued
      obtain ⟨item, member, same, -⟩ :=
        recovered.exists_found limited.stored names queued
      rw [← limited.stored.fileSize_eq queued, ← same]
      exact weighed.sized item member }

theorem Weighed.bytes_sorted
    (weighed : Weighed maxBytes directory spool found)
    (stored : Stored directory)
    (names : found.map Spool.Found.name = batchNames directory.files.keys) :
    (spool.sorted found).bytes = ofNat (spooledBytes directory) := by
  have same := (Recovered.sorted_perm stored names).map directory.fileSize
  have sorted := ((perm_insertionSort Spool.Found.inOrder
    found).map Spool.Found.name).map directory.fileSize
  have sizes : (found.map fun item =>
      directory.fileSize item.name).sum = spooledBytes directory := by
    have sums := (sorted.symm.trans same).sum_eq
    rw [map_map, map_map] at sums
    refine sums.trans (congrArg List.sum (map_congr_left ?_))
    intro entry queued
    exact stored.fileSize_eq queued
  exact weighed.bytes_eq.trans (congrArg ofNat sizes)

theorem wp_openSpool_measures (limited : Limited maxBytes directory) :
    Program.wp fileSystem
      (fun result after => match result with
        | .error _ => Limited maxBytes after
        | .ok spool => Measures maxBytes after spool)
      (Limited maxBytes) (openSpool maxBytes) directory := by
  refine wp_openSpool (observing_weighed maxBytes limited.stored)
    limited.stored (evicting_measures maxBytes) ?_ ?_
  · intro after same
    exact limited.of_sameEntries same
  · rintro index found after same ⟨recovered, weighed⟩ names
    exact (weighed.measures recovered limited names).of_sameEntries same

end Opening

end Ironclaw.Disk
