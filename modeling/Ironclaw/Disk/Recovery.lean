import Ironclaw.Disk.Fifo

/-!
# Recovery, and the spool across restarts

Opening a directory rebuilds the index of its queue from the file names: the
entries are found in any order and sorted by their numbers, which is the order
of publication.  Runs of processes that are killed anywhere and started again
on the directory therefore see one queue.
-/

namespace Ironclaw.Disk

open Lib List AList Program Directory Spool

variable {built : Spool → List Found → Prop} {directory : Directory}
variable {maxBytes : Int64}

/-! ## Sorting the entries found -/

theorem Spool.Found.inOrder_iff {left right : Found} :
    left.inOrder right ↔ left.ordinal.toInt < right.ordinal.toInt ∨
        left.ordinal.toInt = right.ordinal.toInt ∧
          left.sequence.toNat ≤ right.sequence.toNat := by
  rw [Found.inOrder, Found.before]
  by_cases same : right.ordinal = left.ordinal
  · simp [same, UInt64.le_iff_toNat_le]
  · have different : right.ordinal.toInt ≠ left.ordinal.toInt :=
      fun equal => same (Int64.toInt_inj.mp equal)
    simp only [ne_eq, same, not_false_eq_true, if_true,
      decide_eq_false_iff_not, Int64.lt_iff_toInt_lt]
    omega

instance : Std.Total Found.inOrder where
  total left right := by
    rw [Found.inOrder_iff, Found.inOrder_iff]
    omega

instance : IsTrans Found Found.inOrder where
  trans first second third := by
    rw [Found.inOrder_iff, Found.inOrder_iff,
      Found.inOrder_iff]
    omega

/-! ## The loop over the directory -/

/-- The index that recovery has built from the files found so far. -/
structure Recovered (spool : Spool) (found : List Found) :
    Prop where
  parsed : ∀ entry ∈ found,
    parseName entry.name = some (entry.ordinal, entry.sequence)
  sizes_iff : ∀ name, name ∈ spool.sizes ↔ name ∈ found.map Found.name
  /-- The ordinals are counted on from the largest one found. -/
  enqueued_eq : spool.enqueued = 0 ∨
    ∃ entry ∈ found, spool.enqueued = entry.ordinal
  enqueued_nonneg : 0 ≤ spool.enqueued.toInt
  ordinals_le : ∀ entry ∈ found, entry.ordinal.toInt ≤ spool.enqueued.toInt
  sequences_le : ∀ entry ∈ found, entry.sequence.toNat ≤ spool.seq.toNat

theorem recovered_new (maxBytes : Int64) :
    Recovered (new maxBytes) [] where
  parsed := by simp
  sizes_iff := by simp [new]
  enqueued_eq := Or.inl rfl
  enqueued_nonneg := le_refl _
  ordinals_le := by simp
  sequences_le := by simp

/-- Indexing one more file. -/
theorem Recovered.observe
    {spool : Spool} {found : List Found} {entry : Found}
    (recovered : Recovered spool found) (size : Nat)
    (parsed : parseName entry.name = some (entry.ordinal, entry.sequence)) :
    Recovered (spool.observe entry size) (found ++ [entry]) := by
  have ordinal : (spool.observe entry size).enqueued.toInt =
      max spool.enqueued.toInt entry.ordinal.toInt := by
    simp only [Spool.observe, Int64.lt_iff_toInt_lt]
    split <;> omega
  have sequence : (spool.observe entry size).seq.toNat =
      max spool.seq.toNat entry.sequence.toNat := by
    simp only [Spool.observe, UInt64.lt_iff_toNat_lt]
    split <;> omega
  have nonneg := recovered.enqueued_nonneg
  constructor
  · exact forall_mem_concat recovered.parsed parsed
  · intro name
    change name ∈ spool.sizes.insert _ _ ↔ _
    rw [mem_insert, recovered.sizes_iff, map_append,
      mem_append, map_singleton, mem_singleton]
    exact or_comm
  · simp only [Spool.observe]
    split
    · exact Or.inr ⟨entry, by simp, rfl⟩
    · rcases recovered.enqueued_eq with zero | ⟨other, member, same⟩
      · exact Or.inl zero
      · exact Or.inr ⟨other, mem_append_left _ member, same⟩
  · omega
  · intro other member
    rcases mem_append.mp member with old | new
    · have less := recovered.ordinals_le other old
      omega
    · rw [mem_singleton.mp new]
      omega
  · intro other member
    rcases mem_append.mp member with old | new
    · have less := recovered.sequences_le other old
      omega
    · rw [mem_singleton.mp new]
      omega

/--
What holds of the index that recovery builds: it holds at first, and for one
more file of the queue.
-/
structure Observing
    (directory : Directory) (maxBytes : Int64)
    (built : Spool → List Found → Prop) : Prop where
  starts : built (Spool.new maxBytes) []
  observes : ∀ {spool found entry ordinal sequence},
    built spool found → entry ∈ queueOf directory.journal →
    parseName entry.name = some (ordinal, sequence) → built
        (spool.observe ⟨entry.name, ordinal, sequence⟩ entry.payload.length)
        (found ++ [⟨entry.name, ordinal, sequence⟩])

theorem observing_recovered (directory : Directory) (maxBytes : Int64) :
    Observing directory maxBytes Recovered where
  starts := recovered_new maxBytes
  observes recovered _ parsed := recovered.observe _ parsed

/-- The files that look like entries. -/
def batchNames (names : List String) : List String :=
  names.filter fun name => ext name = extension

/-- The rule for the loop of recovery. -/
theorem wp_recoverEach
    {middle : Directory} {spool : Spool} {found : List Found}
    (observing : Observing directory maxBytes built) (names : List String)
    (stored : Stored directory) (same : SameEntries directory middle)
    (known : ∀ name ∈ batchNames names,
      ∃ entry ∈ queueOf directory.journal, entry.name = name)
    (holds : built spool found) :
    Program.wp fileSystem
      (fun result after => SameEntries directory after ∧ match result with
        | .error _ => True
        | .ok (spool, all) => built spool all ∧ all.map Found.name =
              found.map Found.name ++ batchNames names)
      (fun after => SameEntries directory after)
      (recoverEach names spool found) middle := by
  induction names generalizing middle spool found with
  | nil => exact ⟨same, holds, by simp [batchNames]⟩
  | cons name rest induction =>
    have later : ∀ other ∈ batchNames rest,
        ∃ entry ∈ queueOf directory.journal, entry.name = other := by
      intro other member
      apply known
      obtain ⟨listed, batch⟩ := mem_filter.mp member
      exact mem_filter.mpr ⟨mem_cons_of_mem _ listed, batch⟩
    rw [recoverEach]
    by_cases temporary : ext name = pending
    · have notBatch : ext name ≠ extension := by
        rw [temporary]
        decide
      have skipped : batchNames (name :: rest) = batchNames rest := by
        simp [batchNames, notBatch]
      rw [if_pos temporary, skipped]
      have kept := stored.of_sameEntries same
      refine wp_bind (wp_attempt_atomic (fun _ => rfl) same
        ?_ (induction same later holds))
      refine induction ?_ later holds
      cases present : middle.files.lookup name with
      | none =>
        simp only [proceed, present]
        exact same
      | some content =>
        simp only [proceed, present]
        exact same.trans (kept.sameEntries_without notBatch)
    · rw [if_neg temporary]
      by_cases batch : ext name = extension
      · have taken : batchNames (name :: rest) = name :: batchNames rest := by
          simp [batchNames, batch]
        rw [if_neg (fun other => other batch), taken]
        obtain ⟨entry, member, rfl⟩ := known name (by simp [taken])
        have kept := stored.of_sameEntries same
        have present := kept.present entry (same.queue ▸ member)
        obtain ⟨ordinal, sequence, named⟩ := stored.named entry member
        have parsed : parseName entry.name = some (ordinal, sequence) := by
          rw [named]
          exact parseName_entryName ordinal sequence
        refine wp_bind (wp_call same ?_ (fun _ => ⟨same, trivial⟩)
          fun _ => same)
        simp only [proceed, present, parsed]
        have observed := observing.observes holds member parsed
        refine wp_mono (induction same later observed) ?_
          fun _ crashed => crashed
        rintro result after ⟨whole, described⟩
        refine ⟨whole, ?_⟩
        cases result with
        | error fault => trivial
        | ok result =>
          refine ⟨described.1, described.2.trans ?_⟩
          simp
      · have skipped : batchNames (name :: rest) = batchNames rest := by
          simp [batchNames, batch]
        rw [if_pos batch, skipped]
        exact induction same later holds

/-! ## The recovered order -/

section Order

variable {after : Directory} {spool : Spool}
variable {found : List Found}

theorem Stored.mem_batchNames (stored : Stored directory) {name : String} :
    name ∈ batchNames directory.files.keys ↔
      name ∈ (queueOf directory.journal).map Entry.name := by
  constructor
  · intro member
    obtain ⟨listed, batch⟩ := mem_filter.mp member
    obtain ⟨payload, present⟩ := Option.isSome_iff_exists.mp
      (lookup_isSome.mpr (mem_keys.mpr listed))
    have entry := stored.only name payload present (of_decide_eq_true batch)
    exact mem_map.mpr ⟨_, entry, rfl⟩
  · intro member
    obtain ⟨entry, queued, rfl⟩ := mem_map.mp member
    refine mem_filter.mpr ⟨?_, by simp [stored.ext_eq queued]⟩
    rw [← AList.mem_keys, ← AList.lookup_isSome, stored.present entry queued]
    rfl

/-- The index of everything that was found, sorted. -/
def Spool.sorted (found : List Found) (spool : Spool) : Spool :=
  { spool with
    order := (found.insertionSort Found.inOrder).map Found.name }

theorem Recovered.sorted_perm (stored : Stored directory)
    (names : found.map Found.name = batchNames directory.files.keys) :
    ((found.insertionSort Found.inOrder).map Found.name).Perm
        ((queueOf directory.journal).map Entry.name) := by
  have distinct : (batchNames directory.files.keys).Nodup :=
    Nodup.filter _ directory.files.nodupKeys
  refine ((perm_insertionSort _ found).map _).trans ?_
  rw [names, perm_ext_iff_of_nodup distinct stored.names_nodup]
  exact fun name => stored.mem_batchNames

theorem Recovered.lists
    (recovered : Recovered spool found) (stored : Stored directory)
    (names : found.map Found.name = batchNames directory.files.keys) :
    Lists directory (spool.sorted found) where
  order_perm := Recovered.sorted_perm stored names
  sizes_iff := by
    intro name
    have listed := (Recovered.sorted_perm stored names).mem_iff (a := name)
    rw [← stored.mem_batchNames, ← names] at listed
    exact (recovered.sizes_iff name).trans listed.symm

theorem Recovered.exists_found
    (recovered : Recovered spool found) (stored : Stored directory)
    (names : found.map Found.name = batchNames directory.files.keys)
    {entry : Entry} (queued : entry ∈ queueOf directory.journal) :
    ∃ item ∈ found, item.name = entry.name ∧
      parseName entry.name = some (item.ordinal, item.sequence) := by
  have listed : entry.name ∈ found.map Found.name := by
    rw [names, stored.mem_batchNames]
    exact mem_map_of_mem queued
  obtain ⟨item, member, same⟩ := mem_map.mp listed
  exact ⟨item, member, same, same ▸ recovered.parsed item member⟩

theorem Intact.name_eq_of_ordinal
    (intact : Intact directory) {left right : String}
    (leftMember : left ∈ (queueOf directory.journal).map Entry.name)
    (rightMember : right ∈ (queueOf directory.journal).map Entry.name)
    (same : ordinalOf left = ordinalOf right) : left = right := by
  have distinct : (((queueOf directory.journal).map Entry.name).map
        ordinalOf).Nodup := by
    rw [nodup_iff_pairwise_ne, map_map, pairwise_map]
    exact intact.increasing.imp fun less => ne_of_lt less
  exact inj_on_of_nodup_map distinct leftMember rightMember same

/-- Sorting what was found gives the order of publication. -/
theorem Recovered.sorted_eq
    (recovered : Recovered spool found) (intact : Intact directory)
    (names : found.map Found.name = batchNames directory.files.keys) :
    (found.insertionSort Found.inOrder).map Found.name =
      (queueOf directory.journal).map Entry.name := by
  have same := Recovered.sorted_perm intact.toStored names
  have ordinal : ∀ entry ∈ found.insertionSort Found.inOrder,
      ordinalOf entry.name = entry.ordinal.toInt := by
    intro entry member
    rw [ordinalOf, recovered.parsed entry
      ((perm_insertionSort _ found).mem_iff.mp member)]
  refine @List.Perm.eq_of_pairwise _
    (fun left right => ordinalOf left ≤ ordinalOf right) _ _
    ?_ ?_ ?_ same
  · intro left right leftMember rightMember less greater
    exact intact.name_eq_of_ordinal (same.mem_iff.mp leftMember)
      rightMember (le_antisymm less greater)
  · rw [pairwise_map]
    refine (pairwise_insertionSort Found.inOrder found).imp_of_mem ?_
    intro left right leftMember rightMember sorted
    rw [ordinal left leftMember, ordinal right rightMember]
    rw [Found.inOrder_iff] at sorted
    omega
  · rw [pairwise_map]
    exact intact.increasing.imp fun less => le_of_lt less

theorem Recovered.indexes
    (recovered : Recovered spool found) (intact : Intact directory)
    (names : found.map Found.name = batchNames directory.files.keys) :
    Indexes directory (spool.sorted found) where
  toLists := recovered.lists intact.toStored names
  order_eq := recovered.sorted_eq intact names
  enqueued_nonneg := recovered.enqueued_nonneg
  enqueued_le := by
    change spool.enqueued.toInt ≤ _
    rcases recovered.enqueued_eq with zero | ⟨item, member, same⟩
    · rw [zero]
      exact Int.natCast_nonneg _
    · have listed : item.name ∈
          (queueOf directory.journal).map Entry.name := by
        rw [← intact.mem_batchNames, ← names]
        exact mem_map_of_mem member
      obtain ⟨entry, queued, sameName⟩ := mem_map.mp listed
      have bound := (intact.numbered entry queued).2
      rw [sameName, ordinalOf, recovered.parsed item member] at bound
      rw [same]
      exact bound
  ordinals_le := by
    intro entry queued
    obtain ⟨item, member, -, parsed⟩ :=
      recovered.exists_found intact.toStored names queued
    rw [ordinalOf, parsed]
    exact recovered.ordinals_le item member

end Order

/-! ## Opening -/

/-- The rule for `recover`. -/
theorem wp_recover (observing : Observing directory maxBytes built)
    (stored : Stored directory) :
    Program.wp fileSystem
      (fun result after => SameEntries directory after ∧ match result with
        | .error _ => True
        | .ok spool => ∃ index found, built index found ∧
            found.map Found.name = batchNames directory.files.keys ∧
            spool = index.sorted found)
      (fun after => SameEntries directory after)
      (new maxBytes).recover directory := by
  have known : ∀ name ∈ batchNames directory.files.keys,
      ∃ entry ∈ queueOf directory.journal, entry.name = name := by
    intro name member
    exact mem_map.mp (stored.mem_batchNames.mp member)
  have same := SameEntries.refl directory
  refine wp_bind (wp_call same ?_ (fun _ => ⟨same, trivial⟩) fun _ => same)
  refine wp_bind (wp_mono
    (wp_recoverEach observing directory.files.keys stored
      (SameEntries.refl directory) known observing.starts) ?_
    fun _ crashed => crashed)
  rintro result after ⟨same, described⟩
  cases result with
  | error fault => exact ⟨same, trivial⟩
  | ok result => exact ⟨same, result.1, result.2, described.1,
      described.2, rfl⟩

/-- The rule for `Open`: trimming keeps what holds of the recovered index. -/
theorem wp_openSpool
    {invariant : Spool → Directory → Prop} {crash : Directory → Prop}
    (observing : Observing directory maxBytes built)
    (stored : Stored directory) (evicting : Evicting invariant crash)
    (crashes : ∀ after, SameEntries directory after → crash after)
    (recovers : ∀ index found after, SameEntries directory after →
      built index found →
      found.map Found.name = batchNames directory.files.keys →
        invariant (index.sorted found) after) :
    Program.wp fileSystem
      (fun result after => match result with
        | .error _ => crash after
        | .ok spool => invariant spool after)
      crash (openSpool maxBytes) directory := by
  have here := crashes directory (SameEntries.refl directory)
  rw [openSpool]
  split
  · exact here
  · refine wp_bind (wp_attempt_atomic (fun _ => rfl) here ?_ here)
    refine wp_bind (wp_attempt_atomic (fun _ => rfl) here ?_ here)
    refine wp_bind (wp_mono (wp_recover observing stored) ?_ crashes)
    rintro result middle ⟨same, recovered⟩
    cases result with
    | error fault => exact crashes middle same
    | ok spool =>
      obtain ⟨index, found, holds, names, rfl⟩ := recovered
      exact wp_bind (wp_evictWhile evicting _ _
        (recovers index found middle same holds names))

theorem wp_openSpool_fifo (maxBytes : Int64) (intact : Intact directory) :
    Program.wp fileSystem
      (fun result after => match result with
        | .error _ => Intact after ∧ Evicted directory after
        | .ok spool => Evicts directory spool after)
      (fun after => Intact after ∧ Evicted directory after)
      (openSpool maxBytes) directory := by
  refine wp_openSpool (observing_recovered directory maxBytes)
    intact.toStored (evicting_evicts directory) ?_ ?_
  · intro after same
    exact ⟨intact.of_sameEntries same, same.evicted⟩
  · intro index found after same recovered names
    have indexes := recovered.indexes intact names
    exact ⟨intact.of_sameEntries same, indexes.of_sameEntries same,
      same.evicted⟩

end Ironclaw.Disk
