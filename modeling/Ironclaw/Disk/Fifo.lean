import Ironclaw.Disk.Enqueue

/-!
# The spool is a crash-safe queue

Below `2^63` publications the ordinals in the names increase along the queue.
`Intact` adds this to what the directory holds, and `Indexes` adds to the list
of a running process that it is in the order of the queue.  Every operation
keeps both where it finishes, and the first wherever it is killed, so that
opening the directory finds the queue again.
-/

namespace Ironclaw.Disk

open Lib Directory

variable {payload : Payload} {sequence : UInt64}

/-! ## Ordinals -/

/-- The ordinal in a name; zero for a name without one. -/
def ordinalOf (name : String) : Int :=
  match parseName name with
  | some (ordinal, _) => ordinal.toInt
  | none => 0

theorem ordinalOf_entryName (ordinal : Int64) (sequence : UInt64) :
    ordinalOf (entryName ordinal sequence) = ordinal.toInt := by
  rw [ordinalOf, parseName_entryName]

/-- The directory holds the queue, in the order of its ordinals. -/
structure Intact (directory : Directory) : Prop
    extends Stored directory where
  /-- Ordinals are counted from one. -/
  numbered : ∀ entry ∈ queueOf directory.journal, 1 ≤ ordinalOf entry.name ∧
      ordinalOf entry.name ≤ publishedCount directory.journal
  increasing : (queueOf directory.journal).Pairwise fun left right =>
    ordinalOf left.name < ordinalOf right.name

/-- The memory of a process lists the queue in order. -/
structure Indexes (directory : Directory) (spool : Spool) : Prop
    extends Lists directory spool where
  order_eq : spool.order = (queueOf directory.journal).map Entry.name
  enqueued_nonneg : 0 ≤ spool.enqueued.toInt
  enqueued_le : spool.enqueued.toInt ≤ publishedCount directory.journal
  ordinals_le : ∀ entry ∈ queueOf directory.journal,
    ordinalOf entry.name ≤ spool.enqueued.toInt

section Operations

variable {directory after : Directory} {spool : Spool}

theorem Intact.of_sameEntries
    (intact : Intact directory) (same : SameEntries directory after) :
    Intact after where
  toStored := intact.toStored.of_sameEntries same
  numbered := by
    rw [same.queue, same.count]
    exact intact.numbered
  increasing := by
    rw [same.queue]
    exact intact.increasing

theorem Intact.without (intact : Intact directory) (name : String) :
    Intact (directory.without name) where
  toStored := intact.toStored.without name
  numbered := by
    intro entry member
    rw [Directory.without, queueOf_removed] at member
    rw [Directory.without, publishedCount_removed]
    exact intact.numbered entry (List.mem_filter.mp member).1
  increasing := by
    rw [Directory.without, queueOf_removed]
    exact intact.increasing.sublist List.filter_sublist

/-- A new entry with a larger ordinal. -/
theorem Intact.of_published
    {ordinal : Int64} (intact : Intact directory) (stored : Stored after)
    (published : Published directory (entryName ordinal sequence)
      payload after)
    (positive : 1 ≤ ordinal.toInt)
    (bounded : ordinal.toInt ≤ publishedCount directory.journal + 1)
    (newest : ∀ entry ∈ queueOf directory.journal,
      ordinalOf entry.name < ordinal.toInt) : Intact after where
  toStored := stored
  numbered := by
    rw [published.queue, published.count]
    intro entry member
    rcases List.mem_append.mp member with old | new
    · obtain ⟨least, most⟩ := intact.numbered entry old
      omega
    · rw [List.mem_singleton.mp new, ordinalOf_entryName]
      omega
  increasing := by
    rw [published.queue, List.pairwise_append]
    refine ⟨intact.increasing, List.pairwise_singleton _ _, ?_⟩
    intro left old right new
    rw [List.mem_singleton.mp new, ordinalOf_entryName]
    exact newest left old

section Indexes

variable (indexes : Indexes directory spool)
include indexes

theorem Indexes.of_sameEntries (same : SameEntries directory after) :
    Indexes after spool where
  toLists := indexes.toLists.of_sameEntries same
  order_eq := by
    rw [same.queue]
    exact indexes.order_eq
  enqueued_nonneg := indexes.enqueued_nonneg
  enqueued_le := by
    rw [same.count]
    exact indexes.enqueued_le
  ordinals_le := by
    rw [same.queue]
    exact indexes.ordinals_le

theorem Indexes.of_eq {other : Spool} (order : other.order = spool.order)
    (sizes : other.sizes = spool.sizes)
    (enqueued : other.enqueued = spool.enqueued) :
    Indexes directory other where
  toLists := indexes.toLists.of_eq order sizes
  order_eq := order.trans indexes.order_eq
  enqueued_nonneg := enqueued ▸ indexes.enqueued_nonneg
  enqueued_le := enqueued ▸ indexes.enqueued_le
  ordinals_le := enqueued ▸ indexes.ordinals_le

/-- Forgetting an entry whose file was unlinked. -/
theorem Indexes.forget (stored : Stored directory)
    {name : String} (listed : name ∈ spool.order) :
    Indexes (directory.without name) (spool.forget name) where
  toLists := indexes.toLists.forget stored listed
  order_eq := by
    have nodup : spool.order.Nodup := by
      rw [indexes.order_eq]
      exact stored.names_nodup
    rw [(indexes.toLists.order_forget listed).1, nodup.erase_eq_filter,
      without, queueOf_removed, indexes.order_eq,
      List.filter_map]
    congr 1
    apply List.filter_congr
    intro entry _
    simp [bne, beq_eq_decide]
  enqueued_nonneg := by
    simpa using indexes.enqueued_nonneg
  enqueued_le := by
    rw [without, publishedCount_removed]
    simpa using indexes.enqueued_le
  ordinals_le := by
    intro entry member
    rw [without, queueOf_removed] at member
    have bound := indexes.ordinals_le entry (List.mem_filter.mp member).1
    simpa using bound

section Bound

variable (bound : publishedCount directory.journal < 2 ^ 63 - 1)
include bound

theorem Indexes.newest :
    (spool.enqueued + 1).toInt = spool.enqueued.toInt + 1 ∧
      ∀ entry ∈ queueOf directory.journal,
        ordinalOf entry.name < (spool.enqueued + 1).toInt := by
  have most := indexes.enqueued_le
  have next := @Word.toInt_add_one spool.enqueued (by omega)
  refine ⟨next, ?_⟩
  intro entry member
  have ordinal := indexes.ordinals_le entry member
  omega

theorem Indexes.free (sequence : UInt64) :
    entryName (spool.enqueued + 1) sequence ∉ spool.sizes := by
  intro taken
  obtain ⟨entry, member, same⟩ :=
    indexes.mem_order.mp ((indexes.sizes_iff _).mp taken)
  have less := (indexes.newest bound).2 entry member
  rw [same, ordinalOf_entryName] at less
  exact lt_irrefl _ less

/-- The index after the directory gained the entry it appends. -/
theorem Indexes.append
    (published : Published directory
      (entryName (spool.enqueued + 1) sequence) payload after)
    (size : Int64) :
    Indexes after
      (spool.append (entryName (spool.enqueued + 1) sequence) size) := by
  obtain ⟨next, newest⟩ := indexes.newest bound
  have most := indexes.enqueued_le
  have least := indexes.enqueued_nonneg
  refine ⟨indexes.toLists.append published size, ?_, ?_, ?_, ?_⟩
  · rw [published.queue, List.map_append, ← indexes.order_eq]
    rfl
  · change 0 ≤ (spool.enqueued + 1).toInt
    omega
  · change (spool.enqueued + 1).toInt ≤ _
    rw [published.count]
    omega
  · intro entry member
    change _ ≤ (spool.enqueued + 1).toInt
    rw [published.queue] at member
    rcases List.mem_append.mp member with old | new
    · exact le_of_lt (newest entry old)
    · rw [List.mem_singleton.mp new, ordinalOf_entryName]

end Bound

end Indexes

end Operations

/-! ## Eviction -/

/-- The queue lost some of its oldest entries, and nothing else. -/
structure Evicted (directory after : Directory) : Prop where
  journal : directory.journal <+: after.journal
  queue : ∃ amount, queueOf after.journal =
    (queueOf directory.journal).drop amount
  count : publishedCount after.journal = publishedCount directory.journal

theorem SameEntries.evicted
    {directory after : Directory} (same : SameEntries directory after) :
    Evicted directory after :=
  ⟨same.journal, ⟨0, same.queue⟩, same.count⟩

theorem Evicted.refl (directory : Directory) : Evicted directory directory :=
  (SameEntries.refl directory).evicted

theorem Evicted.trans {directory middle after : Directory}
    (first : Evicted directory middle) (second : Evicted middle after) :
    Evicted directory after := by
  obtain ⟨amount, firstQueue⟩ := first.queue
  obtain ⟨more, secondQueue⟩ := second.queue
  refine ⟨first.journal.trans second.journal, ⟨amount + more, ?_⟩,
    second.count.trans first.count⟩
  rw [secondQueue, firstQueue, List.drop_drop]

section Queue

variable {directory : Directory} {spool : Spool}

/-- Removing the oldest entry drops the head of the queue. -/
theorem Indexes.evicted_head
    (indexes : Indexes directory spool) (stored : Stored directory)
    {oldest : String} {rest : List String}
    (first : spool.order = oldest :: rest) :
    Evicted directory (directory.without oldest) := by
  refine ⟨List.prefix_append _ _, ⟨1, ?_⟩, publishedCount_removed _ _⟩
  rw [indexes.order_eq] at first
  cases queue : queueOf directory.journal with
  | nil =>
    rw [queue] at first
    cases first
  | cons head tail =>
    rw [queue, List.map_cons] at first
    obtain ⟨rfl, -⟩ := List.cons.inj first
    exact stored.queueOf_without_head queue

/-- What eviction keeps: it only removes from the oldest end. -/
def Evicts (directory : Directory) (spool : Spool) (after : Directory) :
    Prop :=
  Intact after ∧ Indexes after spool ∧ Evicted directory after

theorem evicting_evicts (directory : Directory) : Evicting (Evicts directory)
      (fun after => Intact after ∧ Evicted directory after) where
  stored holds := holds.1.toStored
  lists holds := holds.2.1.toLists
  crashes holds := ⟨holds.1, holds.2.2⟩
  removes := by
    rintro spool middle oldest rest first ⟨intact, indexes, evicted⟩
    have forgotten := indexes.forget intact.toStored
      (show oldest ∈ spool.order by simp [first])
    exact ⟨intact.without oldest, forgotten.of_eq rfl rfl rfl,
      evicted.trans (indexes.evicted_head intact.toStored first)⟩
  fails := by
    rintro spool middle ⟨intact, indexes, evicted⟩
    exact ⟨intact, indexes.of_eq rfl rfl rfl, evicted⟩

/-! ## The operations -/

/-- Some of the oldest entries were evicted and one entry was published. -/
def Appended
    (directory : Directory) (payload : Payload) (after : Directory) :
    Prop :=
  ∃ middle name, Evicted directory middle ∧
    Published middle name payload after

theorem Indexes.published {after : Directory}
    (indexes : Indexes directory spool) (intact : Intact directory)
    (bound : publishedCount directory.journal < 2 ^ 63 - 1)
    (stored : Stored after)
    (published : Published directory
      (entryName (spool.enqueued + 1) sequence) payload after) :
    Intact after := by
  obtain ⟨next, newest⟩ := indexes.newest bound
  have most := indexes.enqueued_le
  have least := indexes.enqueued_nonneg
  exact intact.of_published stored published (by omega) (by omega) newest

theorem wp_enqueue_fifo (payload : Payload) (intact : Intact directory)
    (indexes : Indexes directory spool)
    (bound : publishedCount directory.journal < 2 ^ 63 - 1) :
    Program.wp fileSystem
      (fun result after => Intact after ∧ Indexes after result.1 ∧
        (result.2.isSome = true ∧ Evicted directory after ∨
          Appended directory payload after))
      (fun after => Intact after ∧
        (Evicted directory after ∨ Appended directory payload after))
      (spool.enqueue payload) directory := by
  have bounded : ∀ {middle}, Evicted directory middle →
      publishedCount middle.journal < 2 ^ 63 - 1 := by
    intro middle evicted
    rw [evicted.count]
    exact bound
  have evicting := evicting_evicts directory
  refine wp_enqueue payload
    (show Evicts directory spool directory from
      ⟨intact, indexes, Evicted.refl directory⟩) ?_ ?_
    { evicting with
      crashes := fun holds => ⟨holds.1, Or.inl holds.2.2⟩ } ?_ ?_ ?_ ?_
  · intro fault
    exact ⟨intact, indexes, Or.inl ⟨rfl, Evicted.refl _⟩⟩
  · rintro spool middle fault ⟨kept, listed, evicted⟩
    exact ⟨kept, listed.of_eq rfl rfl rfl, Or.inl ⟨rfl, evicted⟩⟩
  · rintro spool middle ⟨kept, listed, evicted⟩
    exact listed.free (bounded evicted) _
  · rintro spool middle after fault ⟨kept, listed, evicted⟩ stored same
    have numbered := listed.of_sameEntries same
    exact ⟨kept.of_sameEntries same, numbered.of_eq rfl rfl rfl,
      Or.inl ⟨rfl, evicted.trans same.evicted⟩⟩
  · rintro spool middle after fault ⟨kept, listed, evicted⟩ stored published
    have numbered : Indexes middle { spool with seq := spool.seq + 1 } :=
      listed.of_eq rfl rfl rfl
    exact ⟨numbered.published kept (bounded evicted) stored published,
      numbered.append (bounded evicted) published _,
      Or.inr ⟨middle, _, evicted, published⟩⟩
  · rintro spool middle after ⟨kept, listed, evicted⟩
      ⟨stored, same | published⟩
    · exact ⟨kept.of_sameEntries same, Or.inl (evicted.trans same.evicted)⟩
    · exact ⟨listed.published kept (bounded evicted) stored published,
        Or.inr ⟨middle, _, evicted, published⟩⟩

/-- `Peek` changes nothing and returns the head of the queue. -/
theorem wp_peek_fifo
    (intact : Intact directory) (indexes : Indexes directory spool) :
    Program.wp fileSystem
      (fun result after => result.1 = spool ∧ after = directory ∧
        ∀ payload name, result.2 = .ok (payload, name) →
          (queueOf directory.journal).head? = some ⟨name, payload⟩)
      (fun after => after = directory) spool.peek directory := by
  refine Program.wp_mono (wp_peek intact.toStored indexes.toLists) ?_
    fun _ dead => dead
  rintro result after ⟨kept, same, found⟩
  refine ⟨kept, same, ?_⟩
  intro payload name answer
  obtain ⟨first, member⟩ := found payload name answer
  rw [indexes.order_eq, List.head?_map] at first
  obtain ⟨head, oldest, sameName⟩ := Option.map_eq_some_iff.mp first
  rw [oldest, intact.entry_eq (List.mem_of_head? oldest) member sameName]

/-- `Release` removes the named entry, or nothing. -/
theorem wp_release_fifo (name : String) (intact : Intact directory)
    (indexes : Indexes directory spool) :
    Program.wp fileSystem
      (fun result after => Intact after ∧ Indexes after result.1 ∧
        (after = directory ∧ (result.2 = none →
              name ∉ (queueOf directory.journal).map Entry.name) ∨
          after = directory.without name))
      (fun after => after = directory) (spool.release name) directory := by
  refine wp_release intact.toStored indexes.toLists rfl ?_ ?_ ?_
  · intro absent
    rw [indexes.order_eq] at absent
    exact ⟨intact, indexes, Or.inl ⟨rfl, fun _ => absent⟩⟩
  · intro listed
    have forgotten := indexes.forget intact.toStored listed
    exact ⟨intact.without name, forgotten.of_eq rfl rfl rfl, Or.inr rfl⟩
  · intro fault
    exact ⟨intact, indexes, Or.inl ⟨rfl, nofun⟩⟩

end Queue

end Ironclaw.Disk
