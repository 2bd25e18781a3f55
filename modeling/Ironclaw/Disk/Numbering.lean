import Ironclaw.Disk.Recovery

/-!
# The numbering of a spool

The sequence numbers in the names tell apart all entries that one process ever
publishes, until they wrap: a name is not used again after its entry is gone.
With them comes the count of entries that an `Enqueue` evicts.
-/

namespace Ironclaw.Disk

open Lib List Directory

variable {directory : Directory} {spool : Spool}

/-! ## Names are not reused -/

/-- The sequence number in a name; zero for a name without one. -/
def sequenceOf (name : String) : Nat :=
  match parseName name with
  | some (_, sequence) => sequence.toNat
  | none => 0

theorem sequenceOf_entryName (ordinal : Int64) (sequence : UInt64) :
    sequenceOf (entryName ordinal sequence) = sequence.toNat := by
  rw [sequenceOf, parseName_entryName]

/-- The spool lists its directory and numbers on from all of its entries. -/
structure Keeps (directory : Directory) (spool : Spool) : Prop where
  stored : Stored directory
  lists : Lists directory spool
  sequenced : ∀ entry ∈ queueOf directory.journal,
    sequenceOf entry.name ≤ spool.seq.toNat

theorem toNat_succ {sequence : UInt64} (bound : sequence.toNat + 1 < 2 ^ 64) :
    (sequence + 1).toNat = sequence.toNat + 1 := by
  rw [UInt64.toNat_add]
  exact Nat.mod_eq_of_lt bound

section Keeping

variable {after : Directory}

section Keeps

variable (keeps : Keeps directory spool)
include keeps

theorem Keeps.of_eq {other : Spool} (order : other.order = spool.order)
    (sizes : other.sizes = spool.sizes)
    (seq : spool.seq.toNat ≤ other.seq.toNat) : Keeps directory other where
  stored := keeps.stored
  lists := keeps.lists.of_eq order sizes
  sequenced entry member := (keeps.sequenced entry member).trans seq

theorem Keeps.of_sameEntries (same : SameEntries directory after) :
    Keeps after spool where
  stored := keeps.stored.of_sameEntries same
  lists := keeps.lists.of_sameEntries same
  sequenced := by
    rw [same.queue]
    exact keeps.sequenced

theorem Keeps.forget {name : String} (listed : name ∈ spool.order) :
    Keeps (directory.without name) (spool.forget name) where
  stored := keeps.stored.without name
  lists := keeps.lists.forget keeps.stored listed
  sequenced := by
    intro entry member
    rw [without, queueOf_removed] at member
    have bound := keeps.sequenced entry (mem_filter.mp member).1
    simpa using bound

theorem Keeps.free (bound : spool.seq.toNat + 1 < 2 ^ 64) (ordinal : Int64) :
    entryName ordinal (spool.seq + 1) ∉ spool.sizes := by
  intro taken
  obtain ⟨entry, member, same⟩ :=
    keeps.lists.mem_order.mp ((keeps.lists.sizes_iff _).mp taken)
  have less := keeps.sequenced entry member
  rw [same, sequenceOf_entryName, toNat_succ bound] at less
  omega

theorem Keeps.append {ordinal : Int64} {payload : Payload}
    (bound : spool.seq.toNat + 1 < 2 ^ 64) (stored : Stored after)
    (published : Published directory
      (entryName ordinal (spool.seq + 1)) payload after) (size : Int64) :
    Keeps after
      ({ spool with seq := spool.seq + 1 }.append
        (entryName ordinal (spool.seq + 1)) size) where
  stored := stored
  lists := by
    have numbered : Lists directory { spool with seq := spool.seq + 1 } :=
      keeps.lists.of_eq rfl rfl
    exact numbered.append published size
  sequenced := by
    intro entry member
    change _ ≤ (spool.seq + 1).toNat
    rw [toNat_succ bound]
    rw [published.queue] at member
    rcases mem_append.mp member with old | new
    · have less := keeps.sequenced entry old
      omega
    · rw [mem_singleton.mp new, sequenceOf_entryName, toNat_succ bound]

end Keeps

end Keeping

/-! ## What an `Enqueue` drops -/

theorem length_filter_notMem
    {Item : Type} [DecidableEq Item] {some all : List Item}
    (part : some.Sublist all) (distinct : all.Nodup) :
    (all.filter fun item => item ∉ some).length + some.length =
      all.length := by
  have inside : (all.filter fun item => item ∈ some).Perm some := by
    rw [perm_ext_iff_of_nodup (distinct.filter _) (distinct.sublist part)]
    intro item
    simp only [mem_filter, decide_eq_true_eq, and_iff_right_iff_imp]
    exact fun member => part.subset member
  have split := length_eq_length_filter_add
    (l := all) fun item => decide (item ∈ some)
  rw [inside.length_eq] at split
  simp only [← decide_not] at split
  omega

/-- The entries that are in one directory and not in another. -/
def missing (directory other : Directory) : List Entry :=
  (queueOf directory.journal).filter fun entry =>
    entry ∉ queueOf other.journal

theorem mem_missing {other : Directory} {entry : Entry} :
    entry ∈ missing directory other ↔ entry ∈ queueOf directory.journal ∧
        entry ∉ queueOf other.journal := by
  rw [missing, mem_filter, decide_eq_true_eq]

/-- What an `Enqueue` has done once it evicted some entries. -/
structure Counted
    (directory : Directory) (spool evicted : Spool) (middle : Directory) :
    Prop where
  keeps : Keeps middle evicted
  seq : evicted.seq = spool.seq
  part : (queueOf middle.journal).Sublist (queueOf directory.journal)
  count : ∃ amount, (queueOf middle.journal).length + amount =
        (queueOf directory.journal).length ∧
      evicted.dropped = spool.dropped + Int64.ofNat amount

theorem evicting_counted (directory : Directory) (spool : Spool) :
    Evicting (Counted directory spool) (fun _ => True) where
  stored holds := holds.keeps.stored
  lists holds := holds.keeps.lists
  crashes _ := trivial
  removes := by
    intro evicted middle oldest rest first holds
    have listed : oldest ∈ evicted.order := by simp [first]
    obtain ⟨entry, queued, rfl⟩ := holds.keeps.lists.mem_order.mp listed
    obtain ⟨amount, lengths, counted⟩ := holds.count
    have shorter := (holds.keeps.stored.perm_without queued).length_eq
    rw [length_cons] at shorter
    refine ⟨(holds.keeps.forget listed).of_eq rfl rfl (le_refl _), ?_,
      ?_, amount + 1, ?_, ?_⟩
    · simpa using holds.seq
    · refine Sublist.trans ?_ holds.part
      rw [without, queueOf_removed]
      exact filter_sublist
    · omega
    · rw [Word.ofNat_succ, ← Int64.add_assoc, ← counted]
      simp
  fails := by
    intro evicted middle holds
    exact { holds with keeps := holds.keeps.of_eq rfl rfl (le_refl _) }

theorem Counted.dropped_eq
    {middle : Directory} {evicted : Spool} (stored : Stored directory)
    (holds : Counted directory spool evicted middle) :
    evicted.dropped = spool.dropped +
      Int64.ofNat (missing directory middle).length := by
  obtain ⟨amount, lengths, counted⟩ := holds.count
  have split := length_filter_notMem holds.part stored.names_nodup.of_map
  rw [counted, missing]
  congr 2
  omega

/-- What an `Enqueue` does to the directory and the index. -/
structure Enqueued
    (directory : Directory) (spool : Spool) (payload : Payload)
    (result : Spool × Option Fault) (after : Directory) : Prop where
  keeps : Keeps after result.1
  seq_le : spool.seq.toNat ≤ result.1.seq.toNat
  le_seq : result.1.seq.toNat ≤ spool.seq.toNat + 1
  /-- A new entry is the payload, under a name never used before. -/
  fresh : ∀ entry ∈ queueOf after.journal, entry ∉ queueOf directory.journal →
      entry.payload = payload ∧ sequenceOf entry.name = spool.seq.toNat + 1
  spooled : result.2 = none →
    ∃ entry ∈ queueOf after.journal, entry ∉ queueOf directory.journal
  dropped :
    let evicted := spool.dropped +
      Int64.ofNat (missing directory after).length
    result.1.dropped = evicted ∨ result.1.dropped = evicted + 1

theorem missing_eq_of_queue {middle after : Directory}
    (queue : ∀ entry ∈ queueOf directory.journal,
      entry ∈ queueOf after.journal ↔ entry ∈ queueOf middle.journal) :
    missing directory after = missing directory middle := by
  apply filter_congr
  intro entry member
  rw [decide_eq_decide, queue entry member]

/-- An `Enqueue` that published nothing. -/
theorem Counted.enqueued
    {middle after : Directory} {evicted result : Spool} {payload : Payload}
    {fault : Fault} (stored : Stored directory)
    (holds : Counted directory spool evicted middle)
    (same : SameEntries middle after) (order : result.order = evicted.order)
    (sizes : result.sizes = evicted.sizes)
    (seq_le : evicted.seq.toNat ≤ result.seq.toNat)
    (le_seq : result.seq.toNat ≤ evicted.seq.toNat + 1)
    (dropped : result.dropped = evicted.dropped ∨
      result.dropped = evicted.dropped + 1) :
    Enqueued directory spool payload (result, some fault) after where
  keeps := (holds.keeps.of_sameEntries same).of_eq order sizes seq_le
  seq_le := by
    rw [← holds.seq]
    exact seq_le
  le_seq := by
    rw [← holds.seq]
    exact le_seq
  fresh := by
    rw [same.queue]
    intro entry member absent
    exact absurd (holds.part.subset member) absent
  spooled := nofun
  dropped := by
    have lost : missing directory after =
        missing directory middle := by
      apply missing_eq_of_queue
      intro entry _
      rw [same.queue]
    simp only [lost, ← holds.dropped_eq stored]
    exact dropped

theorem wp_enqueue_counted (payload : Payload) (keeps : Keeps directory spool)
    (bound : spool.seq.toNat + 1 < 2 ^ 64) :
    Program.wp fileSystem (Enqueued directory spool payload)
      (fun _ => True) (spool.enqueue payload) directory := by
  have start : Counted directory spool spool directory :=
    ⟨keeps, rfl, Sublist.refl _, 0, rfl, by simp⟩
  have next : ∀ {evicted middle}, Counted directory spool evicted middle →
        evicted.seq.toNat + 1 < 2 ^ 64 := by
    intro evicted middle holds
    rw [holds.seq]
    exact bound
  refine wp_enqueue payload start ?_ ?_
    (evicting_counted directory spool) ?_ ?_ ?_ fun _ _ _ _ _ => trivial
  · intro fault
    exact start.enqueued keeps.stored (SameEntries.refl directory) rfl rfl
      (le_refl _) (Nat.le_succ _) (Or.inl rfl)
  · intro evicted middle fault holds
    exact holds.enqueued keeps.stored (SameEntries.refl middle) rfl rfl
      (le_refl _) (Nat.le_succ _) (Or.inr rfl)
  · intro evicted middle holds
    exact holds.keeps.free (next holds) _
  · intro evicted middle after fault holds stored same
    have number := toNat_succ (next holds)
    exact holds.enqueued keeps.stored same rfl rfl
      (by change _ ≤ (evicted.seq + 1).toNat; omega)
      (by change (evicted.seq + 1).toNat ≤ _; omega) (Or.inl rfl)
  · intro evicted middle after fault holds stored published
    have number := toNat_succ (next holds)
    have unknown : ∀ entry ∈ queueOf directory.journal, entry.name ≠
          entryName (evicted.enqueued + 1) (evicted.seq + 1) := by
      intro entry member same
      have less := keeps.sequenced entry member
      rw [same, sequenceOf_entryName, number, holds.seq] at less
      omega
    constructor
    · exact holds.keeps.append (next holds) stored published _
    · change _ ≤ (evicted.seq + 1).toNat
      rw [number, holds.seq]
      omega
    · change (evicted.seq + 1).toNat ≤ _
      rw [number, holds.seq]
    · rw [published.queue]
      intro entry member absent
      rcases mem_append.mp member with old | new
      · exact absurd (holds.part.subset old) absent
      · rw [mem_singleton.mp new, sequenceOf_entryName, number, holds.seq]
        exact ⟨rfl, rfl⟩
    · intro _
      refine ⟨⟨_, payload⟩, ?_, fun old => unknown _ old rfl⟩
      rw [published.queue]
      exact mem_append_right _ (mem_singleton.mpr rfl)
    · have lost : missing directory after =
          missing directory middle := by
        apply missing_eq_of_queue
        intro entry member
        rw [published.queue, mem_append, mem_singleton]
        constructor
        · rintro (old | rfl)
          · exact old
          · exact absurd rfl (unknown _ member)
        · exact Or.inl
      simp only [lost, ← holds.dropped_eq keeps.stored]
      exact Or.inl rfl

/-! ## What `Release` removes -/

/-- What `Release` leaves of the queue. -/
structure Released
    (directory : Directory) (spool : Spool) (name : String)
    (result : Spool) (after : Directory) : Prop where
  keeps : Keeps after result
  seq : result.seq = spool.seq
  dropped : result.dropped = spool.dropped
  queue : ∀ entry, entry ∈ queueOf after.journal →
    entry ∈ queueOf directory.journal
  only : ∀ entry ∈ queueOf directory.journal,
    entry ∉ queueOf after.journal → entry.name = name

theorem wp_release_released (name : String) (keeps : Keeps directory spool) :
    Program.wp fileSystem
      (fun result after => Released directory spool name result.1 after)
      (fun _ => True) (spool.release name) directory := by
  have unchanged : Released directory spool name spool directory :=
    ⟨keeps, rfl, rfl, fun _ member => member,
      fun _ member absent => absurd member absent⟩
  refine wp_release keeps.stored keeps.lists trivial
    (fun _ => unchanged) ?_ fun _ => unchanged
  intro listed
  refine ⟨(keeps.forget listed).of_eq rfl rfl (le_refl _), by simp,
    by simp, ?_, ?_⟩
  · intro entry member
    rw [without, queueOf_removed] at member
    exact (mem_filter.mp member).1
  · intro entry member absent
    rw [without, queueOf_removed, mem_filter] at absent
    by_contra different
    exact absent ⟨member, by simpa using different⟩

/-! ## An opened spool -/

theorem evicting_keeps :
    Evicting (fun spool directory => Keeps directory spool)
      (fun _ => True) where
  stored keeps := keeps.stored
  lists keeps := keeps.lists
  crashes _ := trivial
  removes first keeps :=
    (keeps.forget (by simp [first])).of_eq rfl rfl (le_refl _)
  fails keeps := keeps.of_eq rfl rfl (le_refl _)

theorem keeps_of_open {maxBytes : Int64} {before : Directory}
    {verdicts unused : List FsVerdict} (stored : Stored before)
    (ran : (openSpool maxBytes).run fileSystem before verdicts =
      .finished directory (.ok spool) unused) :
    Keeps directory spool := by
  have opened := Program.finished_of_wp
    (wp_openSpool (observing_recovered before maxBytes) stored
      evicting_keeps (fun _ _ => trivial) ?_) ran
  · exact opened
  · intro index found after same recovered names
    have listed := recovered.lists stored names
    refine Keeps.of_sameEntries ⟨stored, listed, ?_⟩ same
    intro entry queued
    obtain ⟨item, member, -, parsed⟩ :=
      recovered.exists_found stored names queued
    rw [sequenceOf, parsed]
    exact recovered.sequences_le item member

end Ironclaw.Disk
