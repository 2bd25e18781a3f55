import Ironclaw.Disk.Enqueue
import Ironclaw.Disk.Proceeding

/-!
# Many publications

A spool with room for one byte takes one payload after the other, each
evicting the one before.  After `count` such laps the numbers of its entry are
`count` modulo their range, so that runs in which they wrap can be built.
-/

namespace Ironclaw.Disk

open Lib List Int64 Spool

/-- The name of the entry published by a lap, counted from one. -/
def lapName (count : Nat) : String :=
  entryName (Int64.ofNat count) (UInt64.ofNat count)

theorem lapName_succ (count : Nat) : lapName (count + 1) =
      entryName (ofNat count + 1) (UInt64.ofNat count + 1) := by
  rw [lapName, Word.ofNat_succ, UInt64.ofNat_add]
  rfl

theorem lapName_ne (count : Nat) : lapName count ≠ lapName (count + 1) := by
  intro same
  have numbers := (entryName_injective same).2
  rw [UInt64.ofNat_add] at numbers
  have one : (1 : UInt64) = 0 := by
    have := (UInt64.left_eq_add (a := UInt64.ofNat count)).mp numbers
    exact this
  cases one

/-- A directory and its spool after some laps. -/
structure Lap (count : Nat) (directory : Directory) (spool : Spool) :
    Prop where
  stored : Stored directory
  lists : Lists directory spool
  entries : queueOf directory.journal = [⟨lapName count, [7]⟩]
  order : spool.order = [lapName count]
  size : spool.sizes.lookup (lapName count) = some 1
  bytes : spool.bytes = 1
  maxBytes : spool.maxBytes = 1
  maxEntries : spool.maxEntries = 64
  seq : spool.seq = UInt64.ofNat count
  enqueued : spool.enqueued = Int64.ofNat count

/-- The spool while its only entry is evicted. -/
def lapEvicted (count : Nat) (spool : Spool) : Spool :=
  { spool.forget (lapName count) with
    dropped := (spool.forget (lapName count)).dropped + 1 }

/-- The directory and the spool after one more lap. -/
def lapDirectory (count : Nat) (directory : Directory) : Directory :=
  (directory.without (lapName count)).publishing (lapName (count + 1)) [7]

def lapSpool (count : Nat) (spool : Spool) : Spool :=
  { lapEvicted count spool with
    seq := (lapEvicted count spool).seq + 1 }.append
      (lapName (count + 1)) 1

namespace Lap

variable {count : Nat} {directory : Directory} {spool : Spool}

section Lap

variable (lap : Lap count directory spool)
include lap

theorem queued :
    (⟨lapName count, [7]⟩ : Entry) ∈ queueOf directory.journal := by
  rw [lap.entries]
  exact mem_singleton.mpr rfl

theorem listed : lapName count ∈ spool.order := by
  rw [lap.order]
  exact mem_singleton.mpr rfl

theorem order_evicted : (lapEvicted count spool).order = [] := by
  change (spool.forget (lapName count)).order = []
  rw [(lap.lists.order_forget lap.listed).1, lap.order, erase_cons_head]

theorem bytes_evicted : (lapEvicted count spool).bytes = 0 := by
  change (spool.forget (lapName count)).bytes = 0
  simp only [forget, lap.size, lap.bytes]
  rfl

theorem entries_without :
    queueOf (directory.without (lapName count)).journal = [] :=
  lap.stored.queueOf_without_head lap.entries

theorem lists_evicted : Lists (directory.without (lapName count))
      (lapEvicted count spool) :=
  (lap.lists.forget lap.stored lap.listed).of_eq rfl rfl

theorem nextEntry_eq {other : Spool} (seq : other.seq = spool.seq)
    (enqueued : other.enqueued = spool.enqueued) :
    other.nextEntry (other.seq + 1) = lapName (count + 1) := by
  rw [nextEntry, lapName_succ, seq, enqueued, lap.enqueued, lap.seq]

theorem exceeds : spool.crowded [7] = true := by
  rw [crowded, lap.maxBytes, lap.bytes]
  decide

theorem run_makeRoom (unused : List FsVerdict) :
    (spool.makeRoom [7]).run fileSystem directory (.proceed :: unused) =
      .finished (directory.without (lapName count))
        (lapEvicted count spool) unused := by
  have single : spool.order.length = 0 + 1 := by
    rw [lap.order]
    rfl
  rw [makeRoom, single, evictWhile]
  simp only [lap.order]
  rw [if_pos lap.exceeds, Program.run_bind,
    run_removeLocked lap.stored lap.queued]
  rfl

theorem run_enqueue (unused : List FsVerdict) :
    (spool.enqueue [7]).run fileSystem directory
        (List.replicate 7 .proceed ++ unused) =
      .finished (lapDirectory count directory)
        (lapSpool count spool, none) unused := by
  have fits : ¬spool.maxBytes < ofNat [(7 : UInt8)].length := by
    rw [lap.maxBytes]
    decide
  have room : (lapEvicted count spool).order.length <
      (lapEvicted count spool).maxEntries := by
    rw [lap.order_evicted]
    simp [lapEvicted, lap.maxEntries]
  have name := lap.nextEntry_eq
    (show (lapEvicted count spool).seq = spool.seq by simp [lapEvicted])
    (by simp [lapEvicted])
  have free : (lapEvicted count spool).nextEntry
      ((lapEvicted count spool).seq + 1) ∉
        (lapEvicted count spool).sizes := by
    rw [lap.lists_evicted.sizes_iff, lap.order_evicted]
    exact not_mem_nil
  have enqueued := @Disk.run_enqueue directory spool _ _ _ _ unused
    (cons_ne_nil _ _) fits (lap.run_makeRoom _) room free
  rw [name] at enqueued
  exact enqueued

theorem published : Stored (lapDirectory count directory) ∧
      Published (directory.without (lapName count))
        (lapName (count + 1)) [7] (lapDirectory count directory) := by
  apply (lap.stored.without (lapName count)).publishing
  rw [lap.entries_without]
  intro entry member
  exact absurd member not_mem_nil

theorem next : Lap (count + 1) (lapDirectory count directory)
      (lapSpool count spool) := by
  obtain ⟨stored, published⟩ := lap.published
  have evicted : Lists (directory.without (lapName count))
      { lapEvicted count spool with
        seq := (lapEvicted count spool).seq + 1 } :=
    lap.lists_evicted.of_eq rfl rfl
  constructor
  · exact stored
  · exact evicted.append published 1
  · rw [published.queue, lap.entries_without, nil_append]
  · change (lapEvicted count spool).order ++ _ = _
    rw [lap.order_evicted, nil_append]
  · exact AList.lookup_insert _
  · change (lapEvicted count spool).bytes + 1 = 1
    rw [lap.bytes_evicted]
    rfl
  · rw [← lap.maxBytes]
    simp [lapSpool, lapEvicted, append]
  · rw [← lap.maxEntries]
    simp [lapSpool, lapEvicted, append]
  · rw [UInt64.ofNat_add, ← lap.seq]
    simp [lapSpool, lapEvicted, append]
  · rw [Word.ofNat_succ, ← lap.enqueued]
    simp [lapSpool, lapEvicted, append]

end Lap

/-- The first lap, on a new spool. -/
theorem first : Lap 1 (Directory.empty.publishing (lapName 1) [7])
      ({ new 1 with seq := 1 }.append (lapName 1) 1) := by
  have published := @Stored.publishing _ stored_empty (ofNat 1)
    (UInt64.ofNat 1) [7]
    (forall_mem_nil _)
  have listed : Lists Directory.empty { new 1 with seq := 1 } :=
    ⟨Perm.nil, fun _ => by simp [new]⟩
  exact
    { stored := published.1
      lists := listed.append published.2 1
      entries := rfl
      order := rfl
      size := rfl
      bytes := rfl
      maxBytes := rfl
      maxEntries := rfl
      seq := rfl
      enqueued := rfl }

/-! ## A lap whose eviction fails -/

/-- The spool after a lap that kept the entry before it. -/
def keptSpool (count : Nat) (spool : Spool) : Spool :=
  { spool with
    seq := spool.seq + 1
    dropFailures := spool.dropFailures + 1 }.append (lapName (count + 1)) 1

theorem run_enqueue_kept
    (lap : Lap count directory spool) (unused : List FsVerdict) :
    (spool.enqueue [7]).run fileSystem directory
        (.fail 0 :: List.replicate 6 .proceed ++ unused) =
      .finished (directory.publishing (lapName (count + 1)) [7])
        (keptSpool count spool, none) unused := by
  have fits : ¬spool.maxBytes < ofNat [(7 : UInt8)].length := by
    rw [lap.maxBytes]
    decide
  have single : spool.order.length = 0 + 1 := by
    rw [lap.order]
    rfl
  have evicts : (spool.makeRoom [7]).run fileSystem directory
      (.fail 0 :: List.replicate 6 .proceed ++ unused) = .finished directory
          { spool with dropFailures := spool.dropFailures + 1 }
          (List.replicate 6 .proceed ++ unused) := by
    rw [makeRoom, single, evictWhile]
    split
    · next empty => simp [lap.order] at empty
    · rename_i oldest rest first
      obtain ⟨rfl, -⟩ := List.cons.inj (lap.order.symm.trans first)
      rw [if_pos lap.exceeds, Program.run_bind]
      simp only [cons_append]
      rw [run_removeLocked lap.stored lap.queued]
      rfl
  have name := @nextEntry_eq count directory spool lap
    { spool with dropFailures := spool.dropFailures + 1 } rfl rfl
  have free : lapName (count + 1) ∉ spool.sizes := by
    rw [lap.lists.sizes_iff, lap.order, mem_singleton]
    exact (lapName_ne count).symm
  have enqueued := @Disk.run_enqueue directory spool _ _ _ _ unused
    (cons_ne_nil _ _) fits evicts
    (by simp [lap.order, lap.maxEntries]) (name.symm ▸ free)
  rw [name] at enqueued
  exact enqueued

end Lap

end Ironclaw.Disk
