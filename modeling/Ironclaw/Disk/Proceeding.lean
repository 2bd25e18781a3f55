import Ironclaw.Disk.Enqueue

/-!
# Runs under given verdicts

What the operations of a spool do when every file system call proceeds, and
what a removal does that fails.
-/

namespace Ironclaw.Disk

open Lib Program Directory Spool

variable {directory : Directory} {spool : Spool} {entry : Entry}

theorem run_attempt
    (call : FsCall) (directory : Directory) (unused : List FsVerdict) :
    (attempt call).run fileSystem directory (.proceed :: unused) =
      .finished (directory.proceed call).1
        (directory.proceed call).2.fault unused :=
  rfl

theorem run_peek (stored : Stored directory)
    (queued : entry ∈ queueOf directory.journal)
    {rest : List String} (order : spool.order = entry.name :: rest)
    (unused : List FsVerdict) :
    spool.peek.run fileSystem directory (.proceed :: .proceed :: unused) =
      .finished directory (spool, .ok (entry.payload, entry.name))
        unused := by
  have present := stored.present entry queued
  rw [peek, order]
  simp only [run_bind, perform, run, fileSystem, proceed, present]
  rfl

theorem run_release
    (stored : Stored directory) (lists : Lists directory spool)
    (queued : entry ∈ queueOf directory.journal) (unused : List FsVerdict) :
    (spool.release entry.name).run fileSystem directory (.proceed :: unused) =
      .finished (directory.without entry.name)
        ({ spool.forget entry.name with
            dequeued := (spool.forget entry.name).dequeued + 1 }, none)
        unused := by
  have listed : entry.name ∈ spool.sizes :=
    (lists.sizes_iff _).mpr (lists.mem_order.mpr ⟨entry, queued, rfl⟩)
  rw [release, if_pos listed, run_bind, run_removeLocked stored queued]
  rfl

/-- The directory after a payload was written and renamed. -/
def Directory.publishing
    (directory : Directory) (name : String) (payload : Payload) :
    Directory where
  files := (((directory.files.insert (name ++ pending) []).insert
    (name ++ pending) payload).erase (name ++ pending)).insert name payload
  journal := directory.journal ++ [.published name payload]

theorem run_publish (directory : Directory) (spool : Spool) (name : String)
    (payload : Payload) (unused : List FsVerdict) :
    (spool.publish name payload).run fileSystem directory
        (.proceed :: .proceed :: .proceed :: .proceed :: .proceed ::
          .proceed :: unused) = .finished (directory.publishing name payload)
        (spool.append name (Int64.ofNat payload.length), none) unused := by
  have written : (writeFileSynced (name ++ pending) payload).run fileSystem
          directory
          (.proceed :: .proceed :: .proceed :: .proceed :: .proceed ::
            .proceed :: unused) =
        .finished
          { directory with
            files := (directory.files.insert (name ++ pending) []).insert
              (name ++ pending) payload }
          none (.proceed :: .proceed :: unused) :=
    rfl
  rw [publish, run_bind, written]
  simp only
  rw [run_bind, run_attempt]
  simp only [proceed, AList.lookup_insert]
  rfl

theorem run_enqueue {middle : Directory} {evicted : Spool} {payload : Payload}
    {verdicts unused : List FsVerdict} (present : payload ≠ [])
    (fits : ¬spool.maxBytes < Int64.ofNat payload.length)
    (evicts : (spool.makeRoom payload).run fileSystem directory verdicts =
      .finished middle evicted (.proceed :: .proceed :: .proceed ::
        .proceed :: .proceed :: .proceed :: unused))
    (room : evicted.order.length < evicted.maxEntries)
    (free : evicted.nextEntry (evicted.seq + 1) ∉ evicted.sizes) :
    (spool.enqueue payload).run fileSystem directory verdicts = .finished
        (middle.publishing (evicted.nextEntry (evicted.seq + 1)) payload)
        ({ evicted with seq := evicted.seq + 1 }.append
          (evicted.nextEntry (evicted.seq + 1))
          (Int64.ofNat payload.length), none) unused := by
  rw [enqueue_eq present fits, run_bind, evicts]
  simp only
  rw [store, if_neg (Nat.not_le.mpr room), (draws_succ free).1]
  exact run_publish _ _ _ _ unused

/-- Publication adds an entry under a name that no other has. -/
theorem Stored.publishing
    (stored : Stored directory) {ordinal : Int64} {sequence : UInt64}
    {payload : Payload}
    (fresh : ∀ entry ∈ queueOf directory.journal,
      entry.name ≠ entryName ordinal sequence) :
    Stored (directory.publishing (entryName ordinal sequence) payload) ∧
      Published directory (entryName ordinal sequence) payload
        (directory.publishing (entryName ordinal sequence) payload) := by
  have temporary : ext (entryName ordinal sequence ++ pending) ≠
      extension := by
    rw [ext_pending]
    decide
  have same := (@sameEntries_insert _ directory [] temporary).trans
    (sameEntries_insert payload temporary)
  have kept := stored.of_sameEntries same
  exact ⟨@Stored.publish payload _ _ _ kept _ temporary fresh,
    List.prefix_append _ _, queueOf_published _ _ _,
    publishedCount_published _ _ _, stored.vacant fresh⟩

end Ironclaw.Disk
