import Ironclaw.Disk.Spool
import Ironclaw.Lib.Machine

/-!
# The spool and its directory

The queue is what the journal of the directory says: the entries published
and not removed, in order of publication.  `Stored` says that the directory
holds exactly this queue, and `Lists` that the memory of a process lists it.

The rules for the parts of the operations are stated for these two, with
nothing assumed on how the names are ordered: what more an operation keeps is
left to the one who uses the rule.
-/

namespace Ironclaw.Disk

open Lib AList Program Directory Spool

variable {name : String} {payload : Payload} {middle : Directory}

/-! ## Rules for the calls -/

section Calls

variable {Value : Type}
variable {post : Option Fault → Directory → Prop}
variable {crash : Directory → Prop} {directory : Directory}
variable {call : FsCall}

/-- The rule for a call: it proceeds, fails or is cut. -/
theorem wp_call {post : FsReply → Directory → Prop}
    (before : crash directory)
    (proceeds : post (directory.proceed call).2 (directory.proceed call).1)
    (fails : ∀ kept, post (.failed errInputOutput) (directory.cut kept call))
    (dies : ∀ kept, crash (directory.cut kept call)) :
    wp fileSystem post crash (perform call) directory := by
  refine wp_perform before ?_ ?_
  · intro verdict after reply effect
    cases verdict with
    | proceed =>
      cases effect
      exact proceeds
    | fail kept =>
      cases effect
      exact fails kept
    | kill kept => cases effect
  · intro verdict after effect
    cases verdict with
    | proceed | fail => cases effect
    | kill kept =>
      cases effect
      exact dies kept

theorem wp_attempt_atomic
    (atomic : ∀ kept, directory.cut kept call = directory)
    (before : crash directory)
    (proceeds : post (directory.proceed call).2.fault
      (directory.proceed call).1)
    (fails : post (some errInputOutput) directory) :
    wp fileSystem post crash (attempt call) directory := by
  refine wp_bind (wp_call before proceeds ?_ ?_)
  · intro kept
    rw [atomic]
    exact fails
  · intro kept
    rw [atomic]
    exact before

end Calls

/-! ## The queue in the directory -/

/-- How many entries were ever published. -/
def publishedCount (journal : List Happening) : Nat :=
  journal.countP fun happening => match happening with
    | .published _ _ => true
    | .removed _ => false

theorem publishedCount_published
    (journal : List Happening) (name : String) (payload : Payload) :
    publishedCount (journal ++ [.published name payload]) =
      publishedCount journal + 1 := by
  simp [publishedCount]

theorem publishedCount_removed (journal : List Happening) (name : String) :
    publishedCount (journal ++ [.removed name]) =
      publishedCount journal := by
  simp [publishedCount]

/-- The directory holds exactly the queue of its journal. -/
structure Stored (directory : Directory) : Prop where
  named : ∀ entry ∈ queueOf directory.journal,
    ∃ ordinal sequence, entry.name = entryName ordinal sequence
  names_nodup : ((queueOf directory.journal).map Entry.name).Nodup
  present : ∀ entry ∈ queueOf directory.journal,
    directory.files.lookup entry.name = some entry.payload
  /-- No other file looks like an entry. -/
  only : ∀ name payload, directory.files.lookup name = some payload →
    ext name = extension → ⟨name, payload⟩ ∈ queueOf directory.journal

/-- The memory of a process lists the entries of the directory. -/
structure Lists (directory : Directory) (spool : Spool) : Prop where
  order_perm : spool.order.Perm
    ((queueOf directory.journal).map Entry.name)
  sizes_iff : ∀ name, name ∈ spool.sizes ↔ name ∈ spool.order

theorem stored_empty : Stored empty where
  named := List.forall_mem_nil _
  names_nodup := List.nodup_nil
  present := List.forall_mem_nil _
  only _ _ found _ := by cases found

/-- Two directories with the same entries; temporary files may differ. -/
structure SameEntries (directory after : Directory) : Prop where
  journal : directory.journal <+: after.journal
  queue : queueOf after.journal = queueOf directory.journal
  count : publishedCount after.journal = publishedCount directory.journal
  files : ∀ name, ext name = extension →
    after.files.lookup name = directory.files.lookup name

theorem SameEntries.refl (directory : Directory) :
    SameEntries directory directory :=
  ⟨List.prefix_refl _, rfl, rfl, fun _ _ => rfl⟩

theorem SameEntries.trans
    {directory after : Directory} (first : SameEntries directory middle)
    (second : SameEntries middle after) : SameEntries directory after where
  journal := first.journal.trans second.journal
  queue := second.queue.trans first.queue
  count := second.count.trans first.count
  files name batch := (second.files name batch).trans (first.files name batch)

section Entries

variable {directory after : Directory} {spool : Spool}
variable {entry : Entry} {sequence : UInt64} {ordinal : Int64}
variable {crash : Directory → Prop}

section Stored

variable (stored : Stored directory)
include stored

theorem Stored.ext_eq (member : entry ∈ queueOf directory.journal) :
    ext entry.name = extension := by
  obtain ⟨ordinal, sequence, name⟩ := stored.named entry member
  rw [name]
  exact ext_entryName ordinal sequence

theorem Stored.plainName_eq (member : entry ∈ queueOf directory.journal) :
    plainName entry.name = true := by
  obtain ⟨ordinal, sequence, name⟩ := stored.named entry member
  rw [name]
  exact plainName_entryName ordinal sequence

theorem Stored.entry_eq
    {left right : Entry} (leftMember : left ∈ queueOf directory.journal)
    (rightMember : right ∈ queueOf directory.journal)
    (same : left.name = right.name) : left = right :=
  List.inj_on_of_nodup_map stored.names_nodup leftMember rightMember same

theorem Stored.of_sameEntries (same : SameEntries directory after) :
    Stored after where
  named := by
    rw [same.queue]
    exact stored.named
  names_nodup := by
    rw [same.queue]
    exact stored.names_nodup
  present := by
    rw [same.queue]
    intro entry member
    rw [same.files entry.name (stored.ext_eq member)]
    exact stored.present entry member
  only := by
    rw [same.queue]
    intro name payload found batch
    rw [same.files name batch] at found
    exact stored.only name payload found batch

end Stored

theorem Lists.of_sameEntries
    (lists : Lists directory spool) (same : SameEntries directory after) :
    Lists after spool where
  order_perm := by
    rw [same.queue]
    exact lists.order_perm
  sizes_iff := lists.sizes_iff

theorem Lists.of_eq {other : Spool} (lists : Lists directory spool)
    (order : other.order = spool.order) (sizes : other.sizes = spool.sizes) :
    Lists directory other where
  order_perm := order ▸ lists.order_perm
  sizes_iff := by
    rw [order, sizes]
    exact lists.sizes_iff

theorem Lists.mem_order (lists : Lists directory spool) : name ∈ spool.order ↔
      ∃ entry ∈ queueOf directory.journal, entry.name = name := by
  rw [lists.order_perm.mem_iff, List.mem_map]

/-! ## Changes of the directory -/

theorem sameEntries_insert
    (payload : Payload) (temporary : ext name ≠ extension) :
    SameEntries directory
      { directory with files := directory.files.insert name payload } where
  journal := List.prefix_refl _
  queue := rfl
  count := rfl
  files other batch := by
    apply lookup_insert_ne
    rintro rfl
    exact temporary batch

/-- The directory after a file was unlinked. -/
def Directory.without (directory : Directory) (name : String) : Directory where
  files := directory.files.erase name
  journal := directory.journal ++ [.removed name]

section Stored

variable (stored : Stored directory)
include stored

/-- Unlinking a temporary file. -/
theorem Stored.sameEntries_without (temporary : ext name ≠ extension) :
    SameEntries directory (directory.without name) where
  journal := List.prefix_append _ _
  queue := by
    rw [without, queueOf_removed, List.filter_eq_self]
    intro entry member
    rw [decide_eq_true_eq]
    rintro rfl
    exact temporary (stored.ext_eq member)
  count := publishedCount_removed _ _
  files other batch := by
    apply lookup_erase_ne
    rintro rfl
    exact temporary batch

/-- Unlinking an entry takes it out of the queue. -/
theorem Stored.without (name : String) : Stored (directory.without name) := by
  constructor <;>
    simp only [Directory.without, queueOf_removed]
  · intro entry member
    exact stored.named entry (List.mem_filter.mp member).1
  · exact stored.names_nodup.sublist (List.filter_sublist.map Entry.name)
  · intro entry member
    obtain ⟨queued, other⟩ := List.mem_filter.mp member
    rw [lookup_erase_ne (of_decide_eq_true other)]
    exact stored.present entry queued
  · intro other payload found batch
    rcases GoMap.of_lookup_erase found with ⟨different, before⟩
    exact List.mem_filter.mpr
      ⟨stored.only other payload before batch, by simpa using different⟩

theorem Stored.queueOf_without_head
    {rest : List Entry} (queue : queueOf directory.journal = entry :: rest) :
    queueOf (directory.without entry.name).journal = rest := by
  have distinct := stored.names_nodup
  rw [queue, List.map_cons, List.nodup_cons] at distinct
  rw [Directory.without, queueOf_removed, queue,
    List.filter_cons_of_neg (by simp), List.filter_eq_self]
  intro other member
  rw [decide_eq_true_eq]
  intro same
  exact distinct.1 (same ▸ List.mem_map_of_mem member)

/-- Unlinking an entry takes that entry and no other. -/
theorem Stored.perm_without (queued : entry ∈ queueOf directory.journal) :
    (queueOf directory.journal).Perm
      (entry :: queueOf (directory.without entry.name).journal) := by
  have distinct := stored.names_nodup.of_map
  have erased : queueOf (directory.without entry.name).journal =
      (queueOf directory.journal).erase entry := by
    rw [Directory.without, queueOf_removed, distinct.erase_eq_filter]
    apply List.filter_congr
    intro other member
    have iff : other.name = entry.name ↔ other = entry :=
      ⟨stored.entry_eq member queued, fun same => same ▸ rfl⟩
    simp [iff, bne, beq_eq_decide]
  rw [erased]
  exact List.perm_cons_erase queued

/-- Renaming a complete temporary file appends an entry. -/
theorem Stored.publish {temp : String} (temporary : ext temp ≠ extension)
    (fresh : ∀ entry ∈ queueOf directory.journal,
      entry.name ≠ entryName ordinal sequence) :
    Stored
      { files := (directory.files.erase temp).insert
          (entryName ordinal sequence) payload
        journal := directory.journal ++
          [.published (entryName ordinal sequence) payload] } := by
  have notTemp : ∀ name, ext name = extension → name ≠ temp := by
    rintro name batch rfl
    exact temporary batch
  constructor <;> simp only [queueOf_published]
  · exact forall_mem_concat stored.named ⟨ordinal, sequence, rfl⟩
  · rw [List.map_append, List.map_singleton]
    refine List.Nodup.append stored.names_nodup (List.nodup_singleton _) ?_
    intro name old new
    obtain ⟨entry, member, rfl⟩ := List.mem_map.mp old
    exact fresh entry member (List.mem_singleton.mp new)
  · intro entry member
    rcases List.mem_append.mp member with old | new
    · rw [lookup_insert_ne (fresh entry old),
        lookup_erase_ne (notTemp _ (stored.ext_eq old))]
      exact stored.present entry old
    · rw [List.mem_singleton.mp new]
      exact lookup_insert _
  · intro name content found batch
    rcases GoMap.of_lookup_insert found with ⟨rfl, ⟨⟩⟩ | ⟨_, before⟩
    · simp
    · exact List.mem_append_left _ (stored.only name content
        (GoMap.of_lookup_erase before).2 batch)

theorem Stored.vacant
    (fresh : ∀ entry ∈ queueOf directory.journal,
      entry.name ≠ entryName ordinal sequence) :
    directory.files.lookup (entryName ordinal sequence) = none := by
  cases found : directory.files.lookup (entryName ordinal sequence) with
  | none => rfl
  | some payload =>
    have member := stored.only _ payload found
      (ext_entryName ordinal sequence)
    exact absurd rfl (fresh _ member)

end Stored

/-! ## Removal and eviction -/

@[simp]
theorem Spool.forget_counters (name : String) (spool : Spool) :
    (spool.forget name).maxBytes = spool.maxBytes ∧
      (spool.forget name).maxEntries = spool.maxEntries ∧
      (spool.forget name).seq = spool.seq ∧
      (spool.forget name).enqueued = spool.enqueued ∧
      (spool.forget name).dequeued = spool.dequeued ∧
      (spool.forget name).dropped = spool.dropped ∧
      (spool.forget name).dropFailures = spool.dropFailures := by
  rw [forget]
  split <;> simp

theorem Lists.order_forget
    (lists : Lists directory spool) (listed : name ∈ spool.order) :
    (spool.forget name).order = spool.order.erase name ∧
      (spool.forget name).sizes = spool.sizes.erase name := by
  obtain ⟨size, known⟩ := Option.isSome_iff_exists.mp
    (lookup_isSome.mpr ((lists.sizes_iff name).mpr listed))
  simp [forget, known]

/-- Forgetting an entry whose file was unlinked. -/
theorem Lists.forget
    (lists : Lists directory spool) (stored : Stored directory)
    (listed : name ∈ spool.order) :
    Lists (directory.without name) (spool.forget name) := by
  obtain ⟨order, sizes⟩ := lists.order_forget listed
  have nodup : spool.order.Nodup :=
    lists.order_perm.nodup_iff.mpr stored.names_nodup
  constructor
  · rw [order, nodup.erase_eq_filter, without, queueOf_removed]
    refine (lists.order_perm.filter _).trans ?_
    rw [List.filter_map]
    refine List.Perm.of_eq (congrArg _ (List.filter_congr ?_))
    intro entry _
    simp [bne, beq_eq_decide]
  · intro other
    rw [order, sizes, mem_erase, lists.sizes_iff, nodup.mem_erase_iff]

theorem wp_removeLocked {post : Spool × Option Fault → Directory → Prop}
    (stored : Stored directory) (lists : Lists directory spool)
    (listed : name ∈ spool.order) (before : crash directory)
    (removes : post (spool.forget name, none) (directory.without name))
    (fails : ∀ fault, post (spool, some fault) directory) :
    Program.wp fileSystem post crash (spool.removeLocked name)
      directory := by
  obtain ⟨entry, member, rfl⟩ := lists.mem_order.mp listed
  rw [removeLocked, if_pos (stored.plainName_eq member)]
  refine wp_bind (wp_attempt_atomic (fun _ => rfl) before ?_ (fails _))
  simp only [proceed, stored.present entry member]
  exact removes

/-- What holds throughout an eviction, and after each of its removals. -/
structure Evicting
    (invariant : Spool → Directory → Prop) (crash : Directory → Prop) :
    Prop where
  stored : ∀ {spool directory}, invariant spool directory → Stored directory
  lists : ∀ {spool directory}, invariant spool directory →
    Lists directory spool
  crashes : ∀ {spool directory}, invariant spool directory → crash directory
  removes : ∀ {spool directory oldest rest},
    spool.order = oldest :: rest → invariant spool directory → invariant
        { spool.forget oldest with
          dropped := (spool.forget oldest).dropped + 1 }
        (directory.without oldest)
  fails : ∀ {spool directory}, invariant spool directory →
    invariant { spool with dropFailures := spool.dropFailures + 1 }
      directory

/-- The rule for eviction. -/
theorem wp_evictWhile {invariant : Spool → Directory → Prop}
    (evicting : Evicting invariant crash) (exceeds : Spool → Bool)
    (fuel : Nat) (initially : invariant spool directory) :
    Program.wp fileSystem invariant crash
      (spool.evictWhile exceeds fuel) directory := by
  induction fuel generalizing spool directory with
  | zero => exact initially
  | succ fuel induction =>
    rw [evictWhile]
    split
    · exact initially
    · rename_i oldest rest first
      split
      · refine wp_bind (wp_removeLocked
          (evicting.stored initially) (evicting.lists initially)
          (by simp [first]) (evicting.crashes initially) ?_ ?_)
        · exact induction (evicting.removes first initially)
        · intro fault
          exact evicting.fails initially
      · exact initially

/-! ## Publication -/

/-- A temporary file is written in full, or with an error. -/
theorem wp_writeFileSynced
    {temp : String} (payload : Payload) (temporary : ext temp ≠ extension) :
    Program.wp fileSystem
      (fun fault after => SameEntries directory after ∧
        (fault = none → after.files.lookup temp = some payload))
      (fun after => SameEntries directory after)
      (writeFileSynced temp payload) directory := by
  have same : ∀ content, SameEntries directory
      { directory with files := directory.files.insert temp content } :=
    fun content => sameEntries_insert content temporary
  have rewritten : ∀ content, SameEntries directory
      { directory with
        files := (directory.files.insert temp []).insert temp content } :=
    fun content => (same []).trans (sameEntries_insert content temporary)
  rw [writeFileSynced]
  refine wp_bind (wp_attempt_atomic (fun _ => rfl)
    (SameEntries.refl directory) ?_ ?_)
  · -- The file is open and empty; a cut write leaves some of its bytes.
    refine wp_bind (wp_bind (wp_call (same []) ?_ ?_ ?_))
    · refine wp_bind (wp_attempt_atomic (fun _ => rfl)
        (rewritten payload) ?_ ?_)
      · refine wp_bind (wp_attempt_atomic (fun _ => rfl)
          (rewritten payload) ?_ ?_)
        · exact ⟨rewritten payload, fun _ => lookup_insert _⟩
        · exact ⟨rewritten payload, nofun⟩
      · refine wp_bind (wp_attempt_atomic (fun _ => rfl)
          (rewritten payload) ?_ ?_)
        · exact ⟨rewritten payload, nofun⟩
        · exact ⟨rewritten payload, nofun⟩
    · intro kept
      refine wp_bind (wp_attempt_atomic (fun _ => rfl) (rewritten _) ?_ ?_)
      · exact ⟨rewritten _, nofun⟩
      · exact ⟨rewritten _, nofun⟩
    · intro kept
      exact rewritten _
  · exact ⟨SameEntries.refl directory, nofun⟩

/-- One entry was published at the end of the queue, over no other file. -/
structure Published
    (directory : Directory) (name : String) (payload : Payload)
    (after : Directory) : Prop where
  journal : directory.journal <+: after.journal
  queue : queueOf after.journal =
    queueOf directory.journal ++ [⟨name, payload⟩]
  count : publishedCount after.journal = publishedCount directory.journal + 1
  vacant : directory.files.lookup name = none

theorem SameEntries.published
    (same : SameEntries directory middle) (batch : ext name = extension)
    (published : Published middle name payload after) :
    Published directory name payload after where
  journal := same.journal.trans published.journal
  queue := by rw [published.queue, same.queue]
  count := by rw [published.count, same.count]
  vacant := by
    rw [← same.files name batch]
    exact published.vacant

theorem Lists.append (lists : Lists directory spool)
    (published : Published directory name payload after) (size : Int64) :
    Lists after (spool.append name size) := by
  constructor
  · rw [published.queue, List.map_append, List.map_singleton]
    exact lists.order_perm.append_right [name]
  · intro other
    change other ∈ spool.sizes.insert _ _ ↔ other ∈ spool.order ++ [_]
    rw [mem_insert, List.mem_append, List.mem_singleton, lists.sizes_iff]
    exact or_comm

/-- What is left where `publish` is killed. -/
def PublishCut
    (directory : Directory) (name : String) (payload : Payload)
    (after : Directory) : Prop :=
  Stored after ∧
    (SameEntries directory after ∨ Published directory name payload after)

/--
Where `publish` finishes: the spool and the entries are as they were and an
error is returned, or both have the new entry at their end.
-/
def PublishEnds
    (directory : Directory) (name : String) (payload : Payload)
    (spool : Spool) (result : Spool × Option Fault)
    (after : Directory) : Prop :=
  Stored after ∧ (result.1 = spool ∧ result.2.isSome = true ∧
        SameEntries directory after ∨
      result.1 = spool.append name (Int64.ofNat payload.length) ∧
        Published directory name payload after)

/-- Giving up on a temporary file. -/
theorem wp_discard {temp : String} (fault : Fault) (stored : Stored directory)
    (temporary : ext temp ≠ extension) (same : SameEntries directory middle) :
    Program.wp fileSystem (PublishEnds directory name payload spool)
      (PublishCut directory name payload)
      (do
        let _ ← attempt (.remove temp)
        pure (spool, some fault)) middle := by
  have kept := stored.of_sameEntries same
  refine wp_bind (wp_attempt_atomic (fun _ => rfl)
    ⟨kept, Or.inl same⟩ ?_ ⟨kept, Or.inl ⟨rfl, rfl, same⟩⟩)
  have removed : SameEntries directory (middle.proceed (.remove temp)).1 := by
    cases found : middle.files.lookup temp with
    | none =>
      simp only [proceed, found]
      exact same
    | some content =>
      simp only [proceed, found]
      exact same.trans (kept.sameEntries_without temporary)
  exact ⟨stored.of_sameEntries removed, Or.inl ⟨rfl, rfl, removed⟩⟩

/-- The rule for `publish` under a name that no entry has. -/
theorem wp_publish (payload : Payload) (stored : Stored directory)
    (fresh : ∀ entry ∈ queueOf directory.journal,
      entry.name ≠ entryName ordinal sequence) :
    Program.wp fileSystem
      (PublishEnds directory (entryName ordinal sequence) payload spool)
      (PublishCut directory (entryName ordinal sequence) payload)
      (spool.publish (entryName ordinal sequence) payload) directory := by
  have temporary : ext (entryName ordinal sequence ++ pending) ≠
      extension := by
    rw [ext_pending]
    decide
  rw [publish]
  refine wp_bind (wp_mono (wp_writeFileSynced payload temporary) ?_ ?_)
  · rintro fault middle ⟨same, written⟩
    cases fault with
    | some fault => exact wp_discard fault stored temporary same
    | none =>
      have kept := stored.of_sameEntries same
      have absent : ∀ entry ∈ queueOf middle.journal,
          entry.name ≠ entryName ordinal sequence := by
        rw [same.queue]
        exact fresh
      have whole := @Stored.publish payload _ _ _ kept _ temporary absent
      have appended : Published middle (entryName ordinal sequence) payload
          { files := (middle.files.erase
              (entryName ordinal sequence ++ pending)).insert
                (entryName ordinal sequence) payload
            journal := middle.journal ++
              [.published (entryName ordinal sequence) payload] } :=
        ⟨List.prefix_append _ _, queueOf_published _ _ _,
          publishedCount_published _ _ _, kept.vacant absent⟩
      have published := same.published
        (ext_entryName ordinal sequence) appended
      refine wp_bind (wp_attempt_atomic (fun _ => rfl)
        ⟨kept, Or.inl same⟩ ?_ ?_)
      · simp only [proceed, written rfl]
        refine wp_bind (wp_attempt_atomic (fun _ => rfl)
          ⟨whole, Or.inr published⟩ ?_ ?_)
        · exact ⟨whole, Or.inr ⟨rfl, published⟩⟩
        · exact ⟨whole, Or.inr ⟨rfl, published⟩⟩
      · exact wp_discard _ stored temporary same
  · intro after same
    exact ⟨stored.of_sameEntries same, Or.inl same⟩

/-! ## Peek and release -/

/-- `Peek` changes nothing and returns the entry that is listed first. -/
theorem wp_peek (stored : Stored directory) (lists : Lists directory spool) :
    Program.wp fileSystem
      (fun result after => result.1 = spool ∧ after = directory ∧
        ∀ payload name, result.2 = .ok (payload, name) →
          spool.order.head? = some name ∧
            ⟨name, payload⟩ ∈ queueOf directory.journal)
      (fun after => after = directory) spool.peek directory := by
  rw [peek]
  split
  · exact ⟨rfl, rfl, nofun⟩
  · rename_i oldest rest first
    obtain ⟨entry, member, rfl⟩ := lists.mem_order.mp
      (show oldest ∈ spool.order by simp [first])
    have present := stored.present entry member
    refine wp_bind (wp_call rfl ?_ ?_ fun _ => rfl)
    · simp only [proceed, present]
      refine wp_bind (wp_call rfl ?_ ?_ fun _ => rfl)
      · simp only [proceed, present]
        refine ⟨rfl, rfl, ?_⟩
        intro payload name same
        cases same
        exact ⟨by simp [first], member⟩
      · exact fun _ => ⟨rfl, rfl, nofun⟩
    · exact fun _ => ⟨rfl, rfl, nofun⟩

/-- The rule for `Release`. -/
theorem wp_release {post : Spool × Option Fault → Directory → Prop}
    (stored : Stored directory) (lists : Lists directory spool)
    (before : crash directory)
    (absent : name ∉ spool.order → post (spool, none) directory)
    (removes : name ∈ spool.order → post ({ spool.forget name with
            dequeued := (spool.forget name).dequeued + 1 }, none)
        (directory.without name))
    (fails : ∀ fault, post (spool, some fault) directory) :
    wp fileSystem post crash (spool.release name) directory := by
  rw [release]
  split
  · rename_i known
    have listed := (lists.sizes_iff name).mp known
    refine wp_bind (wp_removeLocked stored lists listed before ?_ ?_)
    · exact removes listed
    · exact fails
  · rename_i unknown
    rw [lists.sizes_iff] at unknown
    exact absent unknown

end Entries

end Ironclaw.Disk
