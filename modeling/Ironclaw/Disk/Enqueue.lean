import Ironclaw.Disk.Stored

/-!
# The rule for `Enqueue`

`Enqueue` evicts the oldest entries, draws a name and publishes the payload.
Eviction ends within the limit unless a removal fails, and a name is drawn
that no entry has, as long as there are fewer entries than sequence numbers.
-/

namespace Ironclaw.Disk

open Lib List Program Spool

variable {directory : Directory} {spool : Spool}
variable {crash : Directory → Prop}

/-! ## Eviction -/

theorem evictWhile_of_within
    {exceeds : Spool → Bool} (within : exceeds spool = false) (fuel : Nat) :
    spool.evictWhile exceeds fuel = pure spool := by
  cases fuel with
  | zero => rfl
  | succ fuel =>
    rw [evictWhile]
    split
    · rfl
    · rw [within]
      rfl

/-- The entries that an eviction removes if it can. -/
def Spool.evictions (exceeds : Spool → Bool) : Nat → Spool → Nat
  | 0, _ => 0
  | fuel + 1, spool =>
    match spool.order with
    | [] => 0
    | oldest :: _ =>
      if exceeds spool then
        evictions exceeds fuel { spool.forget oldest with
          dropped := (spool.forget oldest).dropped + 1 } + 1
      else 0

/-- A removal proceeds, fails, or is the last call of its process. -/
theorem run_removeLocked {entry : Entry} (stored : Stored directory)
    (queued : entry ∈ queueOf directory.journal)
    (verdicts : List FsVerdict) :
    (spool.removeLocked entry.name).run fileSystem directory verdicts =
      match verdicts with
      | .proceed :: rest => .finished (directory.without entry.name)
          (spool.forget entry.name, none) rest
      | .fail _ :: rest => .finished directory (spool, some (.wrapped
          ("spool: removing entry " ++ entry.name) errInputOutput)) rest
      | _ => .killed directory := by
  rw [removeLocked, if_pos (stored.plainName_eq queued)]
  cases verdicts with
  | nil => rfl
  | cons verdict rest =>
    cases verdict with
    | proceed =>
      rw [run_bind, attempt, run_bind]
      simp only [perform, run, fileSystem, Directory.proceed,
        stored.present entry queued, FsReply.fault]
      rfl
    | fail | kill => rfl

/-- An eviction none of whose removals fails ends within the limit. -/
theorem run_evictWhile_ends {invariant : Spool → Directory → Prop}
    (evicting : Evicting invariant crash) {exceeds : Spool → Bool}
    {fuel : Nat} (enough : spool.order.length ≤ fuel)
    (initially : invariant spool directory) {verdicts : List FsVerdict}
    (clean : ∀ verdict ∈ verdicts.take (spool.evictions exceeds fuel),
      ∀ kept, verdict ≠ .fail kept)
    {after : Directory} {evicted : Spool} {unused : List FsVerdict}
    (ran : (spool.evictWhile exceeds fuel).run fileSystem directory
      verdicts = .finished after evicted unused) :
    invariant evicted after ∧
      (evicted.order = [] ∨ exceeds evicted = false) := by
  induction fuel generalizing spool directory verdicts with
  | zero =>
    cases ran
    exact ⟨initially, Or.inl (eq_nil_of_length_eq_zero
      (Nat.le_zero.mp enough))⟩
  | succ fuel induction =>
    rw [evictWhile] at ran
    rw [Spool.evictions] at clean
    split at ran
    · rename_i empty
      cases ran
      exact ⟨initially, Or.inl empty⟩
    · rename_i oldest rest first
      rw [first] at clean
      have listed : oldest ∈ spool.order := by simp [first]
      have lists := evicting.lists initially
      split at ran
      · rename_i exceeding
        simp only [exceeding, if_true] at clean
        have removed := evicting.removes first initially
        obtain ⟨entry, queued, rfl⟩ := lists.mem_order.mp listed
        rw [run_bind, run_removeLocked (evicting.stored initially) queued]
          at ran
        cases verdicts with
        | nil => cases ran
        | cons verdict others =>
          cases verdict with
          | proceed =>
            refine induction ?_ removed (fun verdict member => ?_) ran
            · rw [(lists.order_forget listed).1, first, erase_cons_head]
              rw [first, length_cons] at enough
              exact Nat.le_of_succ_le_succ enough
            · exact clean verdict (mem_cons_of_mem _ member)
          | fail kept => exact absurd rfl (clean _ (by simp) kept)
          | kill => cases ran
      · rename_i within
        cases ran
        exact ⟨initially, Or.inr (Bool.not_eq_true _ ▸ within)⟩

/-! ## The next name -/

/-- The name of the next entry under a sequence number. -/
def Spool.nextEntry (sequence : UInt64) (spool : Spool) : String :=
  entryName (spool.enqueued + 1) sequence

/-- `nextName` settles on a sequence number, and the name is free. -/
def Spool.Draws (sequence : UInt64) (spool : Spool) : Prop :=
  spool.nextName (GoMap.size spool.sizes) =
      ({ spool with seq := sequence }, spool.nextEntry sequence) ∧
    spool.nextEntry sequence ∉ spool.sizes

theorem draws_succ
    (free : entryName (spool.enqueued + 1) (spool.seq + 1) ∉ spool.sizes) :
    spool.Draws (spool.seq + 1) := by
  refine ⟨?_, free⟩
  cases GoMap.size spool.sizes with
  | zero => rfl
  | succ fuel => exact if_neg free

theorem Spool.Draws.eq
    {sequence other : UInt64} (draws : spool.Draws sequence)
    (otherDraws : spool.Draws other) : sequence = other := by
  have same := draws.1.symm.trans otherDraws.1
  exact congrArg seq (Prod.mk.inj same).1

theorem nextName_shape (fuel : Nat) (spool : Spool) :
    ∃ sequence, spool.nextName fuel =
      ({ spool with seq := sequence }, spool.nextEntry sequence) := by
  induction fuel generalizing spool with
  | zero => exact ⟨spool.seq + 1, rfl⟩
  | succ fuel induction =>
    rw [nextName]
    simp only
    split
    · exact induction { spool with seq := spool.seq + 1 }
    · exact ⟨spool.seq + 1, rfl⟩

/-- A name that is taken was the last one tried, and so were all others. -/
theorem taken_of_nextName (fuel : Nat) (spool : Spool)
    (taken : (spool.nextName fuel).2 ∈ spool.sizes)
    (tried : Nat) (bound : tried ≤ fuel) :
    spool.nextEntry (spool.seq + 1 + UInt64.ofNat tried) ∈ spool.sizes := by
  induction fuel generalizing spool tried with
  | zero =>
    obtain rfl := Nat.le_zero.mp bound
    rw [show UInt64.ofNat 0 = 0 from rfl, UInt64.add_zero]
    exact taken
  | succ fuel induction =>
    rw [nextName] at taken
    simp only at taken
    split at taken
    · rename_i first
      cases tried with
      | zero =>
        rw [show UInt64.ofNat 0 = 0 from rfl, UInt64.add_zero]
        exact first
      | succ tried =>
        have later := induction { spool with seq := spool.seq + 1 }
          taken tried (Nat.le_of_succ_le_succ bound)
        rw [Nat.add_comm, UInt64.ofNat_add, ← UInt64.add_assoc]
        exact later
    · next free => exact absurd taken free

/-- A free name is found while there are more numbers than entries. -/
theorem exists_draws (few : GoMap.size spool.sizes < 2 ^ 64) :
    ∃ sequence, spool.Draws sequence := by
  obtain ⟨sequence, shape⟩ := nextName_shape (GoMap.size spool.sizes) spool
  refine ⟨sequence, shape, ?_⟩
  intro taken
  let tries := (List.range (GoMap.size spool.sizes + 1)).map fun tried =>
    spool.nextEntry (spool.seq + 1 + UInt64.ofNat tried)
  have distinct : tries.Nodup := by
    refine Nodup.map_on ?_ nodup_range
    intro left leftMember right rightMember same
    rw [mem_range] at leftMember rightMember
    have numbers := (UInt64.add_right_inj _).mp (entryName_injective same).2
    have values := congrArg UInt64.toNat numbers
    rwa [UInt64.toNat_ofNat_of_lt' (by change left < 2 ^ 64; omega),
      UInt64.toNat_ofNat_of_lt' (by change right < 2 ^ 64; omega)]
      at values
  have known : tries ⊆ spool.sizes.keys := by
    intro name member
    obtain ⟨tried, inRange, rfl⟩ := mem_map.mp member
    rw [mem_range] at inRange
    apply AList.mem_keys.mp
    apply taken_of_nextName (GoMap.size spool.sizes) spool
    · rw [shape]
      exact taken
    · omega
  have short := (subperm_of_subset distinct known).length_le
  have size : spool.sizes.keys.length = GoMap.size spool.sizes := length_map _
  simp only [tries, length_map, length_range] at short
  omega

/-! ## Enqueue -/

/-- The error of an `Enqueue` that published its payload. -/
def syncFault (name : String) : Fault :=
  .wrapped ("spool: syncing directory after publishing " ++ name)
    errInputOutput

/-- The texts of the errors before an entry is published. -/
def writeErrors : List String :=
  ["spool: writing entry", "spool: syncing entry", "spool: closing entry",
    "spool: publishing entry"]

/-- An error of an `Enqueue` that could not publish its payload. -/
def Unwritten (fault : Fault) : Prop :=
  ∃ text ∈ writeErrors, ∃ cause, fault = .wrapped text cause

theorem append_ne (name : String) (size : Int64) :
    spool.append name size ≠ spool := by
  intro same
  have lengths := congrArg (fun spool : Spool => spool.order.length) same
  simp [append] at lengths

theorem wp_writeFileSynced_fault
    (name : String) (payload : Payload) (directory : Directory) :
    Program.wp fileSystem
      (fun result _ => ∀ fault, result = some fault → Unwritten fault)
      (fun _ => True) (writeFileSynced name payload) directory := by
  have known : ∀ {text cause} {result : Option Fault},
      text ∈ writeErrors → result = some (.wrapped text cause) →
        ∀ fault, result = some fault → Unwritten fault := by
    rintro text cause _ listed rfl fault ⟨⟩
    exact ⟨text, listed, cause, rfl⟩
  rw [writeFileSynced]
  apply wp_bind_trivial
  rintro (_ | fault) opened
  · apply wp_bind_trivial
    rintro (_ | fault) written
    · apply wp_bind_trivial
      rintro (_ | fault) synced
      · apply wp_bind_trivial
        rintro (_ | fault) closed
        · intro fault failed
          cases failed
        · exact known (by decide) rfl
      · exact wp_bind_trivial fun _ _ => known (by decide) rfl
    · exact wp_bind_trivial fun _ _ => known (by decide) rfl
  · exact known (by decide) rfl

/-- After the index gained an entry only the directory sync can fail. -/
theorem wp_publish_fault
    (name : String) (payload : Payload) (directory : Directory) :
    Program.wp fileSystem
      (fun result _ =>
        (result.1 = spool ∧ ∀ fault, result.2 = some fault →
          Unwritten fault) ∨
        (result.1 ≠ spool ∧
          (result.2 = none ∨ result.2 = some (syncFault name))))
      (fun _ => True) (spool.publish name payload) directory := by
  rw [publish]
  refine wp_bind (wp_mono (wp_writeFileSynced_fault _ payload directory) ?_
    fun _ dead => dead)
  rintro (_ | fault) written known
  · apply wp_bind_trivial
    rintro (_ | fault) renamed
    · refine wp_bind (wp_attempt_atomic (fun _ => rfl) trivial ?_ ?_)
      · exact Or.inr ⟨append_ne _ _, Or.inl rfl⟩
      · exact Or.inr ⟨append_ne _ _, Or.inr rfl⟩
    · refine wp_bind_trivial fun _ _ => Or.inl ⟨rfl, ?_⟩
      rintro _ ⟨⟩
      exact ⟨_, by decide, fault, rfl⟩
  · exact wp_bind_trivial fun _ _ => Or.inl ⟨rfl, known⟩

/--
What `Enqueue` keeps: `evicted` holds once entries are evicted, and `post`
and `crash` follow from it for every way on.
-/
structure Enqueuing
    (payload : Payload) (evicted : Spool → Directory → Prop)
    (post : Spool × Option Fault → Directory → Prop)
    (crash : Directory → Prop) : Prop where
  stored : ∀ {spool directory}, evicted spool directory → Stored directory
  lists : ∀ {spool directory}, evicted spool directory → Lists directory spool
  full : ∀ {spool directory}, evicted spool directory →
    spool.maxEntries ≤ spool.order.length →
      post ({ spool with dropped := spool.dropped + 1 },
        some (.detailed errTooMany
          (toString spool.maxEntries ++ " entries"))) directory
  draws : ∀ {spool directory}, evicted spool directory →
    spool.order.length < spool.maxEntries → ∃ sequence, spool.Draws sequence
  fails : ∀ {spool directory after fault sequence},
    evicted spool directory → spool.Draws sequence → Stored after →
      SameEntries directory after → Unwritten fault →
        post ({ spool with seq := sequence }, some fault) after
  publishes : ∀ {spool directory after fault sequence},
    evicted spool directory →
    spool.order.length < spool.maxEntries → spool.Draws sequence →
    Stored after →
    Published directory (spool.nextEntry sequence) payload after →
    (fault = none ∨ fault = some (syncFault (spool.nextEntry sequence))) →
      post
        ({ spool with seq := sequence }.append
          (spool.nextEntry sequence) (Int64.ofNat payload.length), fault)
        after
  dies : ∀ {spool directory after sequence}, evicted spool directory →
    spool.order.length < spool.maxEntries → spool.Draws sequence →
    PublishCut directory (spool.nextEntry sequence) payload after →
      crash after

/-- Whether a payload finds no room beside the entries. -/
def Spool.crowded (payload : Payload) (spool : Spool) : Bool :=
  spool.maxBytes < spool.bytes + Int64.ofNat payload.length

/-- What `Enqueue` does with the budget before it writes. -/
def Spool.makeRoom (payload : Payload) (spool : Spool) : FsProgram Spool :=
  spool.evictWhile (crowded payload) spool.order.length

/-- What `Enqueue` does once it has made room. -/
def Spool.store (payload : Payload) (spool : Spool) :
    FsProgram (Spool × Option Fault) :=
  if spool.maxEntries ≤ spool.order.length then
    pure ({ spool with dropped := spool.dropped + 1 },
      some (.detailed errTooMany (toString spool.maxEntries ++ " entries")))
  else
    let (spool, name) := spool.nextName (GoMap.size spool.sizes)
    spool.publish name payload

theorem enqueue_eq {payload : Payload} (present : payload ≠ [])
    (fits : ¬spool.maxBytes < Int64.ofNat payload.length) :
    spool.enqueue payload = spool.makeRoom payload >>= store payload := by
  rw [enqueue, if_neg present, if_neg fits]
  rfl

section Rule

variable {evicted : Spool → Directory → Prop} {payload : Payload}
variable {post : Spool × Option Fault → Directory → Prop}
variable (enqueuing : Enqueuing payload evicted post crash)
include enqueuing

/-- The rule for the part of `Enqueue` that writes. -/
theorem wp_store_of (holds : evicted spool directory) :
    wp fileSystem post crash (spool.store payload) directory := by
  have lists := enqueuing.lists holds
  rw [store]
  split
  · next full => exact enqueuing.full holds full
  next room =>
    rw [Nat.not_le] at room
    obtain ⟨sequence, draws⟩ := enqueuing.draws holds room
    have fresh : ∀ entry ∈ queueOf directory.journal,
        entry.name ≠ spool.nextEntry sequence := by
      intro entry member same
      refine draws.2 ((lists.sizes_iff _).mpr ?_)
      exact lists.mem_order.mpr ⟨entry, member, same⟩
    rw [draws.1]
    refine wp_mono (wp_and
      (wp_publish payload (enqueuing.stored holds) fresh)
      (wp_publish_fault _ payload directory)) ?_ ?_
    · rintro ⟨result, fault⟩ after ⟨⟨whole, ends⟩, known⟩
      rcases ends with ⟨rfl, failing, same⟩ | ⟨rfl, published⟩
      · cases fault with
        | none => cases failing
        | some fault =>
          have unwritten := known.resolve_right fun grown => grown.1 rfl
          exact enqueuing.fails holds draws whole same (unwritten.2 fault rfl)
      · have grown := known.resolve_left fun kept => append_ne _ _ kept.1
        exact enqueuing.publishes holds room draws whole published grown.2
    · intro after cut
      exact enqueuing.dies holds room draws cut

/-- The rule for `Enqueue`. -/
theorem wp_enqueue_of
    (empty : payload = [] → post (spool, some errEmptyPayload) directory)
    (large : spool.maxBytes < Int64.ofNat payload.length →
      post ({ spool with dropped := spool.dropped + 1 },
        some errTooLarge) directory)
    (evicts : payload ≠ [] → ¬spool.maxBytes < Int64.ofNat payload.length →
      wp fileSystem evicted crash (spool.makeRoom payload)
        directory) :
    wp fileSystem post crash (spool.enqueue payload)
      directory := by
  by_cases none : payload = []
  · rw [enqueue, if_pos none]
    exact empty none
  · by_cases exceeds : spool.maxBytes < Int64.ofNat payload.length
    · rw [enqueue, if_neg none, if_pos exceeds]
      exact large exceeds
    · rw [enqueue_eq none exceeds]
      exact wp_bind (wp_mono (evicts none exceeds)
        (fun _ _ holds => wp_store_of enqueuing holds) fun _ dead => dead)

end Rule

/--
The rule for `Enqueue` with an invariant that every eviction keeps, and that
leaves the first name tried free.
-/
theorem wp_enqueue {invariant : Spool → Directory → Prop}
    {post : Spool × Option Fault → Directory → Prop} (payload : Payload)
    (initially : invariant spool directory)
    (refuses : ∀ fault, post (spool, some fault) directory)
    (drops : ∀ spool directory fault, invariant spool directory →
      post ({ spool with dropped := spool.dropped + 1 }, some fault)
        directory)
    (evicting : Evicting invariant crash)
    (free : ∀ spool directory, invariant spool directory →
      entryName (spool.enqueued + 1) (spool.seq + 1) ∉ spool.sizes)
    (fails : ∀ spool directory after fault, invariant spool directory →
      Stored after → SameEntries directory after →
        post ({ spool with seq := spool.seq + 1 }, some fault) after)
    (publishes : ∀ spool directory after fault, invariant spool directory →
      Stored after →
      Published directory
        (entryName (spool.enqueued + 1) (spool.seq + 1)) payload after →
        post ({ spool with seq := spool.seq + 1 }.append
            (entryName (spool.enqueued + 1) (spool.seq + 1))
            (Int64.ofNat payload.length), fault) after)
    (dies : ∀ spool directory after, invariant spool directory →
      PublishCut directory
        (entryName (spool.enqueued + 1) (spool.seq + 1)) payload after →
        crash after) :
    wp fileSystem post crash (spool.enqueue payload)
      directory := by
  have drawn : ∀ {spool directory sequence}, invariant spool directory →
      spool.Draws sequence → sequence = spool.seq + 1 := by
    intro spool directory sequence holds draws
    exact draws.eq (draws_succ (free spool directory holds))
  have enqueuing : Enqueuing payload invariant post crash :=
    { stored := evicting.stored
      lists := evicting.lists
      full := fun holds _ => drops _ _ _ holds
      draws := fun holds _ => ⟨_, draws_succ (free _ _ holds)⟩
      fails := by
        intro spool directory after fault sequence holds draws whole same _
        obtain rfl := drawn holds draws
        exact fails _ _ _ _ holds whole same
      publishes := by
        intro spool directory after fault sequence holds _ draws whole
          published _
        obtain rfl := drawn holds draws
        exact publishes _ _ _ _ holds whole published
      dies := by
        intro spool directory after sequence holds _ draws cut
        obtain rfl := drawn holds draws
        exact dies _ _ _ holds cut }
  exact wp_enqueue_of enqueuing (fun _ => refuses _)
    (fun _ => drops _ _ _ initially)
    (fun _ _ => wp_evictWhile evicting _ _ initially)

end Ironclaw.Disk
