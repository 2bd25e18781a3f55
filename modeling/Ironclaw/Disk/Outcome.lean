import Ironclaw.Disk.Laps
import Ironclaw.Disk.Measure

/-!
# What an `Enqueue` leaves behind

`Enqueue` makes room before it knows whether it can write, and enters its
payload in the index before it knows whether the directory is synced.  So a
call that fails may have evicted the oldest entries, and one that fails in its
last step has spooled its payload.
-/

namespace Ironclaw.Disk

open Lib List Program

/-! ## Eviction -/

/--
The oldest entries are gone, and counted; none is gone if the payload fits.
-/
structure Trimmed
    (fits : Prop) (maxBytes : Int64) (directory : Directory)
    (spool evicted : Spool) (middle : Directory) : Prop where
  measures : Measures maxBytes middle evicted
  count : ∃ amount, (fits → amount = 0) ∧
    evicted.order = spool.order.drop amount ∧
    evicted.dropped = spool.dropped + Int64.ofNat amount
  files : ∀ name ∈ evicted.order,
    middle.files.lookup name = directory.files.lookup name

section Trimming

variable {maxBytes : Int64} {directory : Directory} {spool : Spool}

theorem trimmed_refl
    (fits : Prop) (measures : Measures maxBytes directory spool) :
    Trimmed fits maxBytes directory spool spool directory :=
  ⟨measures, ⟨0, fun _ => rfl, rfl, by simp⟩, fun _ _ => rfl⟩

theorem evicting_trimmed
    {fits : Prop} (exceeds : ¬fits) (directory : Directory) (spool : Spool) :
    Evicting (Trimmed fits maxBytes directory spool) (Limited maxBytes) where
  stored trimmed := trimmed.measures.stored
  lists trimmed := trimmed.measures.lists
  crashes trimmed := trimmed.measures.toLimited
  removes := by
    intro evicted middle oldest rest first trimmed
    have listed : oldest ∈ evicted.order := by simp [first]
    have order := (trimmed.measures.lists.order_forget listed).1
    rw [first, erase_cons_head] at order
    obtain ⟨amount, -, dropped, counted⟩ := trimmed.count
    refine ⟨(trimmed.measures.forget listed).of_eq rfl rfl rfl rfl,
      ⟨amount + 1, fun fitting => absurd fitting exceeds, ?_, ?_⟩, ?_⟩
    · change (evicted.forget oldest).order = _
      rw [order, ← tail_drop, ← dropped, first, tail_cons]
    · rw [Word.ofNat_succ, ← Int64.add_assoc, ← counted]
      simp
    · intro name member
      change name ∈ (evicted.forget oldest).order at member
      rw [order] at member
      have distinct := trimmed.measures.order_nodup
      rw [first, nodup_cons] at distinct
      have different : name ≠ oldest := by
        rintro rfl
        exact distinct.1 member
      change (middle.files.erase oldest).lookup name = _
      rw [AList.lookup_erase_ne different]
      exact trimmed.files name (by simp [first, member])
  fails trimmed := ⟨trimmed.measures.of_eq rfl rfl rfl rfl, trimmed.count,
      trimmed.files⟩

end Trimming

/-! ## Enqueue -/

/-- A payload that needs no room to be made, or gets none. -/
def Spool.Fits (payload : Payload) (spool : Spool) : Prop :=
  payload = [] ∨ spool.maxBytes < Int64.ofNat payload.length ∨
    spool.bytes + Int64.ofNat payload.length ≤ spool.maxBytes

/--
The errors of an `Enqueue` that does not spool its payload, and what each adds
to the count of drops.
-/
inductive Refuses (maxEntries : Nat) : Fault → Int64 → Prop where
  | empty : Refuses maxEntries errEmptyPayload 0
  | large : Refuses maxEntries errTooLarge 1
  | full : Refuses maxEntries
      (.detailed errTooMany (toString maxEntries ++ " entries")) 1
  | unwritten {fault : Fault} (unwritten : Unwritten fault) :
      Refuses maxEntries fault 0

/-- None of them is the error of the directory sync. -/
theorem Refuses.ne_syncFault
    {maxEntries : Nat} {fault : Fault} {extra : Int64}
    (refuses : Refuses maxEntries fault extra) (name : String) :
    fault ≠ syncFault name := by
  cases refuses with
  | empty | large | full => exact nofun
  | unwritten unwritten =>
    rcases unwritten with ⟨text, listed, cause, rfl⟩
    intro same
    have short : ∀ text ∈ writeErrors, text.length < 41 := by decide
    have bound := short text listed
    rw [(Fault.wrapped.inj same).1, String.length_append] at bound
    have long : "spool: syncing directory after publishing ".length = 42 :=
      by decide
    omega

/-- An `Enqueue` that fails and does not spool its payload. -/
def Refused
    (directory : Directory) (spool : Spool) (amount : Nat)
    (result : Spool × Option Fault) (after : Directory) : Prop :=
  ∃ fault extra, Refuses spool.maxEntries fault extra ∧
    result.2 = some fault ∧ result.1.order = spool.order.drop amount ∧
    (∀ name ∈ result.1.order,
      after.files.lookup name = directory.files.lookup name) ∧
    result.1.dropped = spool.dropped + Int64.ofNat amount + extra

/-- An `Enqueue` that spools its payload, whether or not it fails. -/
def Spooled
    (directory : Directory) (spool : Spool) (payload : Payload)
    (amount : Nat) (result : Spool × Option Fault) (after : Directory) :
    Prop :=
  ∃ name, (result.2 = none ∨ result.2 = some (syncFault name)) ∧
    result.1.order = spool.order.drop amount ++ [name] ∧
    (∀ other ∈ spool.order.drop amount,
      after.files.lookup other = directory.files.lookup other) ∧
    after.files.lookup name = some payload ∧
    result.1.dropped = spool.dropped + Int64.ofNat amount

/-- What `Enqueue` does to the index and to the files it lists. -/
structure EnqueueEnds
    (maxBytes : Int64) (directory : Directory) (spool : Spool)
    (payload : Payload) (result : Spool × Option Fault)
    (after : Directory) : Prop where
  measures : Measures maxBytes after result.1
  effect : ∃ amount, (spool.Fits payload → amount = 0) ∧
    (Refused directory spool amount result after ∨
      Spooled directory spool payload amount result after)

section Enqueueing

variable {maxBytes : Int64} {directory middle after : Directory}
variable {spool evicted : Spool} {payload : Payload}

/-- Where an entry is published the other entries keep their files. -/
theorem Trimmed.files_of_stored {fits : Prop} {sequence : UInt64}
    (trimmed : Trimmed fits maxBytes directory spool evicted middle)
    (stored : Stored after)
    (published : Published middle (evicted.nextEntry sequence) payload
      after) :
    (∀ name ∈ evicted.order,
      after.files.lookup name = directory.files.lookup name) ∧
    after.files.lookup (evicted.nextEntry sequence) = some payload := by
  constructor
  · intro name member
    obtain ⟨entry, queued, rfl⟩ := trimmed.measures.lists.mem_order.mp member
    rw [← trimmed.files entry.name member,
      trimmed.measures.stored.present entry queued]
    apply stored.present
    rw [published.queue]
    exact mem_append_left _ queued
  · apply stored.present ⟨evicted.nextEntry sequence, payload⟩
    rw [published.queue]
    exact mem_append_right _ (mem_singleton.mpr rfl)

theorem Trimmed.files_of_sameEntries {fits : Prop}
    (trimmed : Trimmed fits maxBytes directory spool evicted middle)
    (same : SameEntries middle after) :
    ∀ name ∈ evicted.order,
      after.files.lookup name = directory.files.lookup name := by
  intro name member
  obtain ⟨entry, queued, rfl⟩ := trimmed.measures.lists.mem_order.mp member
  rw [same.files _ (trimmed.measures.stored.ext_eq queued)]
  exact trimmed.files entry.name member

theorem enqueuing_ends (measures : Measures maxBytes directory spool) :
    Enqueuing payload (Trimmed (spool.Fits payload) maxBytes directory spool)
      (EnqueueEnds maxBytes directory spool payload) (Limited maxBytes) where
  stored trimmed := trimmed.measures.stored
  lists trimmed := trimmed.measures.lists
  full := by
    intro evicted middle trimmed _
    obtain ⟨amount, fitting, dropped, counted⟩ := trimmed.count
    refine ⟨trimmed.measures.of_eq rfl rfl rfl rfl, amount, fitting,
      Or.inl ⟨_, 1, ?_, rfl, dropped, trimmed.files, ?_⟩⟩
    · rw [trimmed.measures.maxEntries_eq, ← measures.maxEntries_eq]
      exact .full
    · rw [← counted]
  draws trimmed _ := trimmed.measures.exists_draws
  fails := by
    intro evicted middle after fault sequence trimmed _ _ same unwritten
    obtain ⟨amount, fitting, dropped, counted⟩ := trimmed.count
    refine ⟨(trimmed.measures.of_sameEntries same).of_eq rfl rfl rfl rfl,
      amount, fitting, Or.inl ⟨fault, 0, .unwritten unwritten, rfl, dropped,
        trimmed.files_of_sameEntries same, ?_⟩⟩
    rw [← counted, Int64.add_zero]
  publishes := by
    intro evicted middle after fault sequence trimmed room draws stored
      published known
    obtain ⟨amount, fitting, dropped, counted⟩ := trimmed.count
    obtain ⟨kept, new⟩ := trimmed.files_of_stored stored published
    rw [dropped] at kept
    refine ⟨trimmed.measures.append room draws stored published, amount,
      fitting, Or.inr ⟨evicted.nextEntry sequence, known, ?_, kept, new,
        counted⟩⟩
    rw [← dropped]
    rfl
  dies := by
    intro evicted middle after sequence trimmed room draws cut
    rcases cut with ⟨stored, same | published⟩
    · exact trimmed.measures.toLimited.of_sameEntries same
    · exact (trimmed.measures.append room draws stored published).toLimited

/-- The specification of `Enqueue`. -/
theorem Measures.wp_enqueue
    (measures : Measures maxBytes directory spool) (payload : Payload) :
    Program.wp fileSystem (EnqueueEnds maxBytes directory spool payload)
      (Limited maxBytes) (spool.enqueue payload) directory := by
  have unchanged := trimmed_refl (spool.Fits payload) measures
  obtain ⟨amount, fitting, dropped, counted⟩ := unchanged.count
  refine wp_enqueue_of (enqueuing_ends measures) ?_ ?_ ?_
  · intro empty
    refine ⟨measures, amount, fitting,
      Or.inl ⟨_, 0, .empty, rfl, dropped, unchanged.files, ?_⟩⟩
    rw [← counted, Int64.add_zero]
  · intro large
    refine ⟨measures.of_eq rfl rfl rfl rfl, amount, fitting,
      Or.inl ⟨_, 1, .large, rfl, dropped, unchanged.files, ?_⟩⟩
    rw [← counted]
  · intro present small
    by_cases fits : spool.Fits payload
    · have within := (fits.resolve_left present).resolve_left small
      rw [Spool.makeRoom, evictWhile_of_within
        (decide_eq_false (Int64.not_lt.mpr within))]
      exact unchanged
    · exact wp_evictWhile (evicting_trimmed fits directory spool) _ _
        unchanged

end Enqueueing

/-! ## Runs -/

section Runs

variable {maxBytes : Int64} {before after station : Station}
variable {directory : Directory}

theorem limited_empty (maxBytes : Int64) :
    Limited maxBytes Directory.empty :=
  ⟨stored_empty, Nat.zero_le _⟩

/-- The index of every spool that is alive measures its directory. -/
theorem Station.measured
    (reachable : (stationMachine maxBytes).Reachable station) :
    station.Holds (Limited maxBytes) (Measures maxBytes) := by
  apply reachable.invariant
  · rintro station rfl
    exact holds_dead (limited_empty maxBytes) _
  · intro before deed after _ holds step
    refine holds.step (wp_mono
      (wp_openSpool_measures holds.directory) ?_ fun _ dead => dead)
      ?_ ?_ ?_ step
    · intro result after opened
      cases result with
      | error fault => exact opened
      | ok spool => exact ⟨opened.toLimited, opened⟩
    · rintro payload verdicts rfl
      refine holds.operate (fun spool _ measures => ?_) step
      refine wp_mono (measures.wp_enqueue payload) ?_ fun _ dead => dead
      intro result after ends
      exact ⟨ends.measures.toLimited, ends.measures⟩
    · intro spool measures
      refine wp_mono measures.wp_peek ?_ ?_
      · rintro ⟨result, answer⟩ after ⟨rfl, rfl⟩
        exact ⟨measures.toLimited, measures⟩
      · rintro after rfl
        exact measures.toLimited
    · intro name spool measures
      refine wp_mono measures.wp_release ?_ fun _ dead => dead
      intro result after kept
      exact ⟨kept.toLimited, kept⟩

theorem listing_congr {other : Directory} {order : List String}
    (same : ∀ name ∈ order,
      other.files.lookup name = directory.files.lookup name) :
    listing other order = listing directory order := by
  apply filterMap_congr
  intro name member
  rw [same name member]

/-- Files that are all there are listed one by one. -/
theorem listing_drop {order : List String}
    (present : ∀ name ∈ order,
      (directory.files.lookup name).isSome = true) (amount : Nat) :
    listing directory (order.drop amount) =
      (listing directory order).drop amount := by
  induction amount generalizing order with
  | zero => rfl
  | succ amount induction =>
    cases order with
    | nil => rfl
    | cons name rest =>
      obtain ⟨payload, found⟩ :=
        Option.isSome_iff_exists.mp (present name (by simp))
      have first : listing directory (name :: rest) =
          ⟨name, payload⟩ :: listing directory rest := by
        simp [listing, found]
      rw [first, drop_succ_cons, drop_succ_cons]
      exact induction fun other member =>
        present other (mem_cons_of_mem _ member)

theorem Measures.present
    {spool : Spool} (measures : Measures maxBytes directory spool) :
    ∀ name ∈ spool.order, (directory.files.lookup name).isSome = true := by
  intro name member
  obtain ⟨entry, queued, rfl⟩ := measures.lists.mem_order.mp member
  rw [measures.stored.present entry queued]
  rfl

/-- What `Enqueue` does to the entries of its spool. -/
theorem EnqueueEnds.entries
    {leaves : Directory} {spool : Spool} {payload : Payload}
    {result : Spool} {fault : Fault}
    (measures : Measures maxBytes directory spool)
    (ends : EnqueueEnds maxBytes directory spool payload
      (result, some fault) leaves) :
    ∃ amount, (spool.Fits payload → amount = 0) ∧
      ((∃ extra, Refuses spool.maxEntries fault extra ∧
          listing leaves result.order =
            (listing directory spool.order).drop amount ∧
          result.dropped = spool.dropped + Int64.ofNat amount + extra) ∨
        ∃ name, fault = syncFault name ∧
          listing leaves result.order =
            (listing directory spool.order).drop amount ++
              [⟨name, payload⟩] ∧
          result.dropped = spool.dropped + Int64.ofNat amount) := by
  obtain ⟨amount, fitting, refused | spooled⟩ := ends.effect
  · obtain ⟨_, extra, refuses, same, order, files, counted⟩ := refused
    cases same
    refine ⟨amount, fitting, Or.inl ⟨extra, refuses, ?_, counted⟩⟩
    rw [listing_congr files, order, listing_drop measures.present]
  · obtain ⟨name, known, order, files, new, counted⟩ := spooled
    refine ⟨amount, fitting, Or.inr ⟨name, ?_, ?_, counted⟩⟩
    · exact Option.some.inj (known.resolve_left (Option.some_ne_none _))
    · rw [← listing_drop measures.present, ← listing_congr files, order]
      simp [listing, new]

end Runs

/-! ## Failed calls that change the queue -/

/-- A spool with room for one byte that holds one entry. -/
def fullDeeds : List Deed :=
  [.openSpool [.proceed, .proceed, .proceed],
    .enqueue [7] (List.replicate 6 .proceed)]

/-- The oldest entry is evicted, and then the file cannot be opened. -/
def evictingDeed : Deed := .enqueue [8] [.proceed, .fail 0, .fail 0]

/-- The entry is published, and then the directory cannot be synced. -/
def syncingDeed : Deed :=
  .enqueue [8] [.proceed, .proceed, .proceed, .proceed, .proceed,
    .proceed, .fail 0]

def fullStation : Station :=
  ((stationMachine 1).run sampleStation fullDeeds).get (by decide)

theorem fullStation_reachable : (stationMachine 1).Reachable fullStation :=
  (Machine.Reachable.start rfl).run (Option.some_get _).symm

def syncedStation : Station :=
  ((stationMachine 1).step fullStation syncingDeed).get (by decide)

end Ironclaw.Disk
