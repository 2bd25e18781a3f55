import Ironclaw.Disk.Budget
import Mathlib.Algebra.BigOperators.Ring.Finset
import Mathlib.Algebra.Order.BigOperators.Group.List
import Mathlib.Algebra.Order.Group.Nat

/-!
# The index of a spool under failures

The list of names, the map of sizes, the counter of bytes and the files in the
directory are four views of one queue.  Every operation keeps them in
agreement, whichever of its file system calls fail, until the ordinals or the
sum of the sizes leave the range of 64 bits; runs in which they do are given
at the end.
-/

namespace Ironclaw.Disk

open Lib List Int64 AList Program Spool

variable {payload : Payload} {spool : Spool} {before : Station}

/-! ## Agreement -/

/-- The comparison that recovery sorts by, on names. -/
def nameBefore (left right : String) : Bool :=
  match parseName left, parseName right with
  | some (ordinal, sequence), some (other, later) =>
    Spool.Found.before ⟨left, ordinal, sequence⟩ ⟨right, other, later⟩
  | _, _ => false

/-- The sum of the sizes in the index. -/
def Spool.sizesTotal (spool : Spool) : Int :=
  ((GoMap.values spool.sizes).map Int64.toInt).sum

/-- Forget some entries one after the other. -/
def Spool.forgetAll (names : List String) (spool : Spool) : Spool :=
  names.foldl (fun spool name => spool.forget name) spool

/-- The index agrees with itself and with the directory. -/
structure Represents (directory : Directory) (spool : Spool) : Prop where
  order_nodup : spool.order.Nodup
  sizes_iff : ∀ name, name ∈ spool.sizes ↔ name ∈ spool.order
  bytes_eq : spool.bytes.toInt = spool.sizesTotal
  /-- The clamp of `removeLocked` never acts, in whichever order it runs. -/
  unclamped : ∀ names name size,
    (spool.forgetAll names).sizes.lookup name = some size →
      ¬(spool.forgetAll names).bytes - size < 0
  increasing : spool.order.Pairwise fun left right =>
    nameBefore left right = true
  files_iff : ∀ name, name ∈ spool.order ↔
    name ∈ directory.files ∧ ext name = extension

section Agreement

variable {maxBytes : Int64} {directory : Directory}

section Weighs

variable (weighs : Weighs maxBytes directory spool)
include weighs

theorem Weighs.sizesTotal_eq : spool.sizesTotal = spooledBytes directory := by
  have names := weighs.keys_perm.trans weighs.lists.order_perm
  have values : (GoMap.values spool.sizes).Perm
      ((queueOf directory.journal).map fun entry =>
        ofNat entry.payload.length) := by
    rw [GoMap.values_eq_map_keys spool.sizes 0]
    refine (names.map _).trans (Perm.of_eq ?_)
    rw [map_map]
    apply map_congr_left
    intro entry queued
    change (spool.sizes.lookup entry.name).getD 0 = _
    rw [weighs.sized entry queued]
    rfl
  have total : ((queueOf directory.journal).map fun entry =>
      (ofNat entry.payload.length).toInt) =
        ((queueOf directory.journal).map fun entry =>
          entry.payload.length).map Nat.cast := by
    rw [map_map]
    apply map_congr_left
    intro entry queued
    have less : entry.payload.length ≤ spooledBytes directory :=
      le_sum_of_mem (mem_map_of_mem queued)
    exact toInt_ofNat_of_lt (Nat.lt_of_le_of_lt less weighs.fits)
  rw [sizesTotal, (values.map toInt).sum_eq, map_map]
  refine (congrArg List.sum total).trans ?_
  exact (Nat.cast_list_sum _).symm

/-- Forgetting keeps the counter right, whatever names are forgotten. -/
theorem Weighs.forgetAll (names : List String) :
    ∃ after, Weighs maxBytes after (spool.forgetAll names) := by
  induction names generalizing directory spool with
  | nil => exact ⟨directory, weighs⟩
  | cons name rest induction =>
    by_cases listed : name ∈ spool.order
    · exact induction (weighs.forget listed)
    · have unknown : spool.forget name = spool := by
        rw [← weighs.lists.sizes_iff, ← lookup_eq_none] at listed
        simp [Spool.forget, listed]
      rw [Spool.forgetAll, foldl_cons, unknown]
      exact induction weighs

theorem Weighs.unclamped {name : String}
    {size : Int64} (known : spool.sizes.lookup name = some size) :
    ¬spool.bytes - size < 0 := by
  have listed : name ∈ spool.order := by
    rw [← weighs.lists.sizes_iff, ← lookup_isSome, known]
    rfl
  obtain ⟨entry, queued, rfl⟩ := weighs.lists.mem_order.mp listed
  rw [weighs.sized entry queued] at known
  obtain rfl := Option.some.inj known
  obtain ⟨left, less⟩ := weighs.bytes_sub queued
  rw [left]
  exact Word.ofNat_nonneg (Nat.lt_of_le_of_lt less weighs.fits)

end Weighs

theorem nameBefore_of_ordinal
    {ordinal other : Int64} {sequence later : UInt64}
    (less : ordinalOf (entryName ordinal sequence) <
      ordinalOf (entryName other later)) :
    nameBefore (entryName ordinal sequence) (entryName other later) =
      true := by
  rw [ordinalOf_entryName, ordinalOf_entryName] at less
  have different : ordinal ≠ other := by
    rintro rfl
    exact lt_irrefl _ less
  simp only [nameBefore, parseName_entryName, Spool.Found.before]
  rw [if_pos different]
  exact decide_eq_true (lt_iff_toInt_lt.mpr less)

theorem Indexes.increasing
    (indexes : Indexes directory spool) (intact : Intact directory) :
    spool.order.Pairwise fun left right => nameBefore left right = true := by
  rw [indexes.order_eq, pairwise_map]
  refine intact.increasing.imp_of_mem ?_
  intro left right leftQueued rightQueued less
  obtain ⟨ordinal, sequence, leftName⟩ := intact.named left leftQueued
  obtain ⟨other, later, rightName⟩ := intact.named right rightQueued
  rw [leftName, rightName] at less ⊢
  exact nameBefore_of_ordinal less

theorem Measures.files_iff
    (measures : Measures maxBytes directory spool) (name : String) :
    name ∈ spool.order ↔ name ∈ directory.files ∧ ext name = extension := by
  rw [measures.lists.mem_order]
  constructor
  · rintro ⟨entry, queued, rfl⟩
    refine ⟨?_, measures.stored.ext_eq queued⟩
    rw [← lookup_isSome, measures.stored.present entry queued]
    rfl
  · rintro ⟨present, batch⟩
    obtain ⟨payload, found⟩ := Option.isSome_iff_exists.mp
      (lookup_isSome.mpr present)
    exact ⟨_, measures.stored.only name payload found batch, rfl⟩

theorem Weighs.represents (weighs : Weighs maxBytes directory spool)
    (indexes : Indexes directory spool) (intact : Intact directory) :
    Represents directory spool where
  order_nodup := weighs.order_nodup
  sizes_iff := weighs.lists.sizes_iff
  bytes_eq := by
    rw [weighs.sizesTotal_eq, weighs.bytes_eq, toInt_ofNat_of_lt weighs.fits]
  unclamped := by
    intro names name size known
    obtain ⟨after, left⟩ := weighs.forgetAll names
    exact left.unclamped known
  increasing := indexes.increasing intact
  files_iff := weighs.files_iff

end Agreement

/-! ## Runs -/

section Runs

variable {maxBytes : Int64} {station : Station}

/--
The spooled bytes can be counted, and an `Enqueue` still has an ordinal.
-/
def Station.Countable (before : Station) (deed : Deed) : Prop :=
  spooledBytes before.directory < 2 ^ 63 ∧
    ∀ payload verdicts, deed = .enqueue payload verdicts →
      publishedCount before.directory.journal < 2 ^ 63 - 1

theorem Station.sound_of_countable
    (reachable : (stationMachine maxBytes).ReachableUnder
      Station.Countable station) : station.Sound := by
  apply reachable.invariant
  · rintro station rfl
    exact sound_initial
  · intro before deed after _ sound countable step
    exact (sound.step countable.2 step).1

/-- The counter of bytes, in a state whose bytes can be counted. -/
theorem Station.weighed
    (reachable : (stationMachine maxBytes).ReachableUnder
      Station.Countable station) :
    station.Holds (Limited maxBytes) fun directory spool =>
      Measures maxBytes directory spool ∧ (spooledBytes directory < 2 ^ 63 →
          spool.bytes = ofNat (spooledBytes directory)) := by
  apply reachable.invariant
  · rintro station rfl
    exact holds_dead (limited_empty maxBytes) _
  · intro before deed after _ holds countable step
    obtain ⟨fits, -⟩ := countable
    have weighs : ∀ {spool}, Measures maxBytes before.directory spool ∧
          (spooledBytes before.directory < 2 ^ 63 → spool.bytes =
              ofNat (spooledBytes before.directory)) →
        Weighs maxBytes before.directory spool :=
      fun known => ⟨known.1, known.2 fits, fits⟩
    refine holds.step (wp_mono (wp_openSpool_lightens holds.directory fits) ?_
      fun _ dead => dead.1) ?_ ?_ ?_ step
    · intro result after opened
      cases result with
      | error fault => exact opened.1
      | ok spool =>
        exact ⟨opened.1.toLimited, opened.1.toMeasures,
          fun _ => opened.1.bytes_eq⟩
    · rintro payload verdicts rfl
      refine holds.operate (fun spool _ known => ?_) step
      refine wp_mono ((weighs known).wp_enqueue payload) ?_
        fun _ dead => dead.1
      intro result after charged
      exact ⟨charged.measures.toLimited, charged.measures,
        fun _ => charged.bytes_eq⟩
    · intro spool known
      refine wp_mono known.1.wp_peek ?_ ?_
      · rintro ⟨result, answer⟩ after ⟨rfl, rfl⟩
        exact ⟨holds.directory, known⟩
      · rintro after rfl
        exact holds.directory
    · intro name spool known
      refine wp_mono (weighs known).wp_release ?_ ?_
      · rintro ⟨result, fault⟩ after ⟨left, -⟩
        exact ⟨left.toLimited, left.toMeasures, fun _ => left.bytes_eq⟩
      · rintro after rfl
        exact holds.directory

/--
The index of a spool that is alive agrees with the directory in every run in
which the spooled bytes can be counted in 64 bits and no more entries are
published than there are ordinals.
-/
theorem index_represents_directory
    (reachable : (stationMachine maxBytes).ReachableUnder
      Station.Countable station)
    (fits : spooledBytes station.directory < 2 ^ 63)
    (alive : station.spool = some spool) :
    Represents station.directory spool := by
  have sound := Station.sound_of_countable reachable
  obtain ⟨measures, counted⟩ := (Station.weighed reachable).spool spool alive
  have weighs : Weighs maxBytes station.directory spool :=
    ⟨measures, counted fits, fits⟩
  exact weighs.represents (sound.indexes spool alive) sound.intact

end Runs

/-- Whether the spooled bytes and one more entry can be counted. -/
def countable (before : Station) (_ : Deed) : Bool :=
  spooledBytes before.directory < 2 ^ 63 ∧
    publishedCount before.directory.journal < 2 ^ 63 - 1

theorem countable_permits (before : Station) (deed : Deed)
    (checked : countable before deed = true) : before.Countable deed := by
  rcases of_decide_eq_true checked with ⟨fits, more⟩
  exact ⟨fits, fun _ _ _ => more⟩

/--
Three payloads, an eviction that fails, one that is acknowledged, and a start
over what is left.
-/
def restartedDeeds : List Deed :=
  [.openSpool [.proceed, .proceed, .proceed],
    .enqueue [7] (List.replicate 6 .proceed),
    .enqueue [8] (List.replicate 6 .proceed),
    .enqueue [9, 9] (.fail 0 :: List.replicate 6 .proceed),
    .release (lapName 2) [.proceed, .proceed], .kill,
    .openSpool (List.replicate 8 .proceed)]

def restartedStation : Station :=
  ((stationMachine 3).runIf countable sampleStation restartedDeeds).get
    (by decide)

theorem index_represents_directory_restarted :
    ∃ spool, restartedStation.spool = some spool ∧
      spool.order = [lapName 1, lapName 3] ∧ spool.bytes = 3 ∧
      Represents restartedStation.directory spool := by
  have reachable : (stationMachine 3).ReachableUnder Station.Countable
      restartedStation :=
    (Machine.ReachableUnder.start rfl).runIf countable_permits
      (Option.some_get _).symm
  exact ⟨_, rfl, by decide, by decide,
    index_represents_directory reachable (by decide) rfl⟩

/-! ## A sum of sizes that wraps -/

/-- A budget as large as it can be. -/
def largestBudget : Int64 := 9223372036854775807

/-- The spool after one more payload. -/
def Spool.gains (payload : Payload) (spool : Spool) : Spool :=
  { spool with seq := spool.seq + 1 }.append
    (spool.nextEntry (spool.seq + 1)) (Int64.ofNat payload.length)

theorem sizesTotal_gains
    (free : spool.nextEntry (spool.seq + 1) ∉ spool.sizes) :
    (spool.gains payload).sizesTotal =
      (ofNat payload.length).toInt + spool.sizesTotal := by
  change ((GoMap.values (spool.sizes.insert _ _)).map _).sum = _
  rw [GoMap.values_insert_of_notMem free, map_cons, sum_cons]
  rfl

/-- A payload for which there is room without evicting. -/
structure Spool.HasRoom (payload : Payload) (spool : Spool) : Prop where
  present : payload ≠ []
  small : ¬spool.maxBytes < Int64.ofNat payload.length
  within : decide (spool.maxBytes <
    spool.bytes + Int64.ofNat payload.length) = false
  room : spool.order.length < spool.maxEntries
  free : spool.nextEntry (spool.seq + 1) ∉ spool.sizes

theorem Spool.HasRoom.step {maxBytes : Int64} (roomy : spool.HasRoom payload)
    (alive : before.spool = some spool) :
    (stationMachine maxBytes).step before
        (.enqueue payload (List.replicate 6 .proceed)) =
      some ⟨before.directory.publishing
          (spool.nextEntry (spool.seq + 1)) payload,
        some (spool.gains payload), .enqueued none⟩ := by
  have evicts : (spool.makeRoom payload).run fileSystem before.directory
      (List.replicate 6 .proceed) =
        .finished before.directory spool (List.replicate 6 .proceed) := by
    rw [makeRoom, evictWhile_of_within roomy.within]
    rfl
  have ran := @run_enqueue before.directory spool _ _ _ _ []
    roomy.present roomy.small evicts roomy.room roomy.free
  simp only [stationMachine, Station.step, Station.operate, alive,
    Option.map_some, ran, Station.settle]
  rfl

/-- A payload of a quarter of the range of the counter. -/
structure Wide (payload : Payload) : Prop where
  length : payload.length = 2 ^ 62

theorem Wide.size (wide : Wide payload) :
    ofNat payload.length = 4611686018427387904 := by
  rw [wide.length]
  rfl

theorem Wide.hasRoom_first (wide : Wide payload) :
    (new largestBudget).HasRoom payload where
  present := by
    rintro rfl
    cases wide.length
  small := by
    rw [wide.size]
    decide
  within := by
    rw [wide.size]
    decide
  room := by decide
  free := notMem_empty _

/-- The sum of two sizes is negative, so that nothing is evicted. -/
theorem Wide.hasRoom_second (wide : Wide payload) :
    ((new largestBudget).gains payload).HasRoom payload where
  present := wide.hasRoom_first.present
  small := wide.hasRoom_first.small
  within := by
    change decide (largestBudget < 0 + ofNat payload.length +
      ofNat payload.length) = false
    rw [wide.size]
    decide
  room := by
    change 1 < entryLimit largestBudget
    decide
  free := by
    change _ ∉ (∅ : GoMap String Int64).insert _ _
    rw [mem_insert]
    rintro (same | absent)
    · have numbers : (0 : UInt64) + 1 + 1 = 0 + 1 :=
        (entryName_injective same).2
      cases numbers
    · exact notMem_empty _ absent

/-- Two payloads of a quarter of the range make the counter negative. -/
theorem Wide.bytes_wrap (wide : Wide payload) :
    ∃ station spool, (stationMachine largestBudget).Reachable station ∧
      station.spool = some spool ∧ spool.bytes.toInt = -9223372036854775808 ∧
      spool.sizesTotal = 9223372036854775808 := by
  have opened : (stationMachine largestBudget).Reachable
      ⟨Directory.empty, some (new largestBudget), .opened none⟩ :=
    (Machine.Reachable.start rfl).next (show
      (stationMachine largestBudget).step sampleStation
        (.openSpool [.proceed, .proceed, .proceed]) = some _ from rfl)
  have reachable := (opened.next (wide.hasRoom_first.step rfl)).next
      (wide.hasRoom_second.step rfl)
  refine ⟨_, _, reachable, rfl, ?_, ?_⟩
  · change (0 + ofNat payload.length + ofNat payload.length).toInt = _
    rw [wide.size]
    decide
  · rw [sizesTotal_gains wide.hasRoom_second.free,
      sizesTotal_gains wide.hasRoom_first.free, wide.size]
    decide

/-! ## Ordinals that wrap -/

/-- A lap of a process on the directory. -/
def lapDeed : Deed := .enqueue [7] (List.replicate 7 .proceed)

theorem Lap.step {count : Nat} (lap : Lap count before.directory spool)
    (alive : before.spool = some spool) :
    (stationMachine 1).step before lapDeed =
      some ⟨lapDirectory count before.directory,
        some (lapSpool count spool), .enqueued none⟩ := by
  have ran := lap.run_enqueue []
  rw [append_nil] at ran
  simp only [lapDeed, stationMachine, Station.step, Station.operate,
    alive, Option.map_some, ran, Station.settle]

theorem Lap.step_kept {count : Nat} (lap : Lap count before.directory spool)
    (alive : before.spool = some spool) :
    (stationMachine 1).step before
        (.enqueue [7] (.fail 0 :: List.replicate 6 .proceed)) =
      some ⟨before.directory.publishing (lapName (count + 1)) [7],
        some (keptSpool count spool), .enqueued none⟩ := by
  have ran := lap.run_enqueue_kept []
  rw [append_nil] at ran
  simp only [stationMachine, Station.step, Station.operate, alive,
    Option.map_some, ran, Station.settle]

theorem exists_lap (laps : Nat) :
    ∃ station spool, (stationMachine 1).Reachable station ∧
      station.spool = some spool ∧
      Lap (laps + 1) station.directory spool := by
  induction laps with
  | zero => exact ⟨fullStation, _, fullStation_reachable, rfl, Lap.first⟩
  | succ laps induction =>
    obtain ⟨station, spool, reachable, alive, lap⟩ := induction
    exact ⟨_, _, reachable.next (lap.step alive), rfl, lap.next⟩

/--
After `2^63 - 1` publications the next ordinal is negative, and an eviction
that fails keeps the entry before it in front.
-/
theorem order_decreases :
    ∃ station spool, (stationMachine 1).Reachable station ∧
      station.spool = some spool ∧
      spool.order = [lapName (2 ^ 63 - 1), lapName (2 ^ 63)] ∧
      nameBefore (lapName (2 ^ 63 - 1)) (lapName (2 ^ 63)) = false := by
  obtain ⟨station, spool, reachable, alive, lap⟩ := exists_lap (2 ^ 63 - 2)
  refine ⟨_, _, reachable.next (lap.step_kept alive), rfl, ?_, ?_⟩
  · change spool.order ++ _ = _
    rw [lap.order]
    rfl
  · rw [lapName, lapName, nameBefore, parseName_entryName,
      parseName_entryName]
    decide

/--
Outside the ranges the index disagrees with itself: the counter of bytes is
not the sum of the sizes, and the names are not in order.
-/
theorem index_leaves_range :
    (∃ station spool, (stationMachine largestBudget).Reachable station ∧
      station.spool = some spool ∧
      spool.bytes.toInt ≠ spool.sizesTotal) ∧
    ∃ station spool, (stationMachine 1).Reachable station ∧
      station.spool = some spool ∧
      ¬spool.order.Pairwise fun left right =>
        nameBefore left right = true := by
  constructor
  · have wide : Wide (List.replicate (2 ^ 62) 0) := ⟨length_replicate⟩
    obtain ⟨station, spool, reachable, alive, bytes, sizes⟩ := wide.bytes_wrap
    refine ⟨station, spool, reachable, alive, ?_⟩
    rw [bytes, sizes]
    decide
  · obtain ⟨station, spool, reachable, alive, order, wrong⟩ := order_decreases
    refine ⟨station, spool, reachable, alive, ?_⟩
    rw [order, pairwise_pair, wrong]
    exact Bool.false_ne_true

end Ironclaw.Disk
