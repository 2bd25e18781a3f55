import Ironclaw.Lib.Machine
import Ironclaw.PostgresStore.Tidy

/-!
# What partition maintenance keeps

Windows are inserted, partitions created and dropped, in any order, with
statements that fail and answers that are lost.  A partition has the rows of
its day and no others, the default partition is always there, and a row stays
visible once until a cutoff is given on a later day than its own.
-/

namespace Ironclaw.PostgresStore

open Lib Lib.Partitioned Domain Option

/-! ## Runs -/

/-- What is remembered of the calls: the rows that became visible, and the
cutoffs that were given. -/
inductive Entry where
  | inserted (row : Row)
  | cutoff (time : Time)
deriving DecidableEq

/-- A database, and its history with the last entry first. -/
structure Upkeep where
  database : Database
  history : List Entry

/-- A call that changes the table. -/
inductive Call where
  | applyWindow (delivery : Delivery) (window : AggregateWindow)
  | ensurePartition (network : Network) (day : Time)
  | ensurePartitions
      (networks : Nat → Network) (addDate : Time → Nat → Time)
      (first : Time) (days : Int)
  | dropPartitionsBefore
      (listing : Listing) (network : String → Delivery) (cutoff : Time)

namespace Upkeep

/-- The database after the schema: the default partition alone. -/
def migrated : Upkeep := ⟨Table.whole [] [], []⟩

def insert
    (delivery : Delivery) (window : AggregateWindow)
    (upkeep : Upkeep) : Upkeep :=
  let database := (applyWindow delivery window upkeep.database).1
  { database := database
    history :=
      if rowOf window ∉ upkeep.database.visible ∧
          rowOf window ∈ database.visible then
        .inserted (rowOf window) :: upkeep.history
      else upkeep.history }

/-- Calls one after the other, with dates of the years 1 to 9999. -/
def machine : Machine Upkeep Call where
  initial := fun upkeep => upkeep = migrated
  step upkeep
    | .applyWindow delivery window => some (upkeep.insert delivery window)
    | .ensurePartition network day =>
      if Dated day then
        some
          { upkeep with
            database :=
              (ensurePartition network day upkeep.database).1 }
      else none
    | .ensurePartitions networks addDate first days =>
      if ∀ offset ∈ List.range days.toNat,
          Dated (addDate first offset) then
        some
          { upkeep with
            database := (ensurePartitions networks addDate first days
              upkeep.database).1 }
      else none
    | .dropPartitionsBefore listing network cutoff =>
      if Dated cutoff ∧ listing.agrees upkeep.database then
        some
          { database := (dropPartitionsBefore listing network cutoff
              upkeep.database).1
            history := .cutoff cutoff :: upkeep.history }
      else none

end Upkeep

/-- A row that was inserted, and no cutoff after that was on a later day. -/
def Owed (history : List Entry) (row : Row) : Prop :=
  ∃ later earlier, history = later ++ .inserted row :: earlier ∧
    ∀ time, .cutoff time ∈ later → ¬row.day < utcDay time

/-! ## Invariant -/

theorem owed_inserted {history : List Entry} {new row : Row}
    (owed : Owed (.inserted new :: history) row) :
    row = new ∨ Owed history row := by
  rcases owed with ⟨later, earlier, equal, early⟩
  cases later with
  | nil =>
    cases equal
    exact Or.inl rfl
  | cons entry rest =>
    cases equal
    exact Or.inr ⟨rest, earlier, rfl, fun time member =>
      early time (List.mem_cons_of_mem _ member)⟩

theorem owed_cutoff {history : List Entry} {time : Time} {row : Row}
    (owed : Owed (.cutoff time :: history) row) :
    utcDay time ≤ row.day ∧ Owed history row := by
  rcases owed with ⟨later, earlier, equal, early⟩
  cases later with
  | nil => cases equal
  | cons entry rest =>
    cases equal
    exact ⟨not_lt.mp (early time List.mem_cons_self), rest, earlier, rfl,
      fun other member => early other (List.mem_cons_of_mem _ member)⟩

/-- The database is tidy and shows every row that is owed. -/
structure Upkeep.Sound (upkeep : Upkeep) : Prop where
  tidy : Tidy upkeep.database
  shown : ∀ row, Owed upkeep.history row → row ∈ upkeep.database.visible

namespace Upkeep

variable {upkeep : Upkeep}

theorem Sound.migrated : migrated.Sound where
  tidy := ⟨[], [], rfl, Valid.empty, List.forall_mem_nil _⟩
  shown := by
    rintro row ⟨later, earlier, equal, _⟩
    cases later with
    | nil | cons => cases equal

theorem Sound.insert
    (sound : upkeep.Sound) (delivery : Delivery) (window : AggregateWindow) :
    (upkeep.insert delivery window).Sound := by
  have kept := applyWindow_keeps sound.tidy delivery window
  refine ⟨kept.1, ?_⟩
  intro row owed
  rw [Upkeep.insert] at owed ⊢
  dsimp only at owed ⊢
  split at owed
  · rename_i appeared
    rcases owed_inserted owed with rfl | before
    · exact appeared.2
    · exact kept.2 row (sound.shown row before)
  · exact kept.2 row (sound.shown row owed)

theorem Sound.rearranges (sound : upkeep.Sound) {database : Database}
    (rearranges : Rearranges upkeep.database database) :
    { upkeep with database := database }.Sound where
  tidy := rearranges.1
  shown := fun row owed => rearranges.2.mem_iff.mpr (sound.shown row owed)

theorem Sound.dropPartitionsBefore
    (sound : upkeep.Sound) {cutoff : Time} (dated : Dated cutoff)
    (listing : Listing) (network : String → Delivery) :
    Upkeep.Sound
      ⟨(dropPartitionsBefore listing network cutoff upkeep.database).1,
        .cutoff cutoff :: upkeep.history⟩ := by
  have kept := dropPartitionsBefore_keeps sound.tidy dated listing network
  refine ⟨kept.1, ?_⟩
  intro row owed
  rcases owed_cutoff owed with ⟨late, before⟩
  exact kept.2 row (sound.shown row before) late

theorem Sound.step (sound : upkeep.Sound) {call : Call} {after : Upkeep}
    (step : machine.step upkeep call = some after) : after.Sound := by
  cases call with
  | applyWindow delivery window =>
    cases step
    exact sound.insert delivery window
  | ensurePartition network day =>
    rcases ite_none_right_eq_some.mp step with ⟨dated, equal⟩
    cases equal
    exact sound.rearranges
      (ensurePartition_rearranges sound.tidy dated network)
  | ensurePartitions networks addDate first days =>
    rcases ite_none_right_eq_some.mp step with ⟨dated, equal⟩
    cases equal
    exact sound.rearranges (ensurePartitions_rearranges sound.tidy dated)
  | dropPartitionsBefore listing network cutoff =>
    rcases ite_none_right_eq_some.mp step with ⟨⟨dated, _⟩, equal⟩
    cases equal
    exact sound.dropPartitionsBefore dated listing network

theorem sound_of_reachable (reachable : machine.Reachable upkeep) :
    upkeep.Sound := by
  apply reachable.invariant
  · rintro upkeep rfl
    exact Sound.migrated
  · intro before call after _ sound step
    exact sound.step step

end Upkeep

/-! ## Retention -/

/-- After any calls a row that was inserted is visible once, unless a later
cutoff was on a day after its own; every partition but the default one is that
of a day and has rows of that day only; and the default partition is there. -/
theorem partitions_lose_only_expired_rows
    {upkeep : Upkeep} (reachable : Upkeep.machine.Reachable upkeep) :
    (∀ row, Owed upkeep.history row → upkeep.database.visible.count row = 1) ∧
      (∀ partition ∈ upkeep.database.partitions,
        ∃ day, Dated day ∧ partition.frame.name = partitionName day ∧
          ∀ row ∈ partition.rows, row.day = utcDay day) ∧
      ∃ rows, upkeep.database.spare = some ⟨true, rows⟩ := by
  have sound := Upkeep.sound_of_reachable reachable
  rcases sound.tidy with ⟨partitions, spare, equal, valid, daily⟩
  have shown := sound.shown
  rw [equal] at shown ⊢
  refine ⟨?_, ?_, spare, rfl⟩
  · intro row owed
    exact List.count_eq_one_of_mem valid.nodup (shown row owed)
  · intro partition member
    rcases daily partition.frame (List.mem_map_of_mem member) with
      ⟨day, dated, framed⟩
    refine ⟨day, dated, ?_, ?_⟩
    · rw [framed, name_dailyFrame]
    · intro row inside
      apply (covers_dailyFrame_iff _ _).mp
      rw [← framed]
      exact valid.placed partition member row inside

/--
After any calls no primary key is visible twice, and an insert does to the
visible rows what it does to those of a table without partitions.
-/
theorem partitioned_table_refines_archive
    {upkeep : Upkeep} (reachable : Upkeep.machine.Reachable upkeep)
    (window : AggregateWindow) (metrics : Option Metrics) :
    (upkeep.database.visible.map Row.primaryKey).Nodup ∧
      (applyWindow .answered window upkeep.database).1.visible.Perm
          (Archive.applyWindow window
            ⟨upkeep.database.visible, metrics⟩).1.rows ∧
        (applyWindow .answered window upkeep.database).2 =
          (Archive.applyWindow window
            ⟨upkeep.database.visible, metrics⟩).2 := by
  have tidy := (Upkeep.sound_of_reachable reachable).tidy
  refine ⟨?_, applyWindow_archive tidy window metrics⟩
  rcases tidy with ⟨partitions, spare, equal, valid, _⟩
  rw [equal]
  exact valid.keyed

/-- Midnight of a day of January 2024. -/
def january (day : Nat) : Time :=
  ⟨1704067200000000000 + 86400000000000 * (day - 1)⟩

/-- A window of a day of January 2024. -/
def windowOn (day : Nat) : AggregateWindow where
  key := ⟨"user", "device", 1, "pod"⟩
  windowID := 1
  sequence := 1
  windowStart := january day
  windowEnd := (january day).add 1000000000
  count := 1
  errorCount := 0
  bytes := 0
  p95Nanos := 0
  p99Nanos := 0
  maxNanos := 0

/-- Two windows arrive before there are partitions; that of the first day is
moved, that of the third is not, since a statement fails; and the days before
the second are dropped. -/
def januaryCalls : List Call :=
  [.applyWindow .answered (windowOn 1), .applyWindow .answered (windowOn 3),
    .ensurePartition ⟨.answered, fun _ => .answered⟩ (january 1),
    .ensurePartition ⟨.answered, fun step =>
        if step = .clear then .failed ⟨none, .sentinel "timeout"⟩
        else .answered⟩
      (january 3),
    .dropPartitionsBefore
      (.listed ["aggregate_windows_default", "aggregate_windows_20240101"])
      (fun _ => .answered) (january 2)]

def januaryUpkeep : Upkeep :=
  (Upkeep.machine.run Upkeep.migrated januaryCalls).get (by decide)

theorem january_reachable : Upkeep.machine.Reachable januaryUpkeep :=
  (Machine.Reachable.start rfl).run (some_get _).symm

theorem january_owed : Owed januaryUpkeep.history (rowOf (windowOn 3)) := by
  refine ⟨[.cutoff (january 2)], [.inserted (rowOf (windowOn 1))],
    by decide, ?_⟩
  intro time member
  cases List.mem_singleton.mp member
  decide

theorem partitions_lose_only_expired_rows_january :
    rowOf (windowOn 1) ∉ januaryUpkeep.database.visible ∧
      Owed januaryUpkeep.history (rowOf (windowOn 3)) ∧
        januaryUpkeep.database.visible.count (rowOf (windowOn 3)) = 1 :=
  ⟨by decide, january_owed,
    (partitions_lose_only_expired_rows january_reachable).1 _ january_owed⟩

theorem partitioned_table_refines_archive_january :
    januaryUpkeep.database.visible = [rowOf (windowOn 3)] ∧
      (applyWindow .answered (windowOn 2)
          januaryUpkeep.database).1.visible.Perm
        [rowOf (windowOn 3), rowOf (windowOn 2)] :=
  ⟨by decide,
    (partitioned_table_refines_archive january_reachable _ none).2.1⟩

end Ironclaw.PostgresStore
