import Ironclaw.Lib.Word
import Ironclaw.PostgresStore.Partitions

/-!
# Tidy partitions

The default partition is attached, every other partition is that of a day and
has the rows of that day.  Every call leaves such a database behind it,
whatever statement fails: an insert adds a row, a partition that is created
moves rows and loses none, and partitions that are dropped take rows of
earlier days than the cutoff's.

Names of partitions are compared as texts.  For the years 1 to 9999 their order
is that of the days.
-/

namespace Ironclaw.PostgresStore

open Lib Lib.Partitioned Domain List String

variable {first cutoff : Time} {database : Database}

/-! ## Daily partitions -/

/-- The day of the `window_start` that is stored. -/
def Row.day (row : Row) : Int := utcDay (scanTime row.windowStart)

/-- The definition of the partition of a day, in microseconds since 2000. -/
def dailyFrame (number : Int) : Frame Int where
  name := "aggregate_windows_" ++
    String.ofList (Calendar.compactChars (Calendar.dateOf number))
  lower := 86400000000 * number - 63082281600000000
  upper := 86400000000 * (number + 1) - 63082281600000000

theorem name_dailyFrame (day : Time) :
    (dailyFrame (utcDay day)).name = partitionName day :=
  rfl

theorem day_eq (row : Row) : row.day =
      (row.windowStart.toInt + 63082281600000000) / 86400000000 := by
  have epoch : postgresEpoch.toInt = 946684800000000 := rfl
  have seconds : ∀ time : Int, 1000 * (time + 946684800000000) / 1000000000 =
        (time + 946684800000000) / 1000000 := by
    omega
  have days : ∀ time : Int,
      ((time + 946684800000000) / 1000000 + 62135596800) / 86400 =
        (time + 63082281600000000) / 86400000000 := by
    omega
  rw [Row.day, utcDay, Time.unixSeconds, scanTime, epoch, Calendar.epoch]
  exact (congrArg (fun time => (time + 62135596800) / 86400)
    (seconds _)).trans (days _)

theorem covers_dailyFrame_iff (number : Int) (row : Row) :
    (dailyFrame number).covers (layout.position row) ↔ row.day = number := by
  rw [day_eq]
  show 86400000000 * number - 63082281600000000 ≤ row.windowStart.toInt ∧
    row.windowStart.toInt < 86400000000 * (number + 1) - 63082281600000000 ↔ _
  omega

theorem nanos_truncateDay (day : Time) : (truncateDay day).nanos =
      1000000000 * (86400 * utcDay day - 62135596800) := by
  show day.nanos - (day.nanos - -62135596800000000000) % 86400000000000 =
    1000000000 *
      (86400 * ((day.nanos / 1000000000 + 62135596800) / 86400) - 62135596800)
  omega

theorem utcDay_truncateDay (day : Time) :
    utcDay (truncateDay day) = utcDay day := by
  rw [utcDay, Time.unixSeconds, nanos_truncateDay, Calendar.epoch]
  omega

theorem toInt_micros
    {time : Time} (lower : -62135596800000000000 ≤ time.nanos)
    (upper : time.nanos ≤ 253402300800000000000) :
    (micros time).toInt = time.nanos / 1000 - 946684800000000 := by
  have epoch : postgresEpoch.toInt = 946684800000000 := rfl
  have sent : (Int64.ofInt (time.nanos / 1000)).toInt = time.nanos / 1000 :=
    Int64.toInt_ofInt_of_le (by omega) (by omega)
  rw [micros, Word.toInt_sub (by omega) (by omega), sent, epoch]

variable {day : Time}

/-- The partition that is created for a day of these years. -/
theorem frameOf_truncateDay (dated : Dated day) :
    frameOf (truncateDay day) ((truncateDay day).add fullDay) =
      dailyFrame (utcDay day) := by
  have range := Calendar.day_range dated.1 dated.2
  have nanos := nanos_truncateDay day
  have later : ((truncateDay day).add fullDay).nanos =
      (truncateDay day).nanos + 86400000000000 := rfl
  have name : partitionName (truncateDay day) =
      (dailyFrame (utcDay day)).name := by
    rw [← utcDay_truncateDay day, name_dailyFrame]
  have lower : (micros (truncateDay day)).toInt =
      86400000000 * utcDay day - 63082281600000000 := by
    rw [toInt_micros (by omega) (by omega)]
    omega
  have upper : (micros ((truncateDay day).add fullDay)).toInt =
      86400000000 * (utcDay day + 1) - 63082281600000000 := by
    rw [toInt_micros (by omega) (by omega)]
    omega
  rw [frameOf, name, lower, upper]
  rfl

section FirstDated

variable {second : Time} (firstDated : Dated first)
variable (secondDated : Dated second)
include firstDated secondDated

theorem partitionName_lt (less : utcDay first < utcDay second) :
    partitionName first < partitionName second := by
  apply Text.append_ofList_lt
  apply Calendar.compactChars_lt less
  · exact ⟨zero_le_one.trans firstDated.1, firstDated.2⟩
  · exact ⟨zero_le_one.trans secondDated.1, secondDated.2⟩

theorem utcDay_lt_of_partitionName
    (less : partitionName first < partitionName second) :
    utcDay first < utcDay second := by
  rcases lt_trichotomy (utcDay first) (utcDay second) with
    before | equal | beyond
  · exact before
  · rw [← name_dailyFrame, ← name_dailyFrame, equal] at less
    exact absurd less (lt_irrefl _)
  · have greater := partitionName_lt secondDated firstDated beyond
    exact absurd less (lt_asymm greater)

theorem utcDay_eq_of_partitionName
    (same : partitionName first = partitionName second) :
    utcDay first = utcDay second := by
  rcases lt_trichotomy (utcDay first) (utcDay second) with
    before | equal | beyond
  · have less := partitionName_lt firstDated secondDated before
    exact absurd (same ▸ less) (lt_irrefl _)
  · exact equal
  · have less := partitionName_lt secondDated firstDated beyond
    exact absurd (same ▸ less) (lt_irrefl _)

end FirstDated

/-- The name of the default partition is not that of a day. -/
theorem partitionName_ne_default (dated : Dated day) :
    partitionName day ≠ defaultPartition := by
  intro same
  have digits := (Calendar.compactChars_dateOf
    (zero_le_one.trans dated.1) dated.2).1
  have texts : "aggregate_windows_".toList ++
      Calendar.compactChars (Calendar.dateOf (utcDay day)) =
        "aggregate_windows_".toList ++ "default".toList := by
    rw [← @String.toList_ofList (Calendar.compactChars _),
      ← toList_append, ← toList_append]
    exact congrArg toList same
  have letters := append_cancel_left texts
  rw [letters] at digits
  exact absurd (digits 'd' (by decide)) (by decide)

/-! ## Tidy databases -/

/-- Every partition is that of a day. -/
def Daily (partitions : List (Partition Row Int)) : Prop :=
  ∀ frame ∈ partitions.map Partition.frame,
    ∃ day, Dated day ∧ frame = dailyFrame (utcDay day)

/-- The default partition is attached, the others are those of days, and every
row is where it belongs. -/
def Tidy (database : Database) : Prop :=
  ∃ partitions spare, database = Table.whole partitions spare ∧
    Valid layout partitions spare ∧ Daily partitions

/-- The rows of a day and later stay visible. -/
def KeepsFrom (day : Int) (before after : Database) : Prop :=
  Tidy after ∧ ∀ row ∈ before.visible, day ≤ row.day → row ∈ after.visible

theorem Tidy.keepsFrom (tidy : Tidy database) (day : Int) :
    KeepsFrom day database database :=
  ⟨tidy, fun _ member _ => member⟩

/-- The rows may move, but the same ones are visible. -/
def Rearranges (before after : Database) : Prop :=
  Tidy after ∧ after.visible.Perm before.visible

theorem Tidy.rearranges (tidy : Tidy database) :
    Rearranges database database :=
  ⟨tidy, Perm.refl _⟩

theorem Rearranges.trans
    {first second third : Database} (before : Rearranges first second)
    (after : Rearranges second third) :
    Rearranges first third :=
  ⟨after.1, after.2.trans before.2⟩

theorem rearranges_of_adopts
    {partitions : List (Partition Row Int)} {spare : List Row}
    (daily : Daily partitions) (dated : Dated day)
    (adopts : Adopts layout (dailyFrame (utcDay day)) partitions spare
      database) : Rearranges (Table.whole partitions spare) database := by
  rcases adopts with ⟨partitions', spare', rfl, valid, frames, perm⟩
  refine ⟨⟨partitions', spare', rfl, valid, ?_⟩, perm⟩
  intro frame member
  rcases frames frame member with old | new
  · exact daily frame old
  · exact ⟨day, dated, new⟩

/-! ## Statements and transactions -/

section Statements

variable {delivery : Delivery} {after : Database}

/-- A statement is carried out, or nothing changes. -/
theorem exec_keeps {statement : Statement} {kept : Database → Prop}
    (delivery : Delivery) (same : kept database)
    (changed : ∀ after, statement database = .ok after → kept after) :
    kept (exec delivery statement database).1 := by
  cases delivery with
  | failed error => exact same
  | answered | unanswered =>
    rw [exec]
    cases result : statement database with
    | error error => exact same
    | ok after => exact changed after result

/-- A statement without an error was carried out. -/
theorem exec_ok {statement : Statement}
    (success : exec delivery statement database = (after, none)) :
    statement database = .ok after := by
  cases result : statement database with
  | error error => cases delivery <;> simp [exec, result] at success
  | ok changed => cases delivery <;> simp_all [exec]

theorem statement_ok {change : Database → Except Refusal Database}
    (success : statement change database = .ok after) :
    change database = .ok after := by
  cases result : change database <;> simp_all [statement, Except.mapError]

theorem transact_ok {context : String} {statement : Statement}
    (success : transact delivery context statement database = .ok after) :
    statement database = .ok after := by
  rw [transact] at success
  split at success
  · rename_i sent
    cases success
    exact exec_ok sent
  · cases success

/-- The statements of a migration that was not given up were all carried
out. -/
theorem transact_bind
    {context : String} {change : Database → Except Refusal Database}
    {next : Database → Except Fault Database} {result : Database}
    (success :
      (transact delivery context (statement change) database >>= next) =
        .ok result) :
    ∃ after, change database = .ok after ∧ next after = .ok result := by
  cases sent : transact delivery context (statement change) database with
  | error fault =>
    rw [sent] at success
    cases success
  | ok after =>
    rw [sent] at success
    exact ⟨after, statement_ok (transact_ok sent), success⟩

end Statements

section Tidy

variable (tidy : Tidy database)
include tidy

/-- A migration keeps every row. -/
theorem migrate_rearranges {migrated : Database} (dated : Dated day)
    {network : MigrationStep → Delivery}
    (success : migrate network (truncateDay day)
      ((truncateDay day).add fullDay) database = .ok migrated) :
    Rearranges database migrated := by
  rcases tidy with ⟨partitions, spare, rfl, valid, daily⟩
  rw [migrate, frameOf_truncateDay dated] at success
  cases begun : transact (network .begin) "starting partition migration"
      .ok (Table.whole partitions spare) with
  | error fault =>
    rw [begun] at success
    cases success
  | ok started =>
    have same := transact_ok begun
    cases same
    rw [begun] at success
    rcases transact_bind success with ⟨_, detach, success⟩
    rcases transact_bind success with ⟨_, create, success⟩
    rcases transact_bind success with ⟨_, copy, success⟩
    rcases transact_bind success with ⟨_, clear, success⟩
    have attach := statement_ok (transact_ok success)
    apply rearranges_of_adopts daily dated
    apply valid.migrate _ _ detach create copy clear attach
    · exact partitionName_ne_default dated
    · intro other member same
      rcases daily other member with ⟨otherDay, otherDated, rfl⟩
      rw [utcDay_eq_of_partitionName otherDated dated same]

theorem adoptFromDefaultPartition_rearranges
    (dated : Dated day) (network : MigrationStep → Delivery) :
    Rearranges database
      (adoptFromDefaultPartition network (truncateDay day)
        ((truncateDay day).add fullDay) database).1 := by
  rw [adoptFromDefaultPartition]
  cases result : migrate network (truncateDay day)
      ((truncateDay day).add fullDay) database with
  | error fault => exact tidy.rearranges
  | ok migrated =>
    have kept := migrate_rearranges tidy dated result
    cases network .commit with
    | answered | unanswered => exact kept
    | failed error => exact tidy.rearranges

/-! ## Calls -/

theorem create_rearranges (dated : Dated day) (delivery : Delivery) :
    Rearranges database
      (exec delivery
        (statement (Table.create layout (dailyFrame (utcDay day))))
        database).1 := by
  apply exec_keeps delivery tidy.rearranges
  intro after success
  rcases tidy with ⟨partitions, spare, rfl, valid, daily⟩
  apply rearranges_of_adopts daily dated
  apply valid.create _ (statement_ok success)
  exact partitionName_ne_default dated

/-- Creating the partition of a day keeps every row, whatever fails. -/
theorem ensurePartition_rearranges (dated : Dated day) (network : Network) :
    Rearranges database (ensurePartition network day database).1 := by
  have created := create_rearranges tidy dated network.create
  rw [ensurePartition, frameOf_truncateDay dated]
  split
  · rename_i sent
    rw [sent] at created
    exact created
  · rename_i sent
    rw [sent] at created
    split
    · exact created
    · exact created.trans
        (adoptFromDefaultPartition_rearranges created.1 dated _)

theorem ensurePartitions_rearranges
    {networks : Nat → Network} {addDate : Time → Nat → Time} {days : Int}
    (dated : ∀ offset ∈ List.range days.toNat, Dated (addDate first offset)) :
    Rearranges database
      (ensurePartitions networks addDate first days database).1 := by
  rw [ensurePartitions]
  generalize List.range days.toNat = offsets at dated
  induction offsets generalizing database with
  | nil => exact tidy.rearranges
  | cons offset rest induction =>
    have one := ensurePartition_rearranges tidy
      (dated offset mem_cons_self) (networks offset)
    rw [ensureOffsets]
    split
    · rename_i sent
      rw [sent] at one
      exact one
    · rename_i sent
      rw [sent] at one
      exact one.trans (induction one.1 fun other member =>
        dated other (mem_cons_of_mem _ member))

/-- A row is inserted once: not if its key is visible, and otherwise as one
more visible row. -/
theorem insert_tidy (row : Row) :
    if database.visible.any (·.primaryKey = row.primaryKey) then
      database.insert layout row = .ok database else
      ∃ after, database.insert layout row = .ok after ∧ Tidy after ∧
        after.visible.Perm (row :: database.visible) := by
  rcases tidy with ⟨partitions, spare, rfl, valid, daily⟩
  split
  · rename_i present
    rcases any_eq_true.mp present with ⟨other, member, same⟩
    exact valid.insert_present member (of_decide_eq_true same)
  · rename_i absent
    have new : ∀ other ∈ rowsOf partitions spare,
        layout.key other ≠ layout.key row := by
      intro other member same
      exact absent (any_eq_true.mpr ⟨other, member, decide_eq_true same⟩)
    rcases valid.insert_new new with
      ⟨partitions', spare', equal, valid', frames, perm⟩
    refine ⟨_, equal, ⟨partitions', spare', rfl, valid', ?_⟩, perm⟩
    rw [Daily, frames]
    exact daily

/-- An insert keeps every row. -/
theorem applyWindow_keeps (delivery : Delivery) (window : AggregateWindow) :
    Tidy (applyWindow delivery window database).1 ∧ ∀ row ∈ database.visible,
        row ∈ (applyWindow delivery window database).1.visible := by
  apply @exec_keeps _ _ (fun after => Tidy after ∧
    ∀ row ∈ database.visible, row ∈ after.visible) delivery
  · exact ⟨tidy, fun _ member => member⟩
  · intro after success
    rw [insertWindow] at success
    split at success
    · cases success
    · have inserted := insert_tidy tidy (rowOf window)
      rw [statement_ok success] at inserted
      split at inserted
      · cases inserted
        exact ⟨tidy, fun _ member => member⟩
      · rcases inserted with ⟨_, equal, kept, perm⟩
        cases equal
        exact ⟨kept, fun row member =>
          perm.mem_iff.mpr (mem_cons_of_mem _ member)⟩

/-- The archive says of an insert what the partitioned table does. -/
theorem applyWindow_archive
    (window : AggregateWindow) (metrics : Option Metrics) :
    (applyWindow .answered window database).1.visible.Perm
        (Archive.applyWindow window ⟨database.visible, metrics⟩).1.rows ∧
      (applyWindow .answered window database).2 =
        (Archive.applyWindow window ⟨database.visible, metrics⟩).2 := by
  rw [applyWindow, exec, insertWindow, Archive.applyWindow]
  cases refusal window with
  | some fault => exact ⟨Perm.refl _, rfl⟩
  | none =>
    have inserted := insert_tidy tidy (rowOf window)
    dsimp only [statement]
    split at inserted
    · rename_i present
      rw [inserted, if_pos present]
      exact ⟨Perm.refl _, rfl⟩
    · rename_i absent
      rcases inserted with ⟨after, equal, _, perm⟩
      rw [equal, if_neg absent]
      refine ⟨?_, rfl⟩
      exact perm.trans (perm_append_singleton _ _).symm

/-- The partitions that are dropped are those of earlier days. -/
theorem drop_keeps
    (dated : Dated cutoff) {name : String} (other : name ≠ defaultPartition)
    (before : ¬partitionName cutoff ≤ name) :
    KeepsFrom (utcDay cutoff) database (database.drop layout name) := by
  rcases tidy with ⟨partitions, spare, rfl, valid, daily⟩
  rcases valid.drop other with ⟨kept, equal, keptValid, frames, rows⟩
  rw [equal]
  refine ⟨⟨kept, spare, rfl, keptValid, fun frame member =>
    daily frame (frames frame member)⟩, ?_⟩
  intro row member late
  rcases rows row member with stays | ⟨partition, held, named, inside⟩
  · exact stays
  · rcases daily partition.frame (mem_map_of_mem held) with
      ⟨day, dayDated, framed⟩
    have ofDay : row.day = utcDay day := by
      apply (covers_dailyFrame_iff _ _).mp
      rw [← framed]
      exact valid.placed partition held row inside
    have less : partitionName day < partitionName cutoff := by
      rw [← name_dailyFrame, ← framed, named]
      exact not_le.mp before
    have early := utcDay_lt_of_partitionName dayDated dated less
    exact absurd early (not_lt.mpr (ofDay ▸ late))

/-- The loop over the names keeps the rows of the cutoff's day and later. -/
theorem dropNames_keeps (dated : Dated cutoff)
    (network : String → Delivery) (names : List String) (dropped : Nat) :
    KeepsFrom (utcDay cutoff) database
      (dropNames network (partitionName cutoff) names dropped database).1 := by
  induction names generalizing dropped database with
  | nil => exact tidy.keepsFrom _
  | cons name rest induction =>
    rw [dropNames]
    split
    · exact induction tidy dropped
    · rename_i early
      rcases not_or.mp early with ⟨other, before⟩
      have kept : KeepsFrom (utcDay cutoff) database (exec (network name)
          (fun database => .ok (database.drop layout name)) database).1 := by
        apply exec_keeps _ (tidy.keepsFrom _)
        rintro _ ⟨⟩
        exact drop_keeps tidy dated other before
      split
      · rename_i failed
        rw [failed] at kept
        exact kept
      · rename_i done
        rw [done] at kept
        have later := induction kept.1 (dropped + 1)
        exact ⟨later.1, fun row member late =>
          later.2 row (kept.2 row member late) late⟩

theorem dropPartitionsBefore_keeps
    (dated : Dated cutoff) (listing : Listing) (network : String → Delivery) :
    KeepsFrom (utcDay cutoff) database
      (dropPartitionsBefore listing network cutoff database).1 := by
  cases listing with
  | failed | unscanned | interrupted => exact tidy.keepsFrom _
  | listed names => exact dropNames_keeps tidy dated network names 0

end Tidy

end Ironclaw.PostgresStore
