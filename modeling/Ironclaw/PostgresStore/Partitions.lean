import Ironclaw.Lib.Calendar
import Ironclaw.Lib.Partitioned
import Ironclaw.PostgresStore.Store

/-!
# The partitions of the archive

`aggregate_windows` has a partition for each day, named by its date, and one
for everything else.  `EnsurePartition` creates the partition of a day; where
rows of that day already lie in the default partition, it moves them in one
transaction.  `DropPartitionsBefore` drops the partitions whose names are less
than the name of the cutoff's day.

The statements are those of `Lib.Partitioned`.  A statement may also fail, or
be carried out without its answer arriving; a transaction that fails is rolled
back, and only its commit can be lost in this way.
-/

namespace Ironclaw.PostgresStore

open Lib Lib.Partitioned Domain

/-! ## Days -/

/-- The day of an instant in universal time, from the first of January of the
year one. -/
def utcDay (time : Time) : Int :=
  (time.unixSeconds + Calendar.epoch) / 86400

/-- The instants of the years 1 to 9999. -/
def Dated (time : Time) : Prop :=
  1 ≤ (Calendar.dateOf (utcDay time)).year ∧
    (Calendar.dateOf (utcDay time)).year ≤ 9999

instance (time : Time) : Decidable (Dated time) :=
  inferInstanceAs (Decidable (_ ∧ _))

/-- The nanoseconds of 24 hours. -/
def fullDay : Int64 := 86400000000000

/-- `Truncate(24 * time.Hour)`, which counts from the zero time. -/
def truncateDay (time : Time) : Time :=
  ⟨time.nanos - (time.nanos - Time.zero.nanos) % fullDay.toInt⟩

/-- The date as `2006-01-02`. -/
def dateText (day : Time) : String :=
  let date := Calendar.dateOf (utcDay day)
  String.ofList (Calendar.yearText date.year ++
    '-' :: (Text.padded 2 date.month ++ '-' :: Text.padded 2 date.day))

def partitionName (day : Time) : String :=
  "aggregate_windows_" ++ String.ofList
      (Calendar.compactChars (Calendar.dateOf (utcDay day)))

def defaultPartition : String := "aggregate_windows_default"

/-- Rows are partitioned by `window_start`, which the primary key has. -/
def layout : Layout Row PrimaryKey Int where
  key := Row.primaryKey
  position := fun row => row.windowStart.toInt
  spareName := defaultPartition
  determined := fun equal =>
    congrArg (fun key => key.windowStart.toInt) equal

/-- The definition of the partition from one instant to another. -/
def frameOf (start finish : Time) : Frame Int where
  name := partitionName start
  lower := (micros start).toInt
  upper := (micros finish).toInt

/-! ## Statements -/

/-- The table `aggregate_windows`. -/
abbrev Database := Table Row Int

/-- An error of a statement, with its code if the database gave one. -/
structure QueryError where
  code : Option String
  fault : Fault

def checkViolation : String := "23514"

/-- The errors of the statements on partitions. -/
def refused : Refusal → QueryError
  | .checkViolation =>
    ⟨some checkViolation, .sentinel "partition constraint violated"⟩
  | .invalidDefinition =>
    ⟨some "42P17", .sentinel "invalid partition bounds"⟩
  | .undefinedTable => ⟨some "42P01", .sentinel "no such partition"⟩
  | .wrongObjectType => ⟨some "42809", .sentinel "already a partition"⟩

/-- What becomes of a statement that is sent: it is answered; it fails before
it is carried out; or only its answer is lost. -/
inductive Delivery where
  | answered
  | failed (error : QueryError)
  | unanswered (error : QueryError)

/-- A statement that changes the database or is refused. -/
abbrev Statement := Database → Except QueryError Database

def statement
    (change : Database → Except Refusal Database) : Statement :=
  fun database => (change database).mapError refused

/-- Carry out a statement. -/
def exec (delivery : Delivery) (statement : Statement)
    (database : Database) : Database × Option QueryError :=
  match delivery with
  | .failed error => (database, some error)
  | .answered =>
    match statement database with
    | .ok changed => (changed, none)
    | .error error => (database, some error)
  | .unanswered error =>
    match statement database with
    | .ok changed => (changed, some error)
    | .error _ => (database, some error)

/-! ## Inserting -/

/-- The insert of a window, whose values may be refused. -/
def insertWindow (window : AggregateWindow) : Statement := fun database =>
  match refusal window with
  | some fault => .error ⟨none, fault⟩
  | none =>
    statement (Table.insert layout (rowOf window)) database

/-- Insert a window, unless its key is there. -/
def applyWindow
    (delivery : Delivery) (window : AggregateWindow)
    (database : Database) : Database × Option Fault :=
  let (database, error) := exec delivery (insertWindow window) database
  (database, error.map fun error =>
    .wrapped ("postgresstore: inserting window " ++ window.identity)
      error.fault)

/-! ## Creating partitions -/

/-- The statements of a migration. -/
inductive MigrationStep where
  | begin
  | detach
  | create
  | move
  | clear
  | attach
  | commit
deriving DecidableEq

/-- What becomes of the statements of one `EnsurePartition`. -/
structure Network where
  create : Delivery
  migration : MigrationStep → Delivery

/-- A statement of a transaction: an error ends it. -/
def transact (delivery : Delivery) (context : String)
    (statement : Statement) (database : Database) :
    Except Fault Database :=
  match exec delivery statement database with
  | (changed, none) => .ok changed
  | (_, some error) =>
    .error (.wrapped ("postgresstore: " ++ context) error.fault)

/-- The migration up to its commit. -/
def migrate (network : MigrationStep → Delivery) (start finish : Time)
    (database : Database) : Except Fault Database := do
  let frame := frameOf start finish
  let leaving := "migrating rows out of the default partition"
  let database ← transact (network .begin) "starting partition migration"
    .ok database
  let database ← transact (network .detach) leaving
    (statement Table.detach) database
  let database ← transact (network .create) leaving
    (statement (Table.create layout frame)) database
  let database ← transact (network .move)
    "moving rows into the new partition"
    (statement (Table.copy layout frame)) database
  let database ← transact (network .clear) "clearing migrated rows"
    (statement (Table.clear layout frame)) database
  transact (network .attach) "reattaching the default partition"
    (statement (Table.attach layout)) database

/-- Move the rows of a day to a partition of its own. -/
def adoptFromDefaultPartition
    (network : MigrationStep → Delivery) (start finish : Time)
    (database : Database) : Database × Option Fault :=
  match migrate network start finish database with
  -- the deferred rollback
  | .error fault => (database, some fault)
  | .ok migrated =>
    let failure (error : QueryError) : Fault :=
      .wrapped "postgresstore: committing partition migration"
        error.fault
    match network .commit with
    | .answered => (migrated, none)
    | .failed error => (database, some (failure error))
    | .unanswered error => (migrated, some (failure error))

def defaultPartitionBlocked (error : QueryError) : Bool :=
  error.code = some checkViolation

/-- Create the partition of a day. -/
def ensurePartition (network : Network) (day : Time)
    (database : Database) : Database × Option Fault :=
  let start := truncateDay day
  let finish := start.add fullDay
  match exec network.create
      (statement (Table.create layout (frameOf start finish)))
      database with
  | (database, none) => (database, none)
  | (database, some error) =>
    if !defaultPartitionBlocked error then
      (database, some (.wrapped
        ("postgresstore: creating partition for " ++ dateText start)
        error.fault))
    else
      adoptFromDefaultPartition network.migration start finish database

/-- The loop of `EnsurePartitions` over the offsets that are left. -/
def ensureOffsets
    (networks : Nat → Network) (addDate : Time → Nat → Time)
    (first : Time) : List Nat → Database → Database × Option Fault
  | [], database => (database, none)
  | offset :: rest, database =>
    match ensurePartition (networks offset) (addDate first offset)
        database with
    | (database, some fault) => (database, some fault)
    | (database, none) =>
      ensureOffsets networks addDate first rest database

/-- `AddDate` counts days in the location of its time, so it is a parameter. -/
def ensurePartitions
    (networks : Nat → Network) (addDate : Time → Nat → Time)
    (first : Time) (days : Int) (database : Database) :
    Database × Option Fault :=
  ensureOffsets networks addDate first (List.range days.toNat) database

/-! ## Dropping partitions -/

/-- What the query for the names gives. -/
inductive Listing where
  | listed (names : List String)
  | failed (fault : Fault)
  | unscanned (fault : Fault)
  | interrupted (fault : Fault)

/-- The names that are listed are those of the partitions, in any order. -/
def Listing.agrees (listing : Listing) (database : Database) : Bool :=
  match listing with
  | .listed names => names.isPerm (database.children layout)
  | _ => true

/-- The loop over the names, with the number dropped so far. -/
def dropNames (network : String → Delivery) (boundary : String) :
    List String → Nat → Database → Database × Nat × Option Fault
  | [], dropped, database => (database, dropped, none)
  | name :: rest, dropped, database =>
    if name = defaultPartition ∨ boundary ≤ name then
      dropNames network boundary rest dropped database
    else
      match exec (network name)
          (fun database => .ok (database.drop layout name))
          database with
      | (database, some error) =>
        (database, dropped, some (.wrapped
          ("postgresstore: dropping " ++ name) error.fault))
      | (database, none) =>
        dropNames network boundary rest (dropped + 1) database

/-- Drop the partitions named before the day of the cutoff. -/
def dropPartitionsBefore
    (listing : Listing) (network : String → Delivery) (cutoff : Time)
    (database : Database) : Database × Nat × Option Fault :=
  match listing with
  | .failed fault =>
    (database, 0, some (.wrapped "postgresstore: listing partitions" fault))
  | .unscanned fault =>
    (database, 0, some (.wrapped "postgresstore: scanning partition" fault))
  | .interrupted fault => (database, 0, some fault)
  | .listed names =>
    dropNames network (partitionName cutoff) names 0 database

end Ironclaw.PostgresStore
