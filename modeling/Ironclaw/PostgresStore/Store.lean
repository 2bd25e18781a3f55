import Ironclaw.Domain.Tally
import Ironclaw.Lib.Champion

/-!
# The Postgres archive

One row for each emission, named by its primary key: an emission that the
table has is inserted once.  The state of a device is aggregated over its rows
when it is read.

The order in which a query meets the rows is not specified.  It is a
parameter, and so is the choice among rows that an `ORDER BY` does not
distinguish.
-/

namespace Ironclaw.PostgresStore

open Lib Domain

def errDeviceNotFound : Fault :=
  .wrapped "postgresstore" Domain.errDeviceNotFound

/-- A text with a zero byte is refused. -/
def errInvalidText : Fault :=
  .sentinel "invalid byte sequence for encoding \"UTF8\": 0x00"

def errTimestampRange : Fault := .sentinel "timestamp out of range"

/-- A sum that has more than 64 bits cannot be scanned. -/
def errScanRange : Fault :=
  .sentinel "can't scan into dest: value out of range for int64"

def metricWindowsPersisted : String := "postgres_windows_persisted"
def metricWindowsDuplicate : String := "postgres_windows_duplicate"

/-! ## Rows -/

/-- The microseconds between 1970 and 2000. -/
def postgresEpoch : Int64 := 946684800000000

/-- A time as it is sent: whole microseconds since the year 2000. -/
def micros (time : Time) : Int64 :=
  Int64.ofInt (time.nanos / 1000) - postgresEpoch

/-- The timestamps that the database has. -/
def inTimestampRange (micros : Int64) : Bool :=
  -211813488000000000 ≤ micros ∧ micros < 9223371331200000000

/-- The time that a timestamp is scanned as. -/
def scanTime (micros : Int64) : Time :=
  ⟨1000 * (micros.toInt + postgresEpoch.toInt)⟩

/-- The columns that a query reads. -/
structure Row where
  userID : String
  deviceID : String
  processID : Int32
  podID : String
  windowID : Int64
  sequence : Int64
  windowStart : Int64
  windowEnd : Int64
  eventCount : Int64
  errorCount : Int64
  byteCount : Int64
  p95Nanos : Int64
  p99Nanos : Int64
  maxNanos : Int64
deriving DecidableEq

structure PrimaryKey where
  userID : String
  deviceID : String
  processID : Int32
  podID : String
  windowID : Int64
  sequence : Int64
  windowStart : Int64
deriving DecidableEq

def Row.primaryKey (row : Row) : PrimaryKey where
  userID := row.userID
  deviceID := row.deviceID
  processID := row.processID
  podID := row.podID
  windowID := row.windowID
  sequence := row.sequence
  windowStart := row.windowStart

def rowOf (window : AggregateWindow) : Row where
  userID := window.key.userID
  deviceID := window.key.deviceID
  processID := window.key.processID
  podID := window.key.podID
  windowID := window.windowID
  sequence := window.sequence
  windowStart := micros window.windowStart
  windowEnd := micros window.windowEnd
  eventCount := window.count
  errorCount := window.errorCount
  byteCount := window.bytes
  p95Nanos := window.p95Nanos
  p99Nanos := window.p99Nanos
  maxNanos := window.maxNanos

/-- Whether the database takes these texts. -/
def storableTexts (texts : List String) : Bool :=
  ∀ text ∈ texts, '\x00' ∉ text.toList

/-- Why the database refuses the values of an insert. -/
def refusal (window : AggregateWindow) : Option Fault :=
  if !storableTexts [window.key.userID, window.key.deviceID,
      window.key.podID] then some errInvalidText
  else if inTimestampRange (micros window.windowStart) ∧
      inTimestampRange (micros window.windowEnd) then none
  else some errTimestampRange

/-! ## The store -/

/-- The table, and the recorder if there is one. -/
structure Archive where
  rows : List Row
  metrics : Option Metrics

/-- The order in which a query meets the rows of the table. -/
structure Plan where
  order : List Row → List Row
  perm : ∀ rows, (order rows).Perm rows

namespace Archive

def new : Archive := ⟨[], none⟩

def record (name : String) (delta : Int64) (archive : Archive) : Archive :=
  { archive with
    metrics := archive.metrics.map fun metrics =>
      metrics.increment name delta }

/-- `INSERT … ON CONFLICT DO NOTHING`. -/
def applyWindow (window : AggregateWindow) (archive : Archive) :
    Archive × Option Fault :=
  match refusal window with
  | some fault =>
    (archive, some (.wrapped
      ("postgresstore: inserting window " ++ window.identity) fault))
  | none =>
    let row := rowOf window
    if archive.rows.any (·.primaryKey = row.primaryKey) then
      (archive.record metricWindowsDuplicate 1, none)
    else
      ({ archive with rows := archive.rows ++ [row] }.record
        metricWindowsPersisted 1, none)

section Queries

variable (plan : Plan) (userID deviceID : String)

/-- The rows of a device, in the order of the plan. -/
def rowsOf (archive : Archive) : List Row :=
  (plan.order archive.rows).filter fun row =>
    row.userID = userID ∧ row.deviceID = deviceID

/-- `SUM`, as a number of any size. -/
def sum (column : Row → Int64) (rows : List Row) : Int :=
  (rows.map fun row => (column row).toInt).sum

/-- Scan a number into an `int64`. -/
def scan (number : Int) : Except Fault Int64 :=
  if -9223372036854775808 ≤ number ∧ number ≤ 9223372036854775807 then
    .ok (Int64.ofInt number)
  else .error errScanRange

/-- `COALESCE(MAX(window_id), 0)`. -/
def maxWindowID (rows : List Row) : Int64 :=
  ((firstBest (fun row => row.windowID.toInt) rows).map Row.windowID).getD 0

/-- `ORDER BY event_count DESC, sequence DESC LIMIT 1`. -/
def latestPercentiles (windowID : Int64) (rows : List Row) : Option Row :=
  firstBest
    (fun row => toLex (row.eventCount.toInt, row.sequence.toInt))
    (rows.filter fun row => row.windowID = windowID)

/-- The last sighting that is reported: one after the epoch. -/
def seenAt (lastSeen : Time) : Time :=
  if !lastSeen.isZero ∧ 0 < lastSeen.unixSeconds then lastSeen
  else Time.zero

/-- The state of a device with these sums. -/
def stateOf (count errorCount bytes : Int64) (rows : List Row) :
    DeviceState :=
  let latest := latestPercentiles (maxWindowID rows) rows
  { userID := userID
    deviceID := deviceID
    count := count
    errorCount := errorCount
    bytes := bytes
    p95Nanos := (latest.map Row.p95Nanos).getD 0
    p99Nanos := (latest.map Row.p99Nanos).getD 0
    lastWindowID := maxWindowID rows
    lastSeen := (latest.map fun row =>
      seenAt (scanTime row.windowEnd)).getD Time.zero
    stale := false }

/-- What `QueryRow` and `Scan` make of the sums, or their error. -/
def sums (archive : Archive) : Except Fault (Int64 × Int64 × Int64) :=
  let rows := archive.rowsOf plan userID deviceID
  if storableTexts [userID, deviceID] then do
    let count ← scan (sum Row.eventCount rows)
    let errorCount ← scan (sum Row.errorCount rows)
    let bytes ← scan (sum Row.byteCount rows)
    pure (count, errorCount, bytes)
  else .error errInvalidText

def deviceState (archive : Archive) : Except Fault DeviceState :=
  let rows := archive.rowsOf plan userID deviceID
  match archive.sums plan userID deviceID with
  | .ok (count, errorCount, bytes) =>
    if count = 0 ∧ maxWindowID rows = 0 ∧ rows = [] then
      .error errDeviceNotFound
    else .ok (stateOf userID deviceID count errorCount bytes rows)
  | .error fault =>
    .error (.wrapped "postgresstore: reading device state" fault)

end Queries

/-- A new archive after some emissions. -/
def replay (windows : List AggregateWindow) : Archive :=
  windows.foldl (fun archive window => (archive.applyWindow window).1) new

theorem replay_concat
    (windows : List AggregateWindow) (window : AggregateWindow) :
    replay (windows ++ [window]) =
      ((replay windows).applyWindow window).1 := by
  rw [replay, List.foldl_append]
  rfl

end Archive

end Ironclaw.PostgresStore
