import Ironclaw.RedisStore.Dedupe
import Ironclaw.Store.Convergence

/-!
# One device in both stores

The row of a device in Redis shows the record of the in-memory store, number
for number.  The two start from different last windows and follow different
rules for the time a device was last seen; for emissions as they are made,
where the end of a window depends on its number, the results are the same.
-/

namespace Ironclaw.RedisStore

open Lib Lib.Redis Domain Store Int64 Backend Prod

/-- Emissions whose numbers and times survive the scripts. -/
structure Fitting (ends : Int64 → Time) (window : AggregateWindow) :
    Prop where
  emitted : Emitted window
  windowID_lt : window.windowID.toInt < 2 ^ 53
  count_lt : window.count.toInt < 2 ^ 53
  windowEnd : window.windowEnd = ends window.windowID
  early : window.windowEnd.unixSeconds < 253402300800

namespace Fitting

variable {ends : Int64 → Time} {window : AggregateWindow}

theorem windowID_exact (fitting : Fitting ends window) :
    0 ≤ window.windowID.toInt ∧ window.windowID.toInt.natAbs < 2 ^ 53 := by
  have nonneg : (0 : Int64).toInt ≤ window.windowID.toInt :=
    le_iff_toInt_le.mp fitting.emitted.windowID_nonneg
  have small := fitting.windowID_lt
  have zero : (0 : Int64).toInt = 0 := rfl
  omega

theorem count_exact (fitting : Fitting ends window) :
    1 ≤ window.count.toInt ∧ window.count.toInt.natAbs < 2 ^ 53 := by
  have positive : (1 : Int64).toInt ≤ window.count.toInt :=
    le_iff_toInt_le.mp fitting.emitted.count_pos
  have small := fitting.count_lt
  have one : (1 : Int64).toInt = 1 := rfl
  omega

/-- The end of a window is read back at whole seconds. -/
theorem parse_lastSeenText (fitting : Fitting ends window) :
    Calendar.parse (Backend.lastSeenText window.windowEnd) =
      some window.windowEnd.unixSeconds := by
  have later : Time.zero.nanos < window.windowEnd.nanos := by
    simpa [Time.after] using fitting.emitted.windowEnd_after
  have nonzero : window.windowEnd.isZero = false := by
    rw [Time.isZero, beq_eq_false_iff_ne]
    intro zero
    rw [zero] at later
    exact absurd later (lt_irrefl _)
  have first : -Calendar.epoch ≤ window.windowEnd.unixSeconds :=
    Time.unixSeconds_mono later.le
  rcases Calendar.year_range first fitting.early with ⟨lower, upper⟩
  rw [lastSeenText, nonzero]
  exact Calendar.parse_format lower upper

theorem lastSeenText_ne (fitting : Fitting ends window) :
    lastSeenText window.windowEnd ≠ "" := by
  intro empty
  have read := fitting.parse_lastSeenText
  rw [empty] at read
  cases read

end Fitting

/-! ## The percentiles of a row -/

section Rank

variable {argv : Argv} {row : Row}

section Last

variable (last : (row.lastWindowID.getD (-1)).natAbs < 2 ^ 53)
include last

theorem rank_of_later
    (incoming : argv.windowID.natAbs < 2 ^ 53) (seen : argv.lastSeen ≠ "")
    (later : row.lastWindowID.getD (-1) < argv.windowID) :
    row.rank argv =
      { row with
        lastWindowID := some argv.windowID
        p95Nanos := some argv.p95Nanos
        p99Nanos := some argv.p99Nanos
        percentileSample := some argv.count
        lastSeen := some argv.lastSeen } := by
  rw [Row.rank, toNumber_eq last, toNumber_eq incoming, if_pos later,
    Row.see, if_pos seen]
  rfl

theorem rank_of_eq (sample : (row.percentileSample.getD 0).natAbs < 2 ^ 53)
    (count : argv.count.natAbs < 2 ^ 53) (seen : argv.lastSeen ≠ "")
    (same : argv.windowID = row.lastWindowID.getD (-1)) :
    row.rank argv =
      { (if row.percentileSample.getD 0 < argv.count then row.sample argv
          else row) with
        lastSeen := some argv.lastSeen } := by
  rw [Row.rank, same, toNumber_eq last, toNumber_eq sample,
    toNumber_eq count, if_neg (lt_irrefl _), if_pos rfl, Row.see,
    if_pos seen]

theorem rank_of_earlier (incoming : argv.windowID.natAbs < 2 ^ 53)
    (earlier : argv.windowID < row.lastWindowID.getD (-1)) :
    row.rank argv = row := by
  rw [Row.rank, toNumber_eq last, toNumber_eq incoming,
    if_neg earlier.not_gt, if_neg earlier.ne]

end Last

end Rank

/-! ## Rows and records -/

/-- A row shows a record. -/
structure Mirrors (ends : Int64 → Time) (row : Row) (record : DeviceRecord) :
    Prop where
  count : row.count = some record.state.count.toInt
  errorCount : row.errorCount = some record.state.errorCount.toInt
  bytes : row.bytes = some record.state.bytes.toInt
  p95Nanos : row.p95Nanos = some record.state.p95Nanos.toInt
  p99Nanos : row.p99Nanos = some record.state.p99Nanos.toInt
  lastWindowID : row.lastWindowID = some record.state.lastWindowID.toInt
  percentileSample : row.percentileSample = some record.percentileSample.toInt
  lastSeen : row.lastSeen = some (Backend.lastSeenText record.state.lastSeen)
  last_small : record.state.lastWindowID.toInt.natAbs < 2 ^ 53
  sample_small : record.percentileSample.toInt.natAbs < 2 ^ 53
  seen : record.state.lastSeen = ends record.state.lastWindowID
  parses : Calendar.parse (Backend.lastSeenText record.state.lastSeen) =
    some record.state.lastSeen.unixSeconds

/-- The sums of both sides do not wrap. -/
structure Unwrapped (window : AggregateWindow) (record : DeviceRecord) :
    Prop where
  count : (record.state.count + window.count).toInt =
    record.state.count.toInt + window.count.toInt
  errorCount : (record.state.errorCount + window.errorCount).toInt =
    record.state.errorCount.toInt + window.errorCount.toInt
  bytes : (record.state.bytes + window.bytes).toInt =
    record.state.bytes.toInt + window.bytes.toInt

theorem counters_merge (record : DeviceRecord) (window : AggregateWindow) :
    (record.merge window).state.count = record.state.count + window.count ∧
      (record.merge window).state.errorCount =
        record.state.errorCount + window.errorCount ∧
      (record.merge window).state.bytes =
        record.state.bytes + window.bytes := by
  have tally := (merge_additive record window).2
  exact ⟨congrArg Tally.count tally, congrArg Tally.errorCount tally,
    congrArg Tally.bytes tally⟩

section Merges

variable {settings : Settings} {ends : Int64 → Time} {visit : Visit}
variable {row : Row} {record : DeviceRecord}

theorem Mirrors.reset (mirrors : Mirrors ends row record) :
    Mirrors ends row.reset record.reset :=
  { mirrors with
    count := rfl
    errorCount := rfl
    bytes := rfl
    p95Nanos := rfl
    p99Nanos := rfl
    percentileSample := rfl
    sample_small := by
      show (0 : Int64).toInt.natAbs < 2 ^ 53
      decide }

/-- The counters after an emission, whatever its window. -/
theorem counters_rank_add
    (count : row.count.getD 0 = record.state.count.toInt)
    (errorCount : row.errorCount.getD 0 = record.state.errorCount.toInt)
    (bytes : row.bytes.getD 0 = record.state.bytes.toInt)
    (unwrapped : Unwrapped visit.2 record) :
    let after := (row.add (visit.argv settings)).rank (visit.argv settings)
    after.count = some (record.merge visit.2).state.count.toInt ∧
      after.errorCount = some (record.merge visit.2).state.errorCount.toInt ∧
      after.bytes = some (record.merge visit.2).state.bytes.toInt := by
  intro after
  rcases Row.counters_rank (visit.argv settings)
    (row.add (visit.argv settings)) with ⟨countRank, errorRank, bytesRank⟩
  rcases counters_merge record visit.2 with
    ⟨countMerge, errorMerge, bytesMerge⟩
  refine ⟨countRank.trans ?_, errorRank.trans ?_, bytesRank.trans ?_⟩
  · rw [countMerge, unwrapped.count, ← count]
    rfl
  · rw [errorMerge, unwrapped.errorCount, ← errorCount]
    rfl
  · rw [bytesMerge, unwrapped.bytes, ← bytes]
    rfl

/-- An emission of a later window, or the first one of a device. -/
theorem mirrors_of_later (count : row.count.getD 0 = record.state.count.toInt)
    (errorCount : row.errorCount.getD 0 = record.state.errorCount.toInt)
    (bytes : row.bytes.getD 0 = record.state.bytes.toInt)
    (fitting : Fitting ends visit.2) (unwrapped : Unwrapped visit.2 record)
    (last : (row.lastWindowID.getD (-1)).natAbs < 2 ^ 53)
    (later : row.lastWindowID.getD (-1) < visit.2.windowID.toInt)
    (merged : (record.merge visit.2).state.lastWindowID = visit.2.windowID ∧
      (record.merge visit.2).state.lastSeen = visit.2.windowEnd ∧
      (record.merge visit.2).percentileSample = visit.2.count ∧
      (record.merge visit.2).state.p95Nanos = visit.2.p95Nanos ∧
      (record.merge visit.2).state.p99Nanos = visit.2.p99Nanos) :
    Mirrors ends ((row.add (visit.argv settings)).rank (visit.argv settings))
      (record.merge visit.2) := by
  rcases @counters_rank_add settings visit row record count errorCount bytes
    unwrapped with ⟨countAfter, errorAfter, bytesAfter⟩
  have ranked := @rank_of_later (visit.argv settings)
    (row.add (visit.argv settings)) last fitting.windowID_exact.2
    fitting.lastSeenText_ne later
  rcases merged with ⟨lastID, lastSeen, sample, p95, p99⟩
  refine ⟨countAfter, errorAfter, bytesAfter, ?_, ?_, ?_, ?_, ?_, ?_, ?_,
    ?_, ?_⟩
  · rw [ranked, p95]
    rfl
  · rw [ranked, p99]
    rfl
  · rw [ranked, lastID]
    rfl
  · rw [ranked, sample]
    rfl
  · rw [ranked, lastSeen]
    rfl
  · rw [lastID]
    exact fitting.windowID_exact.2
  · rw [sample]
    exact fitting.count_exact.2
  · rw [lastSeen, lastID]
    exact fitting.windowEnd
  · rw [lastSeen]
    exact fitting.parse_lastSeenText

/-- An untouched record takes everything from its first emission. -/
theorem merge_untouched {window : AggregateWindow} (emitted : Emitted window)
    (last : record.state.lastWindowID = 0)
    (unsampled : record.percentileSample = 0)
    (unseen : record.state.lastSeen = Time.zero) :
    (record.merge window).state.lastWindowID = window.windowID ∧
      (record.merge window).state.lastSeen = window.windowEnd ∧
      (record.merge window).percentileSample = window.count ∧
      (record.merge window).state.p95Nanos = window.p95Nanos ∧
      (record.merge window).state.p99Nanos = window.p99Nanos := by
  by_cases later : record.state.lastWindowID < window.windowID
  · rw [merge_of_later later]
    exact ⟨rfl, rfl, rfl, rfl, rfl⟩
  · have same : window.windowID = record.state.lastWindowID :=
      Int64.le_antisymm (Int64.not_lt.mp later)
        (last ▸ emitted.windowID_nonneg)
    have larger : record.percentileSample < window.count := by
      rw [unsampled]
      exact Int64.lt_of_lt_of_le (by decide) emitted.count_pos
    rcases merge_of_eq same with ⟨lastID, lastSeen, sample⟩
    rw [if_pos larger] at sample
    rw [unseen, if_pos emitted.windowEnd_after] at lastSeen
    simp only [Prod.mk.injEq] at sample
    exact ⟨lastID.trans same.symm, lastSeen, sample⟩

/-- The first emission of a device: `-1` and `0` make no difference. -/
theorem mirrors_fresh (fitting : Fitting ends visit.2) : Mirrors ends
      ((Row.empty.add (visit.argv settings)).rank (visit.argv settings))
      ((DeviceRecord.fresh visit.2.key.userID
        visit.2.key.deviceID).merge visit.2) := by
  have unwrapped : Unwrapped visit.2 (DeviceRecord.fresh
      visit.2.key.userID visit.2.key.deviceID) := by
    refine ⟨?_, ?_, ?_⟩
    · show (0 + visit.2.count).toInt = 0 + visit.2.count.toInt
      rw [zero_add, Int.zero_add]
    · show (0 + visit.2.errorCount).toInt = 0 + visit.2.errorCount.toInt
      rw [zero_add, Int.zero_add]
    · show (0 + visit.2.bytes).toInt = 0 + visit.2.bytes.toInt
      rw [zero_add, Int.zero_add]
  have nonneg := fitting.windowID_exact.1
  apply mirrors_of_later rfl rfl rfl fitting unwrapped (by decide)
  · show -1 < visit.2.windowID.toInt
    omega
  · exact merge_untouched fitting.emitted rfl rfl rfl

theorem Mirrors.numbers (mirrors : Mirrors ends row record) :
    row.count.getD 0 = record.state.count.toInt ∧
      row.errorCount.getD 0 = record.state.errorCount.toInt ∧
      row.bytes.getD 0 = record.state.bytes.toInt ∧
      row.lastWindowID.getD (-1) = record.state.lastWindowID.toInt ∧
      row.percentileSample.getD 0 = record.percentileSample.toInt := by
  rw [mirrors.count, mirrors.errorCount, mirrors.bytes,
    mirrors.lastWindowID, mirrors.percentileSample]
  exact ⟨rfl, rfl, rfl, rfl, rfl⟩

section Mirrors

variable (mirrors : Mirrors ends row record) (fitting : Fitting ends visit.2)
variable (unwrapped : Unwrapped visit.2 record)
include mirrors fitting unwrapped

/-- An emission of an earlier window only counts. -/
theorem Mirrors.merge_earlier
    (earlier : visit.2.windowID < record.state.lastWindowID) :
    Mirrors ends ((row.add (visit.argv settings)).rank (visit.argv settings))
      (record.merge visit.2) := by
  rcases mirrors.numbers with ⟨count, errorCount, bytes, last, _⟩
  rcases @counters_rank_add settings visit row record count errorCount bytes
    unwrapped with ⟨countAfter, errorAfter, bytesAfter⟩
  have small := mirrors.last_small
  have before := lt_iff_toInt_lt.mp earlier
  rw [← last] at small before
  have ranked := @rank_of_earlier (visit.argv settings)
    (row.add (visit.argv settings)) small fitting.windowID_exact.2 before
  rw [ranked, merge_of_earlier earlier] at countAfter errorAfter bytesAfter ⊢
  exact { mirrors with
    count := countAfter
    errorCount := errorAfter
    bytes := bytesAfter }

/-- An emission of the last window may bring a larger sample. -/
theorem Mirrors.merge_same
    (same : visit.2.windowID = record.state.lastWindowID) :
    Mirrors ends ((row.add (visit.argv settings)).rank (visit.argv settings))
      (record.merge visit.2) := by
  rcases mirrors.numbers with ⟨count, errorCount, bytes, last, sample⟩
  rcases @counters_rank_add settings visit row record count errorCount bytes
    unwrapped with ⟨countAfter, errorAfter, bytesAfter⟩
  have smallLast := mirrors.last_small
  have smallSample := mirrors.sample_small
  rw [← last] at smallLast
  rw [← sample] at smallSample
  have ranked := @rank_of_eq (visit.argv settings)
    (row.add (visit.argv settings)) smallLast smallSample
    fitting.count_exact.2 fitting.lastSeenText_ne
    ((congrArg toInt same).trans last.symm)
  rcases merge_of_eq same with ⟨lastID, lastSeen, sampled⟩
  -- The end of the window depends on its number, so it is the one stored.
  have equal : visit.2.windowEnd = record.state.lastSeen := by
    rw [fitting.windowEnd, mirrors.seen, same]
  have seen : (record.merge visit.2).state.lastSeen =
      record.state.lastSeen := by
    rw [lastSeen, equal, ite_self]
  have larger : (row.add (visit.argv settings)).percentileSample.getD 0 <
      (visit.argv settings).count ↔
        record.percentileSample < visit.2.count := by
    rw [lt_iff_toInt_lt, ← sample]
    rfl
  have rows : row.lastWindowID = some visit.2.windowID.toInt := by
    rw [same]
    exact mirrors.lastWindowID
  generalize (row.add (visit.argv settings)).rank (visit.argv settings) =
    after at ranked countAfter errorAfter bytesAfter ⊢
  generalize record.merge visit.2 = next at *
  have shown : after.p95Nanos = some next.state.p95Nanos.toInt ∧
      after.p99Nanos = some next.state.p99Nanos.toInt ∧
      after.lastWindowID = some visit.2.windowID.toInt ∧
      after.percentileSample = some next.percentileSample.toInt ∧
      next.percentileSample.toInt.natAbs < 2 ^ 53 := by
    by_cases grows : record.percentileSample < visit.2.count
    · rw [if_pos grows, Prod.mk.injEq, Prod.mk.injEq] at sampled
      rw [ranked, if_pos (larger.mpr grows), sampled.1, sampled.2.1,
        sampled.2.2]
      exact ⟨rfl, rfl, rows, rfl, fitting.count_exact.2⟩
    · rw [if_neg grows, Prod.mk.injEq, Prod.mk.injEq] at sampled
      rw [ranked, if_neg fun more => grows (larger.mp more), sampled.1,
        sampled.2.1, sampled.2.2]
      exact ⟨mirrors.p95Nanos, mirrors.p99Nanos, rows,
        mirrors.percentileSample, mirrors.sample_small⟩
  rcases shown with ⟨p95, p99, window, sampleAfter, small⟩
  refine ⟨countAfter, errorAfter, bytesAfter, p95, p99, ?_, sampleAfter, ?_,
    ?_, small, ?_, ?_⟩
  · rw [lastID, ← same]
    exact window
  · rw [ranked, seen, ← equal]
    rfl
  · rw [lastID]
    exact mirrors.last_small
  · rw [seen, lastID]
    exact mirrors.seen
  · rw [seen]
    exact mirrors.parses

/-- An emission that is new to both changes both in the same way. -/
theorem Mirrors.merge : Mirrors ends
      ((row.add (visit.argv settings)).rank (visit.argv settings))
      (record.merge visit.2) := by
  by_cases later : record.state.lastWindowID < visit.2.windowID
  · rcases mirrors.numbers with ⟨count, errorCount, bytes, last, _⟩
    apply mirrors_of_later count errorCount bytes fitting unwrapped
    · rw [last]
      exact mirrors.last_small
    · rw [last]
      exact lt_iff_toInt_lt.mp later
    · rw [merge_of_later later]
      exact ⟨rfl, rfl, rfl, rfl, rfl⟩
  · by_cases same : visit.2.windowID = record.state.lastWindowID
    · exact mirrors.merge_same fitting unwrapped same
    · exact mirrors.merge_earlier fitting unwrapped
        (Int64.lt_of_le_of_ne (Int64.not_lt.mp later) same)

end Mirrors

end Merges

/-! ## Reading a device -/

/-- A state whose last sighting is cut to whole seconds. -/
def wholeSeconds (state : DeviceState) : DeviceState :=
  { state with lastSeen := ⟨1000000000 * state.lastSeen.unixSeconds⟩ }

theorem parseInt_numberText (number : Int64) :
    parseInt (some (numberText number.toInt)) = number := by
  have lower := le_toInt number
  have upper := toInt_lt number
  have fits : inRange number.toInt = true := by
    rw [inRange, decide_eq_true_eq]
    omega
  rw [parseInt, Option.getD_some, readInt_numberText]
  simp only [fits, if_true, ofInt_toInt]

theorem stateOf_of_mirrors
    {ends : Int64 → Time} {fields : GoMap String String} {row : Row}
    {record : DeviceRecord} (shown : Shows fields row)
    (mirrors : Mirrors ends row record) {userID deviceID : String}
    (label : record.label = (userID, deviceID, false)) :
    stateOf userID deviceID fields = wholeSeconds record.state := by
  rcases mk.inj label with ⟨rfl, rest⟩
  rcases mk.inj rest with ⟨rfl, fresh⟩
  rw [stateOf, shown.count, shown.errorCount, shown.bytes,
    shown.p95Nanos, shown.p99Nanos, shown.lastWindowID, shown.lastSeen,
    mirrors.count, mirrors.errorCount, mirrors.bytes, mirrors.p95Nanos,
    mirrors.p99Nanos, mirrors.lastWindowID, mirrors.lastSeen]
  simp only [Option.map_some, parseInt_numberText, parseTime,
    Option.getD_some, mirrors.parses, wholeSeconds, fresh]

end Ironclaw.RedisStore
