import Ironclaw.Domain.Key
import Ironclaw.Lib.GoMap
import Ironclaw.Lib.Word

/-!
# Tallies and metrics

The three additive counters of the pipeline, as one value: events, failed
events and bytes, each modulo `2^64`.  An event, a window and the state of a
device all have a tally, and every conservation result is an equation between
sums of tallies.

The named counters that components report are a map from names to such
wrapping counters, where an absent name reads as zero.
-/

namespace Ironclaw.Domain

open Lib

/-- Events, failed events and bytes. -/
@[ext]
structure Tally where
  count : Int64
  errorCount : Int64
  bytes : Int64
deriving DecidableEq, Repr

namespace Tally

instance : Zero Tally := ⟨⟨0, 0, 0⟩⟩

instance : Add Tally where
  add left right :=
    ⟨left.count + right.count, left.errorCount + right.errorCount,
      left.bytes + right.bytes⟩

@[simp] theorem zero_count : (0 : Tally).count = 0 := rfl
@[simp] theorem zero_errorCount : (0 : Tally).errorCount = 0 := rfl
@[simp] theorem zero_bytes : (0 : Tally).bytes = 0 := rfl

@[simp]
theorem add_count (left right : Tally) :
    (left + right).count = left.count + right.count := rfl

@[simp]
theorem add_errorCount (left right : Tally) :
    (left + right).errorCount = left.errorCount + right.errorCount := rfl

@[simp]
theorem add_bytes (left right : Tally) :
    (left + right).bytes = left.bytes + right.bytes := rfl

instance : AddCommMonoid Tally where
  add_assoc first second third := by
    ext1 <;> simp [add_assoc]
  zero_add tally := by
    ext1 <;> simp
  add_zero tally := by
    ext1 <;> simp
  add_comm left right := by
    ext1 <;> simp [add_comm]
  nsmul := nsmulRec

theorem sum_count (tallies : List Tally) :
    tallies.sum.count = (tallies.map Tally.count).sum := by
  induction tallies with
  | nil => rfl
  | cons head tail induction => simp [induction]

theorem sum_errorCount (tallies : List Tally) :
    tallies.sum.errorCount = (tallies.map Tally.errorCount).sum := by
  induction tallies with
  | nil => rfl
  | cons head tail induction => simp [induction]

theorem sum_bytes (tallies : List Tally) :
    tallies.sum.bytes = (tallies.map Tally.bytes).sum := by
  induction tallies with
  | nil => rfl
  | cons head tail induction => simp [induction]

end Tally

/-- What one event adds to every counter it reaches. -/
def Event.tally (event : Event) : Tally where
  count := 1
  errorCount := if event.failed then 1 else 0
  bytes := event.bytes

/-- What one emission adds to the state of its device. -/
def AggregateWindow.tally (window : AggregateWindow) : Tally where
  count := window.count
  errorCount := window.errorCount
  bytes := window.bytes

def DeviceState.tally (state : DeviceState) : Tally where
  count := state.count
  errorCount := state.errorCount
  bytes := state.bytes

theorem DeviceState.counters_of_tally
    {state : DeviceState} {windows : List AggregateWindow}
    (tally : state.tally = (windows.map AggregateWindow.tally).sum) :
    state.count = (windows.map AggregateWindow.count).sum ∧
      state.errorCount = (windows.map AggregateWindow.errorCount).sum ∧
        state.bytes = (windows.map AggregateWindow.bytes).sum := by
  have count := congrArg Tally.count tally
  have errorCount := congrArg Tally.errorCount tally
  have bytes := congrArg Tally.bytes tally
  rw [Tally.sum_count, List.map_map] at count
  rw [Tally.sum_errorCount, List.map_map] at errorCount
  rw [Tally.sum_bytes, List.map_map] at bytes
  exact ⟨count, errorCount, bytes⟩

theorem sum_tally_count
    {Item : Type} (event : Item → Event) (items : List Item) :
    (items.map fun item => (event item).tally).sum.count =
      Int64.ofNat items.length := by
  induction items with
  | nil => rfl
  | cons head tail induction =>
    rw [List.map_cons, List.sum_cons, Tally.add_count, induction,
      List.length_cons, Word.ofNat_succ]
    exact Int64.add_comm 1 _

/-- The error counter of a list of events is the number of failed ones. -/
theorem sum_tally_errorCount
    {Item : Type} (event : Item → Event) (items : List Item) :
    (items.map fun item => (event item).tally).sum.errorCount =
      Int64.ofNat (items.countP fun item => (event item).failed) := by
  induction items with
  | nil => rfl
  | cons head tail induction =>
    rw [List.map_cons, List.sum_cons, Tally.add_errorCount, induction,
      List.countP_cons]
    by_cases failed : (event head).failed = true
    · simp only [Event.tally, failed, if_true, Word.ofNat_succ]
      exact Int64.add_comm 1 _
    · simp [Event.tally, failed]

/-! ## Named counters -/

abbrev Metrics := GoMap String Int64

namespace Metrics

def value (metrics : Metrics) (name : String) : Int64 :=
  (metrics.lookup name).getD 0

def increment (metrics : Metrics) (name : String) (delta : Int64) : Metrics :=
  metrics.insert name (metrics.value name + delta)

@[simp]
theorem value_increment_self
    (metrics : Metrics) (name : String) (delta : Int64) :
    (metrics.increment name delta).value name =
      metrics.value name + delta := by
  simp [value, increment]

theorem value_increment_of_ne
    (metrics : Metrics) {name other : String} (delta : Int64)
    (different : other ≠ name) :
    (metrics.increment name delta).value other = metrics.value other := by
  simp [value, increment, AList.lookup_insert_ne different]

end Metrics

/-- A recorder of metrics that may be absent. -/
abbrev Recorder := Option Metrics

def Recorder.record
    (name : String) (delta : Int64) (recorder : Recorder) : Recorder :=
  recorder.map fun metrics => Metrics.increment metrics name delta

end Ironclaw.Domain
