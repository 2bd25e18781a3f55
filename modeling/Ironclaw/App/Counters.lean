import Ironclaw.Aggregate.Conservation
import Ironclaw.Store.History
import Mathlib.Algebra.Order.BigOperators.Group.List

/-!
# Counters that do not run backwards

Events are ingested, windows emitted, and the emissions applied to the hot
store in any order.  The counters of a window and of a device are 64-bit sums,
and validation bounds the bytes of an event only from below.  As long as the
events of each device and their bytes fit 64 bits, every counter is the exact
sum over the events it stands for: no counter is negative, no more events
failed than were counted, and applying an emission never takes a counter back.
-/

namespace Ironclaw.App

open Lib Domain Aggregate Store List

variable {Sketch World : Type}

/-! ## Counters of some events -/

/-- No counter is negative, and no more events failed than were counted. -/
structure Credible (tally : Tally) : Prop where
  failures_nonneg : 0 ≤ tally.errorCount.toInt
  failures_le : tally.errorCount.toInt ≤ tally.count.toInt
  bytes_nonneg : 0 ≤ tally.bytes.toInt

/-- No counter of the first is above its counterpart of the second. -/
structure Within (before after : Tally) : Prop where
  count : before.count.toInt ≤ after.count.toInt
  errorCount : before.errorCount.toInt ≤ after.errorCount.toInt
  bytes : before.bytes.toInt ≤ after.bytes.toInt

theorem Within.refl (tally : Tally) : Within tally tally :=
  ⟨le_refl _, le_refl _, le_refl _⟩

theorem Credible.count_nonneg {tally : Tally} (credible : Credible tally) :
    0 ≤ tally.count.toInt :=
  le_trans credible.failures_nonneg credible.failures_le

theorem Credible.within_add
    {before more : Tally} (first : Credible before) (second : Credible more)
    (sum : Credible (before + more)) : Within before (before + more) where
  count := Word.le_add_of_nonneg first.count_nonneg second.count_nonneg
    sum.count_nonneg
  errorCount := Word.le_add_of_nonneg first.failures_nonneg
    second.failures_nonneg sum.failures_nonneg
  bytes := Word.le_add_of_nonneg first.bytes_nonneg second.bytes_nonneg
    sum.bytes_nonneg

/-- The bytes of some events, without wrapping. -/
def bytesOf (events : List Event) : Int :=
  (events.map fun event => event.bytes.toInt).sum

theorem bytes_nonneg_of_validate
    {event : Event} (valid : event.validate = none) :
    0 ≤ event.bytes.toInt := by
  by_contra negative
  have below : event.bytes < 0 :=
    Int64.lt_iff_toInt_lt.mpr (Int.not_le.mp negative)
  simp only [Event.validate, below, if_true] at valid
  split_ifs at valid

theorem bytesOf_nonneg
    {events : List Event} (valid : ∀ event ∈ events, event.validate = none) :
    0 ≤ bytesOf events := by
  apply sum_nonneg
  intro amount member
  rcases mem_map.mp member with ⟨event, listed, rfl⟩
  exact bytes_nonneg_of_validate (valid event listed)

theorem bytesOf_le_of_subperm
    {some all : List Event} (part : some.Subperm all)
    (valid : ∀ event ∈ all, event.validate = none) :
    bytesOf some ≤ bytesOf all := by
  rcases part with ⟨middle, same, sublist⟩
  have equal : bytesOf some = bytesOf middle := (same.symm.map _).sum_eq
  rw [equal]
  apply (sublist.map _).sum_le_sum
  intro amount member
  rcases mem_map.mp member with ⟨event, listed, rfl⟩
  exact bytes_nonneg_of_validate (valid event listed)

/-- Valid events that fit 64 bits have credible counters. -/
theorem credible_tallyOf
    {events : List Event} (valid : ∀ event ∈ events, event.validate = none)
    (amount : events.length < 2 ^ 63)
    (size : bytesOf events ≤ 9223372036854775807) :
    Credible (tallyOf id events) := by
  have failures : (events.countP fun event => event.failed) ≤
      events.length := countP_le_length
  have count : (tallyOf id events).count.toInt = events.length := by
    rw [tallyOf, sum_tally_count, Int64.toInt_ofNat_of_lt amount]
  have errorCount : (tallyOf id events).errorCount.toInt =
      (events.countP fun event => event.failed : Nat) := by
    rw [tallyOf, sum_tally_errorCount]
    exact Int64.toInt_ofNat_of_lt (lt_of_le_of_lt failures amount)
  have bytes : (tallyOf id events).bytes.toInt = bytesOf events := by
    rw [tallyOf, Tally.sum_bytes, map_map]
    apply Word.toInt_sum_map
    · exact le_trans (by decide) (bytesOf_nonneg valid)
    · exact size
  constructor
  · rw [errorCount]
    exact Int.natCast_nonneg _
  · rw [errorCount, count]
    exact Int.ofNat_le.mpr failures
  · rw [bytes]
    exact bytesOf_nonneg valid

/-! ## The events of a device -/

/-- The events that are counted for a device key. -/
def eventsAt (key : String) (events : List Event) : List Event :=
  events.filter fun event => deviceKey event.userID event.deviceID = key

/-- The events of every device fit 64 bits, and so do their bytes. -/
def Fits (events : List Event) : Prop :=
  ∀ key, (eventsAt key events).length < 2 ^ 63 ∧
    bytesOf (eventsAt key events) ≤ 9223372036854775807

/-- Distinct emissions of one device have a credible sum. -/
theorem credible_sum {seed : Int64} {aggregator : Aggregator Sketch World}
    {ledger : Ledger Event} (tracks : Tracks id seed aggregator ledger)
    (valid : ∀ event ∈ ledger.accepted, event.validate = none)
    (fits : Fits ledger.accepted) {key : String}
    {windows : List AggregateWindow} (distinct : windows.Nodup)
    (emitted : windows ⊆ ledger.windows)
    (device : ∀ window ∈ windows, keyOf window = key) :
    Credible (windows.map AggregateWindow.tally).sum := by
  rcases tracks.exists_counted windows distinct emitted with
    ⟨events, accepted, keyed, tally⟩
  have mine : eventsAt key events = events := by
    rw [eventsAt, filter_eq_self]
    intro event member
    rcases keyed event member with ⟨window, listed, same⟩
    rw [decide_eq_true_eq, ← device window listed, keyOf, ← same]
    rfl
  have part : events.Subperm (eventsAt key ledger.accepted) := by
    rw [← mine]
    exact accepted.filter _
  have validAt : ∀ event ∈ eventsAt key ledger.accepted,
      event.validate = none :=
    fun event member => valid event (mem_filter.mp member).1
  rw [tally]
  apply credible_tallyOf
  · intro event member
    exact validAt event (part.subset member)
  · exact lt_of_le_of_lt part.length_le (fits key).1
  · exact le_trans (bytesOf_le_of_subperm part validAt) (fits key).2

/-! ## The machine -/

/-- A book, a store, and the emissions applied to it with a live context. -/
structure Line (Sketch World : Type) where
  book : Book Sketch World
  memory : Memory
  delivered : List AggregateWindow

/-- A call of the aggregator, or one of the store. -/
inductive LineStep where
  | call (call : Aggregate.Call)
  | apply (context : Option Fault) (window : AggregateWindow)

namespace Line

def step (ops : SketchOps Sketch World) (line : Line Sketch World) :
    LineStep → Option (Line Sketch World)
  | .call call =>
    (line.book.step ops call).map fun book => { line with book := book }
  | .apply context window =>
    if window ∈ line.book.ledger.windows then
      some { line with
        memory := (line.memory.applyWindow context window).1
        delivered :=
          if context.isNone then line.delivered ++ [window]
          else line.delivered }
    else none

end Line

def lineMachine (ops : SketchOps Sketch World) :
    Machine (Line Sketch World) LineStep where
  initial line :=
    (bookMachine ops).initial line.book ∧ line.memory = Memory.new ∧
      line.delivered = []
  step := Line.step ops

/-- The store replays the delivered emissions, and all events are valid. -/
structure Line.Sound
    (ops : SketchOps Sketch World) (line : Line Sketch World) : Prop where
  book : (bookMachine ops).Reachable line.book
  valid : ∀ event ∈ line.book.ledger.accepted, event.validate = none
  memory :
    line.memory = Memory.replay (line.delivered.map Store.Call.applyWindow)
  delivered : line.delivered ⊆ line.book.ledger.windows

namespace Line.Sound

variable {ops : SketchOps Sketch World} {line next : Line Sketch World}
variable {window : AggregateWindow}

theorem call (sound : line.Sound ops) {call : Aggregate.Call}
    {book : Book Sketch World} (step : line.book.step ops call = some book) :
    Line.Sound ops { line with book := book } := by
  have grows := Book.grows_step step
  constructor
  · exact sound.book.next step
  · intro event member
    rcases grows.accepted with ⟨events, more, valid⟩
    have listed : event ∈ line.book.ledger.accepted ++ events := by
      rw [← more]
      exact member
    rcases mem_append.mp listed with earlier | added
    · exact sound.valid event earlier
    · exact valid event added
  · exact sound.memory
  · intro window member
    have known := sound.delivered member
    rcases grows.windows with same | ⟨included, more⟩
    · rw [same]
      exact known
    · rw [more]
      exact mem_append_left _ known

theorem apply (sound : line.Sound ops) (context : Option Fault)
    (emitted : window ∈ line.book.ledger.windows) :
    Line.Sound ops
      { line with
        memory := (line.memory.applyWindow context window).1
        delivered := if context.isNone then line.delivered ++ [window]
          else line.delivered } := by
  cases context with
  | some fault => exact ⟨sound.book, sound.valid, sound.memory,
      sound.delivered⟩
  | none =>
    refine ⟨sound.book, sound.valid, ?_, ?_⟩
    · show (line.memory.applyWindow none window).1 =
        Memory.replay ((line.delivered ++ [window]).map _)
      rw [map_append, map_singleton, Memory.replay_concat, ← sound.memory]
      rfl
    · exact forall_mem_concat (fun _ earlier => sound.delivered earlier)
        emitted

theorem of_reachable (reachable : (lineMachine ops).Reachable line) :
    line.Sound ops := by
  apply reachable.invariant
  · rintro state ⟨initial, memory, delivered⟩
    have none : state.book.ledger.accepted = [] := by
      rcases initial with ⟨raw, now, world, built, ledger, _⟩
      rw [ledger]
      rfl
    constructor
    · exact Machine.Reachable.start initial
    · intro event member
      rw [none] at member
      cases member
    · rw [memory, delivered]
      rfl
    · rw [delivered]
      exact nil_subset _
  · intro before step after _ sound stepped
    cases step with
    | call call =>
      rcases Option.map_eq_some_iff.mp stepped with ⟨book, ran, rfl⟩
      exact sound.call ran
    | apply context window =>
      simp only [lineMachine, Line.step] at stepped
      split at stepped
      · rename_i emitted
        cases stepped
        exact sound.apply context emitted
      · cases stepped

section Sound

variable (sound : line.Sound ops) (fits : Fits line.book.ledger.accepted)
include sound fits

theorem credible_device (key : String) :
    Credible (line.memory.deviceTally key) := by
  rcases tracks_of_reachable sound.book with ⟨seed, tracks⟩
  rw [sound.memory, deviceTally_replay_windows]
  have listed : ∀ window ∈ firstBy AggregateWindow.identity ∅
      (line.delivered.filter fun window => keyOf window = key),
      window ∈ line.delivered ∧ keyOf window = key := by
    intro window member
    have kept := mem_filter.mp ((firstBy_sublist _ _).subset member)
    exact ⟨kept.1, of_decide_eq_true kept.2⟩
  apply credible_sum tracks sound.valid fits
  · exact Nodup.of_map AggregateWindow.identity (firstBy_nodup _ _)
  · intro window member
    exact sound.delivered (listed window member).1
  · intro window member
    exact (listed window member).2

theorem credible_window (emitted : window ∈ line.book.ledger.windows) :
    Credible window.tally := by
  rcases tracks_of_reachable sound.book with ⟨seed, tracks⟩
  have single := @credible_sum _ _ seed _ _ tracks sound.valid fits
    (keyOf window) [window] (nodup_singleton window)
    (cons_subset.mpr ⟨emitted, nil_subset _⟩)
  rw [map_singleton, sum_singleton] at single
  apply single
  intro other member
  rw [mem_singleton.mp member]

/-- Applying an emission takes no counter of any device back. -/
theorem within_applyWindow (context : Option Fault)
    (emitted : window ∈ line.book.ledger.windows) (key : String) :
    Within (line.memory.deviceTally key)
      ((line.memory.applyWindow context window).1.deviceTally key) := by
  cases context with
  | some fault => exact Within.refl _
  | none =>
    have after := (sound.apply none emitted).credible_device fits key
    rcases deviceTally_applyWindow key window line.memory with same | added
    · rw [same]
      exact Within.refl _
    · simp only at after
      rw [added] at after ⊢
      exact (sound.credible_device fits key).within_add
        (sound.credible_window fits emitted) after

end Sound

end Line.Sound

/--
In every run in which the accepted events of each device fit 64 bits, and
their bytes do: no emission has a negative counter or more failures than
events, and applying one takes no counter of a device back.
-/
theorem counters_never_run_backwards
    (ops : SketchOps Sketch World) (line : Line Sketch World)
    (reachable : (lineMachine ops).Reachable line)
    (fits : Fits line.book.ledger.accepted) :
    (∀ window ∈ line.book.ledger.windows, 0 ≤ window.errorCount.toInt ∧
        window.errorCount.toInt ≤ window.count.toInt ∧
          0 ≤ window.bytes.toInt) ∧
      ∀ context next window,
        line.step ops (.apply context window) = some next → ∀ key,
            (line.memory.deviceTally key).count.toInt ≤
                (next.memory.deviceTally key).count.toInt ∧
              (line.memory.deviceTally key).errorCount.toInt ≤
                (next.memory.deviceTally key).errorCount.toInt ∧
              (line.memory.deviceTally key).bytes.toInt ≤
                (next.memory.deviceTally key).bytes.toInt := by
  have sound := Line.Sound.of_reachable reachable
  constructor
  · intro window emitted
    have credible := sound.credible_window fits emitted
    exact ⟨credible.failures_nonneg, credible.failures_le,
      credible.bytes_nonneg⟩
  · intro context next window step key
    simp only [Line.step] at step
    split at step
    · next emitted =>
        cases step
        have within := sound.within_applyWindow fits context emitted key
        exact ⟨within.count, within.errorCount, within.bytes⟩
    · cases step

/-! ## Examples -/

def eventOf (bytes : Int64) : Event := { sampleEvent with bytes := bytes }

/-- Two events of one window, and a collect. -/
def twoEvents (bytes : Int64) : List LineStep :=
  [.call (.ingest (eventOf bytes)), .call (.ingest (eventOf bytes)),
    .call .collectAll]

def sampleLine : Line Unit Unit := ⟨sampleBook, Memory.new, []⟩

theorem sampleLine_reachable :
    (lineMachine blankSketch).Reachable sampleLine :=
  Machine.Reachable.start
    ⟨⟨sampleConfig, Time.zero, (), new_sample, rfl, rfl⟩, rfl, rfl⟩

/-- The line after the two events and the collect. -/
def lineAfter (bytes : Int64) : Line Unit Unit :=
  ((lineMachine blankSketch).run sampleLine (twoEvents bytes)).getD
    sampleLine

theorem modestLine_reachable :
    (lineMachine blankSketch).Reachable (lineAfter 64) :=
  @Machine.Reachable.run _ _ _ _ _ (twoEvents 64) sampleLine_reachable rfl

theorem modestLine_fits : Fits (lineAfter 64).book.ledger.accepted := by
  have accepted : (lineAfter 64).book.ledger.accepted =
      [eventOf 64, eventOf 64] := by
    decide
  intro key
  rw [accepted, eventsAt, filter_cons, filter_cons, filter_nil]
  split <;> decide

theorem counters_never_run_backwards_example :
    ∃ window next, window.bytes = 128 ∧
      (lineAfter 64).step blankSketch (.apply none window) = some next ∧
      0 ≤ window.errorCount.toInt ∧
      window.errorCount.toInt ≤ window.count.toInt ∧
      ∀ key, ((lineAfter 64).memory.deviceTally key).bytes.toInt ≤
        (next.memory.deviceTally key).bytes.toInt := by
  have single : ∃ window ∈ (lineAfter 64).book.ledger.windows,
      window.bytes = 128 := by
    decide
  rcases single with ⟨window, emitted, bytes⟩
  rcases counters_never_run_backwards blankSketch (lineAfter 64)
    modestLine_reachable modestLine_fits with ⟨sound, grows⟩
  rcases sound window emitted with ⟨least, most, _⟩
  refine ⟨window, _, bytes, if_pos emitted, least, most, ?_⟩
  intro key
  exact (grows none _ window (if_pos emitted) key).2.2

/-- The greatest number of bytes that an event can report. -/
def mostBytes : Int64 := 9223372036854775807

/--
Two events of the greatest number of bytes are valid, and the emission that
counts them reports `-2` bytes; applying it takes the bytes of the device
from zero to `-2`.
-/
theorem bytes_wrap_around : (eventOf mostBytes).validate = none ∧
      (lineMachine blankSketch).Reachable (lineAfter mostBytes) ∧
      ∃ window ∈ (lineAfter mostBytes).book.ledger.windows,
        window.bytes = -2 ∧ ((lineAfter mostBytes).memory.deviceTally
            (deviceKey "user-1" "device-1")).bytes = 0 ∧
          ((lineAfter mostBytes).step blankSketch
            (.apply none window)).map (fun next =>
              (next.memory.deviceTally
                (deviceKey "user-1" "device-1")).bytes) = some (-2) := by
  refine ⟨by decide, ?_, ?_⟩
  · exact @Machine.Reachable.run _ _ _ _ _ (twoEvents mostBytes)
      sampleLine_reachable rfl
  · decide

end Ironclaw.App
