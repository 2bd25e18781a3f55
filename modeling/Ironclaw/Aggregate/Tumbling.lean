import Ironclaw.Aggregate.Conservation

/-!
# Tumbling windows

A window number is a truncating quotient of 64-bit nanoseconds, and the bounds
of a window are that number multiplied back.  At and after the epoch the
quotient is the floor, so that every event lies in its window, windows of
different numbers are disjoint, and a watermark closes exactly the windows
that have ended.  Before the epoch the quotient rounds up: an event lies
before the start of its window, unless it is a multiple of the window size.
-/

namespace Ironclaw.Aggregate

open Lib Domain List Aggregator

variable {Sketch World : Type}
variable {time : Time} {key : WindowKey}
variable {aggregator : Aggregator Sketch World}
variable (ops : SketchOps Sketch World)

/-! ## Window numbers and their intervals -/

/-- The representable instants from the epoch on. -/
def SinceEpoch (time : Time) : Prop :=
  time.Representable ∧ 0 ≤ time.nanos

def windowStartOf (config : Config) (windowID : Int64) : Time :=
  Time.unix (windowID * config.windowSize)

def windowEndOf (config : Config) (windowID : Int64) : Time :=
  (windowStartOf config windowID).add config.windowSize

theorem Config.toInt_windowSize_pos (config : Config) :
    0 < config.windowSize.toInt :=
  Int64.lt_iff_toInt_lt.mp config.windowSize_pos

theorem toInt_windowIDAt (config : Config) (fits : time.Representable) :
    (windowIDAt config time).toInt =
      time.nanos.tdiv config.windowSize.toInt := by
  rw [windowIDAt, Word.toInt_div config.toInt_windowSize_pos,
    Time.toInt_unixNano fits]

theorem toInt_windowIDAt_since (config : Config) (since : SinceEpoch time) :
    (windowIDAt config time).toInt =
      time.nanos / config.windowSize.toInt := by
  rw [toInt_windowIDAt config since.1, Int.tdiv_eq_ediv_of_nonneg since.2]

theorem toInt_windowIDAt_nonpos (config : Config)
    (fits : time.Representable) (early : time.nanos ≤ 0) :
    (windowIDAt config time).toInt ≤ 0 := by
  have flipped := Int.tdiv_nonneg (Int.neg_nonneg_of_nonpos early)
    config.toInt_windowSize_pos.le
  rw [Int.neg_tdiv, ← toInt_windowIDAt config fits] at flipped
  exact Int.nonpos_of_neg_nonneg flipped

/-- The start of the window of an instant does not wrap. -/
theorem nanos_windowStartOf (config : Config) (fits : time.Representable) :
    (windowStartOf config (windowIDAt config time)).nanos =
      (windowIDAt config time).toInt * config.windowSize.toInt := by
  have positive := config.toInt_windowSize_pos
  have parts := Int.mul_tdiv_add_tmod time.nanos config.windowSize.toInt
  rw [← toInt_windowIDAt config fits, Int.mul_comm] at parts
  rcases fits with ⟨least, most⟩
  -- The product lies between the instant and the epoch.
  rcases Int.le_total 0 time.nanos with later | early
  · have rest := Int.tmod_nonneg config.windowSize.toInt later
    have number : 0 ≤ (windowIDAt config time).toInt := by
      rw [toInt_windowIDAt config ⟨least, most⟩]
      exact Int.tdiv_nonneg later positive.le
    have product := Int.mul_nonneg number positive.le
    exact Word.toInt_mul (by omega) (by omega)
  · have rest := Int.tmod_nonneg config.windowSize.toInt
      (Int.neg_nonneg_of_nonpos early)
    rw [Int.neg_tmod] at rest
    have product := Int.mul_nonpos_of_nonpos_of_nonneg
      (toInt_windowIDAt_nonpos config ⟨least, most⟩ early) positive.le
    exact Word.toInt_mul (by omega) (by omega)

/-- A window number whose start does not wrap. -/
structure Exact (config : Config) (windowID : Int64) : Prop where
  nonneg : 0 ≤ windowID.toInt
  start : (windowStartOf config windowID).nanos =
      windowID.toInt * config.windowSize.toInt

theorem exact_windowIDAt (config : Config) (since : SinceEpoch time) :
    Exact config (windowIDAt config time) := by
  refine ⟨?_, nanos_windowStartOf config since.1⟩
  rw [toInt_windowIDAt_since config since]
  exact Int.ediv_nonneg since.2 config.toInt_windowSize_pos.le

namespace Exact

variable {config : Config} {windowID : Int64}

theorem nanos_windowEndOf (exactNumber : Exact config windowID) :
    (windowEndOf config windowID).nanos =
      (windowID.toInt + 1) * config.windowSize.toInt := by
  show (windowStartOf config windowID).nanos + config.windowSize.toInt = _
  rw [exactNumber.start, Int.add_mul, Int.one_mul]

theorem disjoint {other : Int64} (left : Exact config windowID)
    (right : Exact config other) (distinct : windowID ≠ other) :
    (windowEndOf config windowID).nanos ≤ (windowStartOf config other).nanos ∨
      (windowEndOf config other).nanos ≤
        (windowStartOf config windowID).nanos := by
  have positive := config.toInt_windowSize_pos
  rw [left.nanos_windowEndOf, right.nanos_windowEndOf, left.start,
    right.start]
  have numbers : windowID.toInt ≠ other.toInt :=
    fun same => distinct (Int64.toInt_inj.mp same)
  rcases lt_or_gt_of_ne numbers with less | greater
  · exact Or.inl (Int.mul_le_mul_of_nonneg_right less positive.le)
  · exact Or.inr (Int.mul_le_mul_of_nonneg_right greater positive.le)

/-- The numbers below that of a watermark are those whose window is over. -/
theorem lt_windowIDAt_iff (exactNumber : Exact config windowID)
    {watermark : Time} (fits : watermark.Representable) :
    windowID < windowIDAt config watermark ↔
      (windowEndOf config windowID).nanos ≤ watermark.nanos := by
  have positive := config.toInt_windowSize_pos
  rw [exactNumber.nanos_windowEndOf, Int64.lt_iff_toInt_lt]
  by_cases later : 0 ≤ watermark.nanos
  · rw [toInt_windowIDAt_since config ⟨fits, later⟩,
      ← Int.le_ediv_iff_mul_le positive]
    exact Int.lt_iff_add_one_le
  · -- Before the epoch the quotient is not positive, and no window is over.
    have number := toInt_windowIDAt_nonpos config fits
      (Int.le_of_not_le later)
    have product := Int.mul_pos
      (Int.lt_add_one_of_le exactNumber.nonneg) positive
    have first := exactNumber.nonneg
    constructor
    · intro less
      omega
    · intro ended
      omega

end Exact

/--
An instant lies in its window exactly from the epoch on, and before it at the
multiples of the window size.
-/
theorem mem_window_iff (config : Config) (fits : time.Representable) :
    (windowStartOf config (windowIDAt config time)).nanos ≤ time.nanos ∧
        time.nanos < (windowEndOf config (windowIDAt config time)).nanos ↔
      0 ≤ time.nanos ∨ config.windowSize.toInt ∣ time.nanos := by
  have positive := config.toInt_windowSize_pos
  have least := Int.emod_nonneg time.nanos positive.ne'
  have less := Int.emod_lt_of_pos time.nanos positive
  have parts := Int.mul_tdiv_add_tmod time.nanos config.windowSize.toInt
  rw [← toInt_windowIDAt config fits, Int.mul_comm,
    ← nanos_windowStartOf config fits, Int.tmod_eq_emod] at parts
  have finish : (windowEndOf config (windowIDAt config time)).nanos =
      (windowStartOf config (windowIDAt config time)).nanos +
        config.windowSize.toInt := rfl
  split at parts
  · rename_i inside
    exact iff_of_true ⟨by omega, by omega⟩ inside
  · rename_i outside
    exact iff_of_false (by omega) outside

/-! ## Emissions -/

theorem framed_of_reachable
    {ops : SketchOps Sketch World} {book : Book Sketch World}
    (reachable : (bookMachine ops).Reachable book) :
    ∀ window ∈ book.ledger.windows, Framed book.aggregator.config window := by
  apply reachable.invariant
  · rintro state ⟨raw, now, world, built, ledger, _⟩ window member
    rw [ledger] at member
    cases member
  · intro before call after _ framed step window member
    have grows := Book.grows_step step
    rw [grows.config]
    rcases grows.windows with same | ⟨included, more⟩
    · rw [same] at member
      exact framed window member
    · rw [more] at member
      rcases mem_append.mp member with earlier | emitted
      · exact framed window earlier
      · exact (collectSelected_emits ops _ _).framed.2 window emitted

namespace Tracks

variable {seed : Int64}
variable {ledger : Ledger Event}
variable {entry : AggregateWindow × List Event}

section Tracks

variable (tracks : Tracks id seed aggregator ledger)
include tracks

theorem mem_accepted_of_emitted (emitted : entry ∈ ledger.emitted)
    {event : Event} (counted : event ∈ entry.2) :
    event ∈ ledger.accepted := by
  apply tracks.accepted_perm.mem_iff.mpr
  apply mem_append_right
  exact mem_flatMap.mpr ⟨entry, emitted, counted⟩

theorem windowID_of_emitted (emitted : entry ∈ ledger.emitted)
    {event : Event} (counted : event ∈ entry.2) :
    entry.1.windowID = windowIDAt aggregator.config event.observedAt :=
  (congrArg WindowKey.windowID
    (tracks.emitted_key entry emitted event counted)).symm

theorem exact_of_emitted
    (since : ∀ event ∈ ledger.accepted, SinceEpoch event.observedAt)
    (emitted : entry ∈ ledger.emitted) :
    Exact aggregator.config entry.1.windowID := by
  rcases exists_mem_of_ne_nil _
    (tracks.emitted_nonempty entry emitted) with ⟨event, counted⟩
  rw [tracks.windowID_of_emitted emitted counted]
  exact exact_windowIDAt _
    (since event (tracks.mem_accepted_of_emitted emitted counted))

theorem exact_of_open
    (since : ∀ event ∈ ledger.accepted, SinceEpoch event.observedAt)
    {state : WindowState Sketch}
    (present : aggregator.openWindows.lookup key = some state) :
    Exact aggregator.config key.windowID := by
  rcases exists_mem_of_ne_nil _
    (tracks.open_nonempty key state present) with ⟨event, counted⟩
  rcases mem_filter.mp counted with ⟨opened, same⟩
  have keyed : windowKeyOf aggregator.config event = key :=
    of_decide_eq_true same
  have accepted : event ∈ ledger.accepted :=
    tracks.accepted_perm.mem_iff.mpr (mem_append_left _ opened)
  rw [← keyed]
  exact exact_windowIDAt _ (since event accepted)

end Tracks

end Tracks

/-! ## What a collect emits -/

namespace Emits

variable {keys : List WindowKey} {windows : List AggregateWindow}
variable {after : Aggregator Sketch World} {result : Option Fault}
variable (emits : Emits keys aggregator after windows result)
include emits

/-- A collect emits keys of its list, also when it ends in an error. -/
theorem ofWindow_mem {window : AggregateWindow} (member : window ∈ windows) :
    WindowKey.ofWindow window ∈ keys := by
  induction emits with
  | done | failed => cases member
  | skipped _ _ induction => exact mem_cons_of_mem _ (induction member)
  | emitted _ _ _ _ _ _ _ induction =>
    rcases mem_cons.mp member with rfl | later
    · exact mem_cons_self
    · exact mem_cons_of_mem _ (induction later)

/-- A collect without an error emits every open key of the list. -/
theorem map_ofWindow (distinct : keys.Nodup)
    (openKeys : ∀ key ∈ keys, key ∈ aggregator.openWindows)
    (succeeded : result = none) :
    windows.map WindowKey.ofWindow = keys := by
  induction emits with
  | done => rfl
  | failed => cases succeeded
  | skipped absent =>
    have present := openKeys _ mem_cons_self
    rw [← AList.lookup_isSome, absent] at present
    cases present
  | emitted _ _ _ _ _ _ _ induction =>
    have parts := nodup_cons.mp distinct
    rw [map_cons]
    congr 1
    apply induction parts.2 _ succeeded
    intro other member
    apply AList.mem_erase.mpr
    constructor
    · rintro rfl
      exact parts.1 member
    · exact openKeys other (mem_cons_of_mem _ member)

end Emits

theorem mem_selectedKeys {included : WindowKey → Bool} :
    key ∈ aggregator.selectedKeys included ↔
      key ∈ aggregator.openWindows ∧ included key = true := by
  rw [selectedKeys, (perm_insertionSort _ _).mem_iff, mem_filter]
  rfl

theorem collect_succeeded
    {ops : SketchOps Sketch World} {included : WindowKey → Bool}
    (succeeded : (aggregator.collect ops included).2.2 = none) :
    (aggregator.collectSelected ops
      (aggregator.selectedKeys included)).2.2 = none := by
  rw [collect] at succeeded
  split at succeeded
  · cases succeeded
  · assumption

theorem mem_selectedKeys_of_newlyEmitted (included : WindowKey → Bool)
    (aggregator : Aggregator Sketch World) {window : AggregateWindow}
    (emitted : window ∈ aggregator.newlyEmitted ops included) :
    WindowKey.ofWindow window ∈ aggregator.openWindows ∧
      included (WindowKey.ofWindow window) = true :=
  mem_selectedKeys.mp
    ((collectSelected_emits ops _ aggregator).ofWindow_mem emitted)

theorem mem_newlyEmitted_of_succeeded (included : WindowKey → Bool)
    (succeeded : (aggregator.collect ops included).2.2 = none)
    (present : key ∈ aggregator.openWindows)
    (selected : included key = true) :
    key ∈ (aggregator.newlyEmitted ops included).map WindowKey.ofWindow := by
  have distinct : (aggregator.selectedKeys included).Nodup :=
    (perm_insertionSort _ _).nodup_iff.mpr
      (aggregator.openWindows.nodupKeys.filter _)
  rw [newlyEmitted, (collectSelected_emits ops _ aggregator).map_ofWindow
      distinct (fun key member => (mem_selectedKeys.mp member).1)
      (collect_succeeded succeeded)]
  exact mem_selectedKeys.mpr ⟨present, selected⟩

/-- Which representable events an emission contains, of those it counts. -/
theorem event_in_window_iff {ops : SketchOps Sketch World}
    {book : Book Sketch World} (reachable : (bookMachine ops).Reachable book)
    {entry : AggregateWindow × List Event}
    (emitted : entry ∈ book.ledger.emitted) {event : Event}
    (counted : event ∈ entry.2) (fits : event.observedAt.Representable) :
    entry.1.windowStart.nanos ≤ event.observedAt.nanos ∧
        event.observedAt.nanos < entry.1.windowEnd.nanos ↔
      0 ≤ event.observedAt.nanos ∨
        book.aggregator.config.windowSize.toInt ∣ event.observedAt.nanos := by
  rcases tracks_of_reachable reachable with ⟨seed, tracks⟩
  have frame := framed_of_reachable reachable entry.1 (mem_map_of_mem emitted)
  rw [frame.ends, frame.starts, tracks.windowID_of_emitted emitted counted]
  exact mem_window_iff book.aggregator.config fits

/--
In every run whose events are observed at or after the epoch, and at instants
that 64 bits of nanoseconds can represent: an emission contains the events it
counts in an interval of one window size, emissions of different window
numbers cover disjoint intervals, and a representable watermark emits only
open windows that end at or before it, and all of them unless a sketch fails.
-/
theorem tumbling_windows
    (ops : SketchOps Sketch World) (book : Book Sketch World)
    (reachable : (bookMachine ops).Reachable book)
    (since : ∀ event ∈ book.ledger.accepted, SinceEpoch event.observedAt) :
    (∀ entry ∈ book.ledger.emitted, entry.1.windowEnd =
          entry.1.windowStart.add book.aggregator.config.windowSize ∧
        ∀ event ∈ entry.2,
          entry.1.windowStart.nanos ≤ event.observedAt.nanos ∧
            event.observedAt.nanos < entry.1.windowEnd.nanos) ∧
      (∀ left ∈ book.ledger.windows, ∀ right ∈ book.ledger.windows,
        left.windowID ≠ right.windowID →
          left.windowEnd.nanos ≤ right.windowStart.nanos ∨
            right.windowEnd.nanos ≤ left.windowStart.nanos) ∧
      ∀ (watermark : Time) (emitted : List AggregateWindow),
        watermark.Representable →
          emitted = book.aggregator.newlyEmitted ops (fun key =>
            key.windowID < windowIDAt book.aggregator.config watermark) →
            (∀ window ∈ emitted,
              WindowKey.ofWindow window ∈ book.aggregator.openWindows ∧
                window.windowEnd.nanos ≤ watermark.nanos) ∧
              ((book.aggregator.collectWindowsBefore ops
                  watermark).2.2 = none →
                ∀ key ∈ book.aggregator.openWindows,
                  (windowEndOf book.aggregator.config
                    key.windowID).nanos ≤ watermark.nanos →
                    key ∈ emitted.map WindowKey.ofWindow) := by
  rcases tracks_of_reachable reachable with ⟨seed, tracks⟩
  have framed := framed_of_reachable reachable
  refine ⟨?_, ?_, ?_⟩
  · intro entry emitted
    have frame := framed entry.1 (mem_map_of_mem emitted)
    constructor
    · exact frame.ends
    · intro event counted
      rcases since event (tracks.mem_accepted_of_emitted emitted counted)
        with ⟨fits, later⟩
      exact (event_in_window_iff reachable emitted counted fits).mpr
        (Or.inl later)
  · intro left leftMember right rightMember distinct
    rcases mem_map.mp leftMember with ⟨first, leftEmitted, rfl⟩
    rcases mem_map.mp rightMember with ⟨second, rightEmitted, rfl⟩
    have leftFrame := framed first.1 leftMember
    have rightFrame := framed second.1 rightMember
    rw [leftFrame.ends, rightFrame.ends, leftFrame.starts, rightFrame.starts]
    exact (tracks.exact_of_emitted since leftEmitted).disjoint
      (tracks.exact_of_emitted since rightEmitted) distinct
  · rintro watermark emitted fits rfl
    have exactNumber : ∀ key ∈ book.aggregator.openWindows,
        Exact book.aggregator.config key.windowID := by
      intro key present
      rcases Option.isSome_iff_exists.mp
        (AList.lookup_isSome.mpr present) with ⟨state, found⟩
      exact tracks.exact_of_open since found
    constructor
    · intro window member
      rcases mem_selectedKeys_of_newlyEmitted ops _ _ member with
        ⟨present, selected⟩
      have frame := (collectSelected_emits ops _ _).framed.2 window member
      refine ⟨present, ?_⟩
      rw [frame.ends, frame.starts]
      exact ((exactNumber _ present).lt_windowIDAt_iff fits).mp
        (of_decide_eq_true selected)
    · intro succeeded key present ended
      apply mem_newlyEmitted_of_succeeded ops _ succeeded present
      exact decide_eq_true
        (((exactNumber _ present).lt_windowIDAt_iff fits).mpr ended)

/-- The book after an event of a later window, and a collect. -/
def tumbledBook : Book Unit Unit :=
  ((sampleBook.step blankSketch (.ingest sampleEvent)).bind fun book =>
    book.step blankSketch .collectAll).getD sampleBook

theorem tumbledBook_reachable :
    (bookMachine blankSketch).Reachable tumbledBook :=
  @Machine.Reachable.run _ _ _ _ _ sampleCalls sampleBook_reachable rfl

theorem tumbling_windows_example :
    ∃ entry ∈ tumbledBook.ledger.emitted, sampleEvent ∈ entry.2 ∧
      entry.1.windowStart.nanos ≤ sampleEvent.observedAt.nanos ∧
        sampleEvent.observedAt.nanos < entry.1.windowEnd.nanos := by
  have since : ∀ event ∈ tumbledBook.ledger.accepted,
      SinceEpoch event.observedAt := by
    intro event member
    have single : tumbledBook.ledger.accepted = [sampleEvent] := by decide
    rw [single] at member
    rw [mem_singleton.mp member]
    exact ⟨⟨by decide, by decide⟩, by decide⟩
  have single : ∃ entry ∈ tumbledBook.ledger.emitted,
      sampleEvent ∈ entry.2 := by
    decide
  rcases single with ⟨entry, emitted, counted⟩
  exact ⟨entry, emitted, counted,
    ((tumbling_windows blankSketch tumbledBook tumbledBook_reachable
      since).1 entry emitted).2 sampleEvent counted⟩

/-- An event observed one nanosecond before the epoch. -/
def earlyEvent : Event := { sampleEvent with observedAt := ⟨-1⟩ }

def earlyBook : Book Unit Unit :=
  ((sampleBook.step blankSketch (.ingest earlyEvent)).bind fun book =>
    book.step blankSketch .collectAll).getD sampleBook

/-- The event is valid, and lies before the start of its window. -/
theorem early_event_precedes_window : earlyEvent.validate = none ∧
      (bookMachine blankSketch).Reachable earlyBook ∧
      ∃ entry ∈ earlyBook.ledger.emitted, ∃ event ∈ entry.2,
        event.observedAt.nanos < entry.1.windowStart.nanos := by
  refine ⟨by decide, ?_, ?_⟩
  · exact @Machine.Reachable.run _ _ _ _ _ [.ingest earlyEvent, .collectAll]
      sampleBook_reachable rfl
  · decide

end Ironclaw.Aggregate
