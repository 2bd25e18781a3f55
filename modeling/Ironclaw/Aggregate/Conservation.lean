import Ironclaw.Aggregate.Ledger
import Ironclaw.Lib.Machine
import Mathlib.Data.Rat.Cast.Order
import Mathlib.Tactic.NormNum

/-!
# Conservation of counted events

The aggregator as a machine: ingest, collect and commit in any order, with
sketches that may fail at any call and commits of windows that some collect
has returned.  For every window, what was counted is what is open, pending or
removed by a commit, as long as the sequence number has not gone around.
-/

namespace Ironclaw.Aggregate

open Lib Domain List Int64 AList Ledger Aggregator Tally

variable {Sketch World Item : Type}
variable {ops : SketchOps Sketch World} {seed : Int64} {identity : String}

/-! ## Tallies of one window -/

/-- The tally of an open window, zero when it is not open. -/
def Aggregator.openTally
    (aggregator : Aggregator Sketch World) (key : WindowKey) : Tally :=
  match aggregator.openWindows.lookup key with
  | some state => state.tally
  | none => 0

/-- The tally of the emissions of one window. -/
def tallyAt (key : WindowKey) (windows : List AggregateWindow) : Tally :=
  ((windows.filter fun window => WindowKey.ofWindow window = key).map
    AggregateWindow.tally).sum

theorem tallyAt_append
    (key : WindowKey) (first second : List AggregateWindow) :
    tallyAt key (first ++ second) =
      tallyAt key first + tallyAt key second := by
  simp [tallyAt]

theorem tallyAt_perm (key : WindowKey) {first second : List AggregateWindow}
    (same : first.Perm second) : tallyAt key first = tallyAt key second :=
  ((same.filter _).map _).sum_eq

variable {event : Item → Event}
variable {aggregator : Aggregator Sketch World} {ledger : Ledger Item}

/-- The items of one window. -/
abbrev itemsIn
    (event : Item → Event) (config : Config) (key : WindowKey)
    (items : List Item) : List Item :=
  items.filter fun item => windowKeyOf config (event item) = key

theorem itemsIn_append
    (config : Config) (key : WindowKey) (first second : List Item) :
    itemsIn event config key (first ++ second) =
      itemsIn event config key first ++ itemsIn event config key second :=
  filter_append _ _

theorem itemsIn_of_keyed
    {config : Config} {other : WindowKey} {items : List Item}
    (keyed : ∀ item ∈ items, windowKeyOf config (event item) = other)
    (key : WindowKey) :
    itemsIn event config key items = if other = key then items else [] := by
  split
  · rename_i same
    rw [itemsIn, filter_eq_self]
    intro item contained
    simp [keyed item contained, same]
  · rename_i different
    rw [itemsIn, filter_eq_nil_iff]
    intro item contained
    simp [keyed item contained, different]

namespace Tracks

section Tracks

variable (tracks : Tracks event seed aggregator ledger) (key : WindowKey)
include tracks key

/-- The items of a window that were emitted, emission by emission. -/
theorem emitted_items_at : tallyOf event (itemsIn event aggregator.config key
        (ledger.emitted.flatMap Prod.snd)) = tallyAt key ledger.windows := by
  have keyed := tracks.emitted_key
  have reported := tracks.emitted_tally
  rw [windows]
  generalize ledger.emitted = entries at keyed reported
  induction entries with
  | nil => rfl
  | cons entry rest induction =>
    have later := induction
      (fun other member => keyed other (mem_cons_of_mem _ member))
      (fun other member => reported other (mem_cons_of_mem _ member))
    have entryReported := reported entry mem_cons_self
    rw [flatMap_cons, itemsIn_append, tallyOf_append, later,
      map_cons, ← singleton_append, tallyAt_append]
    congr 1
    -- All items of one emission belong to the window of that emission.
    rw [itemsIn_of_keyed (keyed entry mem_cons_self)]
    split
    · next same => simp [tallyAt, same, entryReported]
    · next different => simp [tallyAt, different, tallyOf]

theorem openTally_eq : aggregator.openTally key = tallyOf event
        (ledger.itemsAt
          (fun item => windowKeyOf aggregator.config (event item)) key) := by
  rw [openTally]
  cases lookup : aggregator.openWindows.lookup key with
  | none =>
    rw [tracks.open_absent key lookup]
    rfl
  | some state => exact tracks.open_tally key state lookup

theorem accepted_tally :
    tallyOf event (itemsIn event aggregator.config key ledger.accepted) =
      aggregator.openTally key + tallyAt key ledger.windows := by
  rw [tallyOf_perm event (tracks.accepted_perm.filter _),
    filter_append, tallyOf_append, tracks.openTally_eq key,
    tracks.emitted_items_at key]
  rfl

theorem accepted_tally_of_bound (bound : ledger.emitted.length < 2 ^ 64) :
    tallyOf event (itemsIn event aggregator.config key ledger.accepted) =
      aggregator.openTally key +
        tallyAt key (GoMap.values aggregator.pending) +
        tallyAt key ledger.removed := by
  rw [tracks.accepted_tally key,
    tallyAt_perm key (tracks.conserved bound), tallyAt_append, add_assoc]

end Tracks

end Tracks

/-! ## Exact counts

A counter of the items that are chosen does not wrap as long as they are
fewer than `2^63`, and then the parts add up as integers.
-/

section Exact

variable (field : Tally → Int64) (chosen : Item → Bool)

/-- The field of every emission of one window, summed as integers. -/
def exactAt (key : WindowKey) (windows : List AggregateWindow) : Int :=
  ((windows.filter fun window => WindowKey.ofWindow window = key).map
    fun window => (field window.tally).toInt).sum

theorem exactAt_append
    (key : WindowKey) (first second : List AggregateWindow) :
    exactAt field key (first ++ second) =
      exactAt field key first + exactAt field key second := by
  simp [exactAt]

theorem exactAt_perm (key : WindowKey) {first second : List AggregateWindow}
    (same : first.Perm second) :
    exactAt field key first = exactAt field key second :=
  ((same.filter _).map _).sum_eq

variable {field chosen} (tracks : Tracks event seed aggregator ledger)
variable (counts : ∀ items, field (tallyOf event items) =
  Int64.ofNat (items.countP chosen))
variable (key : WindowKey)
include tracks counts

theorem Tracks.emitted_exact_at
    (bound : (itemsIn event aggregator.config key
      (ledger.emitted.flatMap Prod.snd)).countP chosen < 2 ^ 63) :
    ((itemsIn event aggregator.config key
        (ledger.emitted.flatMap Prod.snd)).countP chosen : Int) =
      exactAt field key ledger.windows := by
  have keyed := tracks.emitted_key
  have reported := tracks.emitted_tally
  rw [windows]
  revert bound
  generalize ledger.emitted = entries at keyed reported
  induction entries with
  | nil =>
    intro _
    rfl
  | cons entry rest induction =>
    have later := induction
      (fun other member => keyed other (mem_cons_of_mem _ member))
      (fun other member => reported other (mem_cons_of_mem _ member))
    have entryReported := reported entry mem_cons_self
    intro bound
    rw [flatMap_cons, itemsIn_append, countP_append] at bound ⊢
    rw [map_cons, ← singleton_append, exactAt_append,
      Int.natCast_add, later (by omega)]
    congr 1
    rw [itemsIn_of_keyed (keyed entry mem_cons_self)] at bound ⊢
    split
    · rename_i same
      rw [if_pos same] at bound
      have exact := toInt_ofNat_of_lt
        (show entry.2.countP chosen < 2 ^ 63 by omega)
      rw [← counts, ← entryReported] at exact
      simp [exactAt, same, exact]
    · next different => simp [exactAt, different]

/-- The parts of a counter that does not wrap add up as integers. -/
theorem Tracks.accepted_exact (emissions : ledger.emitted.length < 2 ^ 64)
    (bound : (itemsIn event aggregator.config key ledger.accepted).countP
      chosen < 2 ^ 63) :
    ((itemsIn event aggregator.config key ledger.accepted).countP
        chosen : Int) =
      (field (aggregator.openTally key)).toInt +
        exactAt field key (GoMap.values aggregator.pending) +
        exactAt field key ledger.removed := by
  have split :
      (itemsIn event aggregator.config key ledger.accepted).countP chosen =
        (ledger.itemsAt (fun item =>
          windowKeyOf aggregator.config (event item)) key).countP chosen +
        (itemsIn event aggregator.config key
          (ledger.emitted.flatMap Prod.snd)).countP chosen := by
    have same := (tracks.accepted_perm.filter fun item =>
      decide (windowKeyOf aggregator.config (event item) = key)).countP_eq
        chosen
    rw [filter_append, countP_append] at same
    exact same
  rw [split] at bound ⊢
  rw [Int.natCast_add, tracks.emitted_exact_at counts key (by omega),
    exactAt_perm field key (tracks.conserved emissions), exactAt_append,
    ← add_assoc, tracks.openTally_eq key, counts,
    toInt_ofNat_of_lt (by omega)]

end Exact

/-! ## The machine -/

/-- An aggregator with its ledger and everything its collects returned. -/
structure Book (Sketch World : Type) where
  aggregator : Aggregator Sketch World
  ledger : Ledger Event
  returned : List AggregateWindow

/-- A call of the aggregator. -/
inductive Call where
  | ingest (event : Event)
  | ingestBatch (batch : Batch)
  | collectWindowsBefore (watermark : Time)
  | collectAll
  | commit (windows : List AggregateWindow)

namespace Book

/-- Record a collect: the emissions it made, and what it returned. -/
def collected
    (ops : SketchOps Sketch World) (included : WindowKey → Bool)
    (book : Book Sketch World) : Book Sketch World :=
  let result := book.aggregator.collect ops included
  { aggregator := result.1
    ledger :=
      book.ledger.emitAll (windowKeyOf book.aggregator.config)
        (book.aggregator.newlyEmitted ops included)
    returned := book.returned ++ result.2.1 }

/-- One call, with what the books record of it. -/
def step
    (ops : SketchOps Sketch World) (book : Book Sketch World) :
    Call → Option (Book Sketch World)
  | .ingest event =>
    let result := book.aggregator.ingest ops event
    some { book with
      aggregator := result.1
      ledger :=
        if result.2.isNone then book.ledger.count [event]
        else book.ledger }
  | .ingestBatch batch =>
    let result := book.aggregator.ingestBatchItems ops id batch.events
    some { book with
      aggregator := result.1
      ledger := book.ledger.count result.2.1 }
  | .collectWindowsBefore watermark =>
    some (book.collected ops fun key =>
      key.windowID < windowIDAt book.aggregator.config watermark)
  | .collectAll => some (book.collected ops fun _ => true)
  | .commit windows =>
    if windows ⊆ book.returned then
      some { book with
        aggregator := book.aggregator.commit windows
        ledger :=
          book.ledger.remove
            (Ledger.deleted windows book.aggregator.pending) }
    else none

end Book

/-- Any aggregator that `New` builds, driven by any calls. -/
def bookMachine (ops : SketchOps Sketch World) :
    Machine (Book Sketch World) Call where
  initial book := ∃ raw now world,
      Aggregator.new raw now world = .ok book.aggregator ∧
        book.ledger = Ledger.empty ∧ book.returned = []
  step := Book.step ops

/-! ## Every call preserves the ledger -/

variable {book : Book Sketch World}

section Tracks

variable (tracks : Tracks id seed book.aggregator book.ledger)
include tracks

theorem Tracks.ingest {event : Event} :
    Tracks id seed (book.aggregator.ingest ops event).1
      (if (book.aggregator.ingest ops event).2.isNone then
        book.ledger.count [event] else book.ledger) := by
  rw [Aggregator.ingest]
  split
  · exact tracks
  · rcases outcome : book.aggregator.ingestLocked ops event with
      ⟨after, fault⟩
    rcases ingestLocked_cases outcome with ⟨rfl, state, world, known, rfl⟩ |
        ⟨⟨refusal, rfl⟩, shed, world, rfl⟩
    · exact tracks.count_item ops event world known
    · exact tracks.refuse shed world

theorem Tracks.step {call : Call} {next : Book Sketch World}
    (step : book.step ops call = some next) :
    Tracks id seed next.aggregator next.ledger := by
  cases call with
  | ingest event =>
    cases step
    exact tracks.ingest
  | ingestBatch batch =>
    cases step
    exact tracks.ingestBatchItems ops batch.events
  | collectWindowsBefore | collectAll =>
    cases step
    exact tracks.collect ops _
  | commit windows =>
    simp only [Book.step] at step
    split at step
    · cases step
      exact tracks.commit windows
    · cases step

end Tracks

/-- What a call adds to a book. -/
structure Book.Grows
    (ops : SketchOps Sketch World) (book next : Book Sketch World) :
    Prop where
  config : next.aggregator.config = book.aggregator.config
  accepted : ∃ events, next.ledger.accepted = book.ledger.accepted ++ events ∧
      ∀ event ∈ events, event.validate = none
  windows : next.ledger.windows = book.ledger.windows ∨
      ∃ included, next.ledger.windows =
        book.ledger.windows ++ book.aggregator.newlyEmitted ops included

theorem Book.Grows.idle {next : Book Sketch World}
    (config : next.aggregator.config = book.aggregator.config)
    (accepted : next.ledger.accepted = book.ledger.accepted)
    (windows : next.ledger.windows = book.ledger.windows) :
    book.Grows ops next where
  config := config
  accepted := ⟨[], by simp [accepted]⟩
  windows := Or.inl windows

theorem Book.Grows.ingest (ops : SketchOps Sketch World) (event : Event)
    (book : Book Sketch World) :
    book.Grows ops
      { book with
        aggregator := (book.aggregator.ingest ops event).1
        ledger := if (book.aggregator.ingest ops event).2.isNone then
            book.ledger.count [event]
          else book.ledger } := by
  rw [Aggregator.ingest]
  cases valid : event.validate with
  | some fault => exact Grows.idle rfl rfl rfl
  | none =>
    have kept := (ingestLocked_frame ops event book.aggregator).1
    refine ⟨kept, ?_, Or.inl ?_⟩
    · simp only
      split
      · refine ⟨[event], rfl, ?_⟩
        intro other member
        rw [mem_singleton.mp member, valid]
      · exact ⟨[], by simp⟩
    · rw [apply_ite Ledger.windows]
      exact ite_self _

theorem Book.Grows.ingestBatch (ops : SketchOps Sketch World) (batch : Batch)
    (book : Book Sketch World) :
    book.Grows ops
      { book with
        aggregator := (book.aggregator.ingestBatchItems ops id batch.events).1
        ledger := book.ledger.count
          (book.aggregator.ingestBatchItems ops id batch.events).2.1 } := by
  rw [ingestBatchItems]
  cases valid : (batch.events.map id).findSome? Event.validate with
  | some fault =>
    refine Grows.idle rfl ?_ rfl
    simp [Ledger.count]
  | none =>
    have passed : ∀ event ∈ batch.events, event.validate = none := by
      rw [map_id] at valid
      exact List.findSome?_eq_none_iff.mp valid
    refine ⟨(ingestItems_frame ops id batch.events _).1, ⟨_, rfl, ?_⟩,
      Or.inl rfl⟩
    intro event member
    exact passed event
      ((ingestItems_sublist ops id batch.events _).subset member)

theorem Book.Grows.collected
    (ops : SketchOps Sketch World) (included : WindowKey → Bool)
    (book : Book Sketch World) :
    book.Grows ops (book.collected ops included) where
  config := by
    show (book.aggregator.collect ops included).1.config = _
    rw [collect_fst]
    exact (collectSelected_emits ops _ _).framed.1
  accepted := ⟨[], by simp [Book.collected, accepted_emitAll]⟩
  windows := Or.inr ⟨included, windows_emitAll _ _ _⟩

theorem Book.grows_step {call : Call} {next : Book Sketch World}
    (step : book.step ops call = some next) : book.Grows ops next := by
  cases call with
  | ingest event =>
    cases step
    exact Grows.ingest ops event book
  | ingestBatch batch =>
    cases step
    exact Grows.ingestBatch ops batch book
  | collectWindowsBefore | collectAll =>
    cases step
    exact Grows.collected ops _ book
  | commit windows =>
    simp only [Book.step] at step
    split at step
    · cases step
      exact Grows.idle rfl rfl rfl
    · cases step

theorem tracks_of_reachable (reachable : (bookMachine ops).Reachable book) :
    ∃ seed, Tracks id seed book.aggregator book.ledger := by
  apply reachable.invariant
  · rintro state ⟨raw, now, world, built, ledger, _⟩
    have empty := new_empty built
    rw [ledger]
    exact ⟨_, tracks_new id empty.1 empty.2⟩
  · rintro before call after _ ⟨seed, tracks⟩ step
    exact ⟨seed, tracks.step step⟩

/-! ## A pending window is never overwritten -/

theorem Tracks.pending_of_emits {event : Item → Event}
    {aggregator after : Aggregator Sketch World}
    {ledger : Ledger Item} (tracks : Tracks event seed aggregator ledger)
    {keys : List WindowKey} {windows : List AggregateWindow}
    {result : Option Fault}
    (emits : Emits keys aggregator after windows result)
    (bound : ledger.emitted.length + windows.length < 2 ^ 64)
    {window : AggregateWindow}
    (pending : aggregator.pending.lookup identity = some window) :
    after.pending.lookup identity = some window := by
  induction emits generalizing ledger with
  | done | failed => exact pending
  | skipped _ _ induction => exact induction tracks bound pending
  | emitted emitted world present reports next _ _ induction =>
    rw [length_cons] at bound
    have fresh := tracks.identity_fresh next (by omega)
    refine induction (tracks.emit emitted present reports next world) ?_ ?_
    · simp only [Ledger.emit, length_append, length_singleton]
      omega
    · rw [Aggregator.emit, lookup_insert_ne]
      · exact pending
      · rintro rfl
        apply fresh
        rw [← lookup_isSome, pending]
        rfl

theorem lookup_commit_of_notMem
    (windows : List AggregateWindow) (aggregator : Aggregator Sketch World)
    (absent : identity ∉ windows.map AggregateWindow.identity) :
    (aggregator.commit windows).pending.lookup identity =
      aggregator.pending.lookup identity := by
  induction windows generalizing aggregator with
  | nil => rfl
  | cons window rest induction =>
    simp only [map_cons, mem_cons, not_or] at absent
    have later := induction
      { aggregator with
        pending := aggregator.pending.erase window.identity } absent.2
    rw [lookup_erase_ne absent.1] at later
    exact later

/-- Only a commit that names a pending window takes it away. -/
theorem Tracks.pending_step {call : Call} {next : Book Sketch World}
    (tracks : Tracks id seed book.aggregator book.ledger)
    (step : book.step ops call = some next)
    (bound : next.ledger.emitted.length < 2 ^ 64) {window : AggregateWindow}
    (pending : book.aggregator.pending.lookup identity = some window) :
    next.aggregator.pending.lookup identity = some window ∨
      ∃ windows, call = .commit windows ∧
        identity ∈ windows.map AggregateWindow.identity := by
  have collected : ∀ included : WindowKey → Bool,
      (book.collected ops included).ledger.emitted.length < 2 ^ 64 →
        (book.collected ops included).aggregator.pending.lookup identity =
          some window := by
    intro included emissions
    simp only [Book.collected, collect_fst] at emissions ⊢
    have lengths := congrArg List.length
      (windows_emitAll (windowKeyOf book.aggregator.config)
        (book.aggregator.newlyEmitted ops included) book.ledger)
    simp only [windows, length_map, length_append] at lengths
    rw [newlyEmitted] at lengths
    exact tracks.pending_of_emits (collectSelected_emits ops _ _)
      (by rw [← lengths]; exact emissions) pending
  cases call with
  | ingest event =>
    cases step
    left
    simp only [Aggregator.ingest]
    split
    · exact pending
    · rw [(ingestLocked_frame ..).2]
      exact pending
  | ingestBatch batch =>
    cases step
    left
    simp only [Aggregator.ingestBatchItems]
    split
    · exact pending
    · rw [(ingestItems_frame ..).2]
      exact pending
  | collectWindowsBefore | collectAll =>
    cases step
    exact Or.inl (collected _ bound)
  | commit windows =>
    simp only [Book.step] at step
    split at step
    · cases step
      by_cases named : identity ∈ windows.map AggregateWindow.identity
      · exact Or.inr ⟨windows, rfl, named⟩
      · left
        rw [lookup_commit_of_notMem windows _ named]
        exact pending
    · cases step

/--
Conservation.  In every reachable state of fewer than `2^64` emissions, and
for every window, the accepted events are counted by the open state, the
pending windows and the windows removed by a commit: modulo `2^64` for all
three counters, and exactly for the counts below `2^63`.  No call overwrites
a pending window; only a commit that names it removes it.
-/
theorem conservation
    (ops : SketchOps Sketch World) {book : Book Sketch World}
    (reachable : (bookMachine ops).Reachable book)
    (emissions : book.ledger.emitted.length < 2 ^ 64) :
    (∀ key : WindowKey,
      let accepted := book.ledger.accepted.filter fun event =>
        windowKeyOf book.aggregator.config event = key
      tallyOf id accepted = book.aggregator.openTally key +
            tallyAt key (GoMap.values book.aggregator.pending) +
            tallyAt key book.ledger.removed ∧
        (accepted.length < 2 ^ 63 → (accepted.length : Int) =
            (book.aggregator.openTally key).count.toInt +
              exactAt count key (GoMap.values book.aggregator.pending) +
              exactAt count key book.ledger.removed ∧
          ((accepted.countP Event.failed : Nat) : Int) =
            (book.aggregator.openTally key).errorCount.toInt +
              exactAt errorCount key
                (GoMap.values book.aggregator.pending) +
              exactAt errorCount key book.ledger.removed)) ∧
      ∀ call next, book.step ops call = some next →
        next.ledger.emitted.length < 2 ^ 64 → ∀ identity window,
            book.aggregator.pending.lookup identity = some window →
              next.aggregator.pending.lookup identity = some window ∨
                ∃ windows, call = .commit windows ∧
                  identity ∈ windows.map AggregateWindow.identity := by
  obtain ⟨seed, tracks⟩ := tracks_of_reachable reachable
  constructor
  · intro key accepted
    refine ⟨tracks.accepted_tally_of_bound key emissions, ?_⟩
    intro bound
    have failures : accepted.countP Event.failed ≤ accepted.length :=
      countP_le_length
    have counts : ∀ items : List Event, (tallyOf id items).count =
        ofNat (items.countP fun _ => true) := by
      intro items
      rw [countP_true]
      exact sum_tally_count id items
    have exact := tracks.accepted_exact counts key emissions
    rw [countP_true] at exact
    exact ⟨exact bound, tracks.accepted_exact (sum_tally_errorCount id) key
      emissions (lt_of_le_of_lt failures bound)⟩
  · intro call next step bound identity window pending
    exact tracks.pending_step step bound pending

/-! ## A sketch that never fails, and a book that uses it -/

/-- A sketch that keeps nothing and reports zero. -/
def blankSketch : SketchOps Unit Unit where
  newSketch world := (.ok (), world)
  add _ sketch := sketch
  quantile _ _ world := (.ok 0, world)
  max _ := 0

def sampleEvent : Event where
  deviceID := "device-1"
  userID := "user-1"
  processID := 7
  podID := "pod-a"
  kind := EventKind.syscall
  observedAt := ⟨1700000000000000000⟩
  latencyNanos := 1000
  bytes := 64
  failed := true

def sampleConfig : RawConfig where
  windowSize := 10000000000
  relativeAccuracy := 0
  sequenceSeed := 41
  maxOpenWindows := 0

/-- The aggregator that `New` builds from the sample configuration. -/
def sampleAggregator : Aggregator Unit Unit where
  config := {
    windowSize := 10000000000
    maxOpenWindows := 0
    windowSize_pos := by decide
    maxOpenWindows_nonneg := by decide }
  openWindows := ∅
  pending := ∅
  sequence := 41
  shed := 0
  world := ()

def sampleBook : Book Unit Unit := ⟨sampleAggregator, Ledger.empty, []⟩

theorem new_sample :
    new sampleConfig Time.zero () = .ok sampleAggregator := by
  have accurate : ¬ ((1 : ℚ) / 100 < 0 ∨ (1 : ℚ) ≤ 1 / 100) := by
    norm_num
  simp only [new, RawConfig.validate, sampleConfig,
    defaultRelativeError, if_true, accurate]
  rfl

theorem sampleBook_reachable :
    (bookMachine blankSketch).Reachable sampleBook :=
  Machine.Reachable.start ⟨sampleConfig, Time.zero, (), new_sample, rfl, rfl⟩

/-- After one event and one collect: two calls, one pending window. -/
def sampleCalls : List Call := [.ingest sampleEvent, .collectAll]

theorem conservation_sample :
    ∃ book, (bookMachine blankSketch).Reachable book ∧
      book.ledger.emitted.length = 1 ∧
      ∀ key : WindowKey, tallyOf id (book.ledger.accepted.filter fun event =>
            windowKeyOf book.aggregator.config event = key) =
          book.aggregator.openTally key +
            tallyAt key (GoMap.values book.aggregator.pending) +
            tallyAt key book.ledger.removed := by
  have run : ∃ book,
      (bookMachine blankSketch).run sampleBook sampleCalls = some book ∧
        book.ledger.emitted.length = 1 :=
    ⟨_, rfl, by rfl⟩
  obtain ⟨book, ran, single⟩ := run
  have reachable := sampleBook_reachable.run ran
  have conserved := conservation blankSketch reachable
    (by rw [single]; decide)
  exact ⟨book, reachable, single, fun key => (conserved.1 key).1⟩

/-! ## Going around the sequence numbers

One emission is held back while one event after the other is emitted and
committed.  After `2^64` emissions the sequence number of the held one comes
up again, and the collect writes over it.
-/

def sampleKey : WindowKey := windowKeyOf sampleAggregator.config sampleEvent

def sampleState : WindowState Unit :=
  (WindowState.fresh ()).countEvent blankSketch sampleEvent

/-- The window of one sample event under a given sequence number. -/
def sampleWindow (sequence : Int64) : AggregateWindow :=
  emission blankSketch sampleAggregator.config sampleKey sequence
    sampleState 0 0

theorem ingest_sample {aggregator : Aggregator Unit Unit}
    (config : aggregator.config = sampleAggregator.config)
    (opened : aggregator.openWindows = ∅) :
    aggregator.ingest blankSketch sampleEvent = ({ aggregator with
          openWindows := singleton sampleKey sampleState }, none) := by
  have valid : sampleEvent.validate = none := by decide
  have room : aggregator.ceilingReached = false := by
    simp [ceilingReached, config, sampleAggregator]
  simp only [ingest, valid, ingestLocked, opened,
    lookup_empty, room, Bool.false_eq_true, if_false,
    insert_empty, config]
  rfl

theorem collectSelected_sample {aggregator : Aggregator Unit Unit}
    (config : aggregator.config = sampleAggregator.config)
    (opened : aggregator.openWindows =
      AList.singleton sampleKey sampleState) :
    aggregator.collectSelected blankSketch
        (aggregator.selectedKeys fun _ => true) =
      (aggregator.emit sampleKey (sampleWindow (aggregator.sequence + 1)) (),
        [sampleWindow (aggregator.sequence + 1)], none) := by
  have selected : (aggregator.selectedKeys fun _ => true) = [sampleKey] := by
    simp [selectedKeys, opened]
  have present :
      aggregator.openWindows.lookup sampleKey = some sampleState := by
    rw [opened]
    exact dlookup_cons_eq _ _ _
  rw [selected, collectSelected, present]
  simp only [blankSketch, collectSelected, config]
  rfl

/-- A number of laps, each one event emitted and committed. -/
structure Lapped (laps : Nat) (book : Book Unit Unit) : Prop where
  config : book.aggregator.config = sampleAggregator.config
  opened : book.aggregator.openWindows = ∅
  pending : book.aggregator.pending =
    AList.singleton (sampleWindow 42).identity (sampleWindow 42)
  sequence : book.aggregator.sequence = 42 + Int64.ofNat laps
  accepted : book.ledger.accepted = List.replicate (laps + 1) sampleEvent
  removed : (tallyAt sampleKey book.ledger.removed).count = Int64.ofNat laps

/-- One more event, emitted under the next sequence number. -/
theorem emit_sample {book : Book Unit Unit}
    (config : book.aggregator.config = sampleAggregator.config)
    (opened : book.aggregator.openWindows = ∅) :
    ∃ next, (bookMachine blankSketch).run book
        [.ingest sampleEvent, .collectAll] = some next ∧
      next.aggregator.config = sampleAggregator.config ∧
      next.aggregator.openWindows = ∅ ∧
      next.aggregator.pending = book.aggregator.pending.insert
          (sampleWindow (book.aggregator.sequence + 1)).identity
          (sampleWindow (book.aggregator.sequence + 1)) ∧
      next.aggregator.sequence = book.aggregator.sequence + 1 ∧
      next.ledger.accepted = book.ledger.accepted ++ [sampleEvent] ∧
      next.ledger.removed = book.ledger.removed ∧
      sampleWindow (book.aggregator.sequence + 1) ∈ next.returned := by
  refine ⟨_, rfl, ?_⟩
  have ingested := ingest_sample config opened
  have emitted := @collectSelected_sample
    { book.aggregator with
      openWindows := singleton sampleKey sampleState } config rfl
  simp only [Book.collected, collect_fst, ingested, emitted,
    Option.isNone_none, if_true]
  refine ⟨config, ?_, rfl, rfl, ?_, ?_, ?_⟩
  · exact GoMap.erase_insert_of_notMem (notMem_empty _)
  · rw [accepted_emitAll]
    rfl
  · rw [removed_emitAll]
    rfl
  · simp [collect, emitted]

theorem Lapped.next {laps : Nat} {book : Book Unit Unit}
    (lapped : Lapped laps book) (bound : laps + 1 < 2 ^ 64) :
    ∃ window next, (bookMachine blankSketch).run book
        [.ingest sampleEvent, .collectAll, .commit [window]] = some next ∧
      Lapped (laps + 1) next := by
  obtain ⟨middle, ran, config, opened, pending, sequence, accepted,
    removed, returned⟩ := emit_sample lapped.config lapped.opened
  have number : book.aggregator.sequence + 1 = 42 + ofNat (laps + 1) := by
    rw [lapped.sequence, Word.ofNat_succ, add_assoc]
  rw [number] at pending sequence returned
  have different : (sampleWindow (42 + ofNat (laps + 1))).identity ≠
        (sampleWindow 42).identity := by
    intro same
    have sequences := AggregateWindow.sequence_eq_of_identity same
    have zero : 42 + ofNat (laps + 1) = 42 + ofNat 0 := sequences
    have impossible := Word.add_ofNat_injective 42 bound (by decide) zero
    omega
  set window := sampleWindow (42 + ofNat (laps + 1))
  have held : middle.aggregator.pending.lookup window.identity =
      some window := by
    rw [pending, lookup_insert]
  refine ⟨window, { middle with
    aggregator := middle.aggregator.commit [window]
    ledger := middle.ledger.remove
      (deleted [window] middle.aggregator.pending) }, ?_, ?_⟩
  · rw [show ([.ingest sampleEvent, .collectAll, .commit [window]] :
        List Call) =
      [.ingest sampleEvent, .collectAll] ++ [.commit [window]] from rfl,
      Machine.run_append, ran]
    have known : [window] ⊆ middle.returned := by
      simpa using returned
    simp only [Option.bind_some, Machine.run, bookMachine, Book.step,
      known, if_true]
  · constructor
    · exact config
    · exact opened
    · have absent : window.identity ∉ book.aggregator.pending := by
        rw [lapped.pending, AList.mem_keys, AList.keys_singleton]
        simpa using different
      simp only [commit, foldl_cons, foldl_nil, pending]
      rw [GoMap.erase_insert_of_notMem absent, lapped.pending]
    · exact sequence
    · change middle.ledger.accepted = _
      rw [accepted, lapped.accepted, ← List.replicate_succ']
    · simp only [remove, deleted, held, Option.toList_some, append_nil]
      rw [removed, tallyAt_append, add_count, lapped.removed,
        Word.ofNat_succ]
      rfl

theorem lapped_zero :
    ∃ book, (bookMachine blankSketch).Reachable book ∧ Lapped 0 book := by
  obtain ⟨book, ran, config, opened, pending, sequence, accepted, removed,
    -⟩ := @emit_sample sampleBook rfl rfl
  refine ⟨book, sampleBook_reachable.run ran, config, opened, pending,
    sequence, ?_, ?_⟩
  · rw [accepted]
    rfl
  · rw [removed]
    rfl

theorem exists_lapped (laps : Nat) (bound : laps < 2 ^ 64) :
    ∃ book, (bookMachine blankSketch).Reachable book ∧
      Lapped laps book := by
  induction laps with
  | zero => exact lapped_zero
  | succ laps induction =>
    obtain ⟨book, reachable, lapped⟩ := induction (by omega)
    obtain ⟨_, next, ran, lappedNext⟩ := lapped.next bound
    exact ⟨next, reachable.run ran, lappedNext⟩

theorem tallyOf_replicate_sample (amount : Nat) :
    (tallyOf id ((List.replicate amount sampleEvent).filter fun event =>
      windowKeyOf sampleAggregator.config event = sampleKey)).count =
        ofNat amount := by
  have all : ((List.replicate amount sampleEvent).filter fun event =>
      windowKeyOf sampleAggregator.config event = sampleKey) =
        List.replicate amount sampleEvent := by
    rw [filter_eq_self]
    intro event member
    rw [eq_of_mem_replicate member]
    decide
  rw [all, tallyOf, sum_tally_count, length_replicate]

/-- One full turn of the counter: an accepted event is in no part. -/
theorem conservation_fails_after_wraparound :
    ∃ book, (bookMachine blankSketch).Reachable book ∧
      book.ledger.accepted.length = 2 ^ 64 + 1 ∧
      (tallyOf id (book.ledger.accepted.filter fun event =>
          windowKeyOf book.aggregator.config event = sampleKey)).count ≠
        (book.aggregator.openTally sampleKey +
          tallyAt sampleKey (GoMap.values book.aggregator.pending) +
          tallyAt sampleKey book.ledger.removed).count := by
  obtain ⟨book, reachable, lapped⟩ := exists_lapped (2 ^ 64 - 1) (by decide)
  obtain ⟨next, ran, config, opened, pending, sequence, accepted, removed,
    -⟩ := emit_sample lapped.config lapped.opened
  have number : book.aggregator.sequence + 1 = 42 := by
    rw [lapped.sequence]
    decide
  have overwritten : next.aggregator.pending =
      AList.singleton (sampleWindow 42).identity (sampleWindow 42) := by
    rw [pending, number, lapped.pending]
    rfl
  refine ⟨next, reachable.run ran, ?_, ?_⟩
  · rw [accepted, lapped.accepted, length_append, length_replicate]
    rfl
  · rw [config, accepted, lapped.accepted, ← List.replicate_succ',
      tallyOf_replicate_sample, add_count, add_count, removed,
      lapped.removed, overwritten, Aggregator.openTally, opened]
    decide

end Ironclaw.Aggregate
