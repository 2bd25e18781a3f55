import Ironclaw.Aggregate.Collect
import Ironclaw.Aggregate.Conservation

/-!
# The key ceiling

The windows held are the open ones and those that no publisher has taken yet.
With a ceiling, no window is opened while that many are held, so a publisher
that never commits stalls new keys and nothing else.

An event that finds no room is shed and counted as such, in a counter that
wraps.
-/

namespace Ironclaw.Aggregate

open Lib Domain Option Int64 Aggregator List

variable {Sketch World Item : Type}
variable {ops : SketchOps Sketch World}
variable {aggregator after : Aggregator Sketch World} {event : Event}

namespace Aggregator

/-! ## The windows held -/

/-- With a ceiling, no more windows are held than it allows. -/
def Capped (aggregator : Aggregator Sketch World) : Prop :=
  0 < aggregator.config.maxOpenWindows →
    (aggregator.heldWindows : Int) ≤ aggregator.config.maxOpenWindows

theorem ceilingReached_iff (aggregator : Aggregator Sketch World) :
    aggregator.ceilingReached = true ↔ 0 < aggregator.config.maxOpenWindows ∧
        aggregator.config.maxOpenWindows ≤ aggregator.heldWindows := by
  simp [ceilingReached]

theorem Capped.mono
    (capped : aggregator.Capped) (config : after.config = aggregator.config)
    (fewer : after.heldWindows ≤ aggregator.heldWindows) : after.Capped := by
  intro ceiling
  rw [config] at ceiling ⊢
  have before := capped ceiling
  omega

theorem Capped.ingestLocked
    {fault : Option Fault} (capped : aggregator.Capped)
    (ingested : aggregator.ingestLocked ops event = (after, fault)) :
    after.Capped := by
  cases ingestLocked_ingested ingested with
  | counted state present =>
    apply capped.mono
    · rfl
    · rw [heldWindows, heldWindows, GoMap.size_insert,
        GoMap.size_of_lookup present]
  | shed | failed => exact capped
  | opened sketch world absent room factory =>
    intro ceiling
    have before : ¬aggregator.config.maxOpenWindows ≤
        aggregator.heldWindows := by
      intro full
      rw [(aggregator.ceilingReached_iff).mpr ⟨ceiling, full⟩] at room
      cases room
    have erased := GoMap.size_erase_le aggregator.openWindows
      (windowKeyOf aggregator.config event)
    rw [heldWindows] at before ⊢
    simp only [GoMap.size_insert] at ceiling ⊢
    omega

theorem Capped.ingestItems
    {event : Item → Event} (items : List Item) (capped : aggregator.Capped) :
    (aggregator.ingestItems ops event items).1.Capped := by
  apply ingestItems_keeps Capped _ items capped
  intro event middle held
  exact held.ingestLocked rfl

theorem heldWindows_emit_le {key : WindowKey} {state : WindowState Sketch}
    (present : aggregator.openWindows.lookup key = some state)
    (window : AggregateWindow) (world : World) :
    (aggregator.emit key window world).heldWindows ≤
      aggregator.heldWindows := by
  have erased := GoMap.size_of_lookup present
  have room := GoMap.size_erase_le aggregator.pending window.identity
  simp only [heldWindows, emit, GoMap.size_insert]
  omega

theorem Capped.emits
    {keys : List WindowKey} {windows : List AggregateWindow}
    {result : Option Fault} {after : Aggregator Sketch World}
    (capped : aggregator.Capped)
    (emits : Emits keys aggregator after windows result) : after.Capped := by
  induction emits with
  | done | failed => exact capped
  | skipped _ _ induction => exact induction capped
  | emitted window world present _ _ _ _ induction =>
    exact induction
      (capped.mono rfl (heldWindows_emit_le present window world))

theorem Capped.collect
    (included : WindowKey → Bool) (capped : aggregator.Capped) :
    (aggregator.collect ops included).1.Capped := by
  rw [collect_fst]
  exact capped.emits (collectSelected_emits ops _ aggregator)

theorem Capped.commit
    (windows : List AggregateWindow) (capped : aggregator.Capped) :
    (aggregator.commit windows).Capped := by
  have fewer : ∀ pending : GoMap String AggregateWindow,
      GoMap.size (windows.foldl
        (fun pending window => pending.erase window.identity) pending) ≤
          GoMap.size pending := by
    induction windows with
    | nil => exact fun pending => le_refl _
    | cons window rest induction =>
      intro pending
      exact (induction _).trans (GoMap.size_erase_le _ _)
  apply capped.mono
  · rfl
  · exact Nat.add_le_add_left (fewer aggregator.pending) _

end Aggregator

/-! ## What is shed -/

/-- One event is counted, or shed, or its window could not be opened. -/
theorem ingestLocked_shed {fault : Option Fault}
    (ingested : aggregator.ingestLocked ops event = (after, fault)) :
    (fault = none ∧ after.shed = aggregator.shed) ∨
      (fault = some errTooManyKeys ∧ after.shed = aggregator.shed + 1 ∧
        aggregator.openWindows.lookup
          (windowKeyOf aggregator.config event) = none ∧
        aggregator.ceilingReached = true) ∨
      (fault ≠ none ∧ after.shed = aggregator.shed ∧ ¬ops.Opens ∧
        aggregator.openWindows.lookup
          (windowKeyOf aggregator.config event) = none) := by
  cases ingestLocked_ingested ingested with
  | counted | opened => exact Or.inl ⟨rfl, rfl⟩
  | shed absent full => exact Or.inr (Or.inl ⟨rfl, rfl, absent, full⟩)
  | failed fault world absent room factory =>
    refine Or.inr (Or.inr ⟨some_ne_none _, rfl, ?_, absent⟩)
    intro opens
    rcases opens aggregator.world with ⟨sketch, next, opened⟩
    rw [opened] at factory
    cases factory

/-- With a factory that never fails, a batch is counted or shed. -/
theorem ingestItems_shed
    (opens : ops.Opens) (event : Item → Event) (items : List Item)
    (aggregator : Aggregator Sketch World) :
    ∃ lost, items.length =
        (aggregator.ingestItems ops event items).2.1.length + lost ∧
      (aggregator.ingestItems ops event items).1.shed =
        aggregator.shed + ofNat lost := by
  induction items generalizing aggregator with
  | nil => exact ⟨0, rfl, (add_zero _).symm⟩
  | cons item rest induction =>
    rw [ingestItems]
    rcases outcome : aggregator.ingestLocked ops (event item) with
      ⟨middle, fault⟩
    rcases induction middle with ⟨lost, counted, shed⟩
    rcases ingestLocked_shed outcome with
      ⟨rfl, same⟩ | ⟨rfl, more, -, -⟩ | ⟨-, -, fails, -⟩
    · refine ⟨lost, ?_, ?_⟩
      · simp only [length_cons]
        omega
      · rw [← same]
        exact shed
    · refine ⟨lost + 1, ?_, ?_⟩
      · simp only [Fault.is_self, if_true, length_cons]
        omega
      · simp only [Fault.is_self, if_true]
        rw [shed, more, Word.ofNat_succ, add_assoc, add_comm 1]
    · exact absurd opens fails

/-! ## The machine -/

/-- An aggregator, the events of valid calls, and those counted of them. -/
structure Meter (Sketch World : Type) where
  aggregator : Aggregator Sketch World
  submitted : Nat
  counted : Nat

namespace Meter

def perform (ops : SketchOps Sketch World) (meter : Meter Sketch World) :
    Call → Meter Sketch World
  | .ingest event =>
    let result := meter.aggregator.ingest ops event
    { aggregator := result.1
      submitted :=
        if event.validate.isNone then meter.submitted + 1
        else meter.submitted
      counted :=
        if result.2.isNone then meter.counted + 1 else meter.counted }
  | .ingestBatch batch =>
    let result := meter.aggregator.ingestBatchItems ops id batch.events
    { aggregator := result.1
      submitted :=
        if batch.events.all fun event => event.validate.isNone then
          meter.submitted + batch.events.length
        else meter.submitted
      counted := meter.counted + result.2.1.length }
  | .collectWindowsBefore watermark =>
    { meter with
      aggregator :=
        (meter.aggregator.collectWindowsBefore ops watermark).1 }
  | .collectAll =>
    { meter with aggregator := (meter.aggregator.collectAll ops).1 }
  | .commit windows =>
    { meter with aggregator := meter.aggregator.commit windows }

/-- Every event of a valid call was counted or lost to the ceiling. -/
def Balanced (meter : Meter Sketch World) : Prop :=
  ∃ lost, meter.submitted = meter.counted + lost ∧
    meter.aggregator.shed = Int64.ofNat lost

end Meter

/-- Any aggregator that `New` builds, and any calls on it. -/
def meterMachine (ops : SketchOps Sketch World) :
    Machine (Meter Sketch World) Call where
  initial meter :=
    (∃ raw now world, Aggregator.new raw now world = .ok meter.aggregator) ∧
      meter.submitted = 0 ∧ meter.counted = 0
  step meter call := some (meter.perform ops call)

variable {meter : Meter Sketch World}

theorem Meter.capped_perform
    (capped : meter.aggregator.Capped) (call : Call) :
    (meter.perform ops call).aggregator.Capped := by
  cases call with
  | ingest event =>
    simp only [perform, ingest]
    split
    · exact capped
    · exact capped.ingestLocked rfl
  | ingestBatch batch =>
    simp only [perform, ingestBatchItems]
    split
    · exact capped
    · exact capped.ingestItems batch.events
  | collectWindowsBefore | collectAll => exact capped.collect _
  | commit windows => exact capped.commit windows

theorem validate_findSome (events : List Event) :
    ((events.map id).findSome? Event.validate).isNone =
      events.all fun event => event.validate.isNone := by
  rw [List.map_id]
  induction events with
  | nil => rfl
  | cons event rest induction =>
    rw [List.findSome?_cons, List.all_cons]
    cases event.validate with
    | none => exact induction
    | some fault => rfl

theorem Meter.balanced_perform
    (opens : ops.Opens) (balanced : meter.Balanced) (call : Call) :
    (meter.perform ops call).Balanced := by
  rcases balanced with ⟨lost, counted, shed⟩
  cases call with
  | ingest event =>
    cases valid : event.validate with
    | some fault =>
      simp only [perform, ingest, valid]
      exact ⟨lost, counted, shed⟩
    | none =>
      simp only [perform, ingest, valid]
      rcases outcome : meter.aggregator.ingestLocked ops event with
        ⟨after, fault⟩
      rcases ingestLocked_shed outcome with
        ⟨rfl, same⟩ | ⟨rfl, more, -, -⟩ | ⟨-, -, fails, -⟩
      · refine ⟨lost, ?_, same.trans shed⟩
        simp only [isNone_none, if_true]
        omega
      · refine ⟨lost + 1, ?_, ?_⟩
        · simp only [isNone_none, isNone_some, if_true,
            Bool.false_eq_true, if_false]
          omega
        · rw [Word.ofNat_succ, ← shed]
          exact more
      · exact absurd opens fails
  | ingestBatch batch =>
    have verdict := validate_findSome batch.events
    simp only [perform, ingestBatchItems]
    rw [← verdict]
    split
    · rename_i fault refused
      rw [refused]
      exact ⟨lost, counted, shed⟩
    · rename_i valid
      rw [valid]
      rcases ingestItems_shed opens id batch.events meter.aggregator
        with ⟨more, length, sum⟩
      refine ⟨lost + more, ?_, ?_⟩
      · simp only [isNone_none, if_true]
        omega
      · rw [sum, shed, ofNat_add]
  | collectWindowsBefore | collectAll =>
    exact ⟨lost, counted, (shed_collect ops _ _).trans shed⟩
  | commit windows => exact ⟨lost, counted, shed⟩

theorem shed_new {raw : RawConfig} {now : Time} {world : World}
    (built : Aggregator.new raw now world = .ok aggregator) :
    aggregator.shed = 0 := by
  rw [new] at built
  split at built
  · cases built
  · cases built
    rfl

theorem Meter.capped_of_reachable
    (reachable : (meterMachine ops).Reachable meter) :
    meter.aggregator.Capped := by
  apply reachable.invariant
  · rintro state ⟨⟨raw, now, world, built⟩, -, -⟩ ceiling
    have empty := new_empty built
    simp only [heldWindows, empty.1, empty.2, GoMap.size_empty]
    exact le_of_lt ceiling
  · intro before call after _ capped step
    cases step
    exact capped_perform capped call

theorem Meter.balanced_of_reachable
    (opens : ops.Opens) (reachable : (meterMachine ops).Reachable meter) :
    meter.Balanced := by
  apply reachable.invariant
  · rintro state ⟨⟨raw, now, world, built⟩, submitted, counted⟩
    refine ⟨0, ?_, ?_⟩
    · rw [submitted, counted]
    · exact shed_new built
  · intro before call after _ balanced step
    cases step
    exact balanced_perform opens balanced call

/-- What an event meets in a state below the ceiling. -/
theorem Aggregator.Capped.meets (capped : aggregator.Capped) (event : Event) :
    ((aggregator.ingestLocked ops event).1.shed ≠ aggregator.shed →
      aggregator.openWindows.lookup
          (windowKeyOf aggregator.config event) = none ∧
        (aggregator.heldWindows : Int) = aggregator.config.maxOpenWindows) ∧
      (aggregator.openWindows.lookup
          (windowKeyOf aggregator.config event) ≠ none →
        (aggregator.ingestLocked ops event).2 = none ∧
          (aggregator.ingestLocked ops event).1.shed = aggregator.shed) := by
  rcases outcome : aggregator.ingestLocked ops event with ⟨after, fault⟩
  rcases ingestLocked_shed outcome with
    ⟨rfl, same⟩ | ⟨rfl, more, absent, full⟩ | ⟨-, same, -, absent⟩
  · exact ⟨fun changed => absurd same changed, fun _ => ⟨rfl, same⟩⟩
  · rcases (aggregator.ceilingReached_iff).mp full with ⟨ceiling, reached⟩
    constructor
    · exact fun _ => ⟨absent, le_antisymm (capped ceiling) reached⟩
    · exact fun present => absurd absent present
  · exact ⟨fun changed => absurd same changed,
      fun present => absurd absent present⟩

/-- A ceiling of one window. -/
def tightConfig : RawConfig := { sampleConfig with maxOpenWindows := 1 }

theorem tightConfig_nonneg : 0 ≤ tightConfig.maxOpenWindows := by
  decide

def tightAggregator : Aggregator Unit Unit :=
  { sampleAggregator with
    config := {
      windowSize := sampleAggregator.config.windowSize
      maxOpenWindows := tightConfig.maxOpenWindows
      windowSize_pos := sampleAggregator.config.windowSize_pos
      maxOpenWindows_nonneg := tightConfig_nonneg } }

theorem new_tight :
    new tightConfig Time.zero () = .ok tightAggregator := by
  have accurate : ¬ ((1 : ℚ) / 100 < 0 ∨ (1 : ℚ) ≤ 1 / 100) := by
    norm_num
  simp only [new, RawConfig.validate, tightConfig, sampleConfig,
    defaultRelativeError, if_true, accurate]
  rfl

def tightMeter : Meter Unit Unit := ⟨tightAggregator, 0, 0⟩

theorem tightMeter_reachable :
    (meterMachine blankSketch).Reachable tightMeter :=
  Machine.Reachable.start ⟨⟨tightConfig, Time.zero, (), new_tight⟩, rfl, rfl⟩

/-- An event of another pod, whose window is another one. -/
def otherEvent : Event := { sampleEvent with podID := "pod-b" }

/-- The meter after a collect that no commit follows. -/
def stalledMeter : Meter Unit Unit :=
  ((tightMeter.perform blankSketch (.ingest sampleEvent)).perform
    blankSketch .collectAll).perform blankSketch (.ingest otherEvent)

theorem stalledMeter_reachable :
    (meterMachine blankSketch).Reachable stalledMeter :=
  ((tightMeter_reachable.next rfl).next rfl).next rfl

/-- The stalled publisher holds the one window, and the event was shed. -/
example : stalledMeter.submitted = 2 ∧ stalledMeter.counted = 1 ∧
      stalledMeter.aggregator.shed = 1 := by
  decide

/-! ### The shed counter wraps -/

theorem ingestItems_replicate_shed
    (absent : aggregator.openWindows.lookup
      (windowKeyOf aggregator.config event) = none)
    (full : aggregator.ceilingReached = true) (amount : Nat) :
    aggregator.ingestItems ops id (List.replicate amount event) =
      ({ aggregator with shed := aggregator.shed + ofNat amount },
        [], none) := by
  induction amount generalizing aggregator with
  | zero =>
    rw [replicate_zero, ingestItems, Word.ofNat_zero, add_zero]
  | succ amount induction =>
    have refused : aggregator.ingestLocked ops (id event) =
        ({ aggregator with shed := aggregator.shed + 1 },
          some errTooManyKeys) := by
      simp only [ingestLocked, id_eq, absent, full, if_true]
    have later := @induction
      { aggregator with shed := aggregator.shed + 1 } absent full
    rw [replicate_succ, ingestItems, refused]
    simp only [Fault.is_self, if_true]
    rw [later, Word.ofNat_succ, add_comm (ofNat amount) 1, ← add_assoc]

/-- Events of another window than the one that is open. -/
def floodBatch (amount : Nat) : Batch where
  deviceID := "device-1"
  createdAt := ⟨1700000000000000000⟩
  events := List.replicate amount otherEvent

def busyMeter : Meter Unit Unit :=
  tightMeter.perform blankSketch (.ingest sampleEvent)

/-- The meter after one window and a batch without room. -/
def floodedMeter (amount : Nat) : Meter Unit Unit :=
  busyMeter.perform blankSketch (.ingestBatch (floodBatch amount))

theorem floodedMeter_reachable (amount : Nat) :
    (meterMachine blankSketch).Reachable (floodedMeter amount) :=
  (tightMeter_reachable.next rfl).next rfl

theorem floodedMeter_eq (amount : Nat) :
    floodedMeter amount =
      { aggregator := { busyMeter.aggregator with shed := ofNat amount }
        submitted := 1 + amount
        counted := 1 } := by
  have valid : ∀ event ∈ (floodBatch amount).events,
      event.validate = none := by
    intro event member
    rw [eq_of_mem_replicate member]
    decide
  have passed : ((floodBatch amount).events.map id).findSome?
      Event.validate = none := by
    rw [List.map_id]
    exact List.findSome?_eq_none_iff.mpr valid
  have all : ((floodBatch amount).events.all fun event =>
      event.validate.isNone) = true := by
    rw [← validate_findSome, passed]
    rfl
  have shed := @ingestItems_replicate_shed _ _ blankSketch
    busyMeter.aggregator otherEvent (by decide) (by decide) amount
  have length : (floodBatch amount).events.length = amount := length_replicate
  simp only [floodedMeter, Meter.perform, ingestBatchItems,
    passed, all, if_true, length]
  rw [show (floodBatch amount).events = replicate amount otherEvent
    from rfl, shed]
  have start : busyMeter.aggregator.shed = 0 := by decide
  have first : busyMeter.submitted = 1 ∧ busyMeter.counted = 1 := by decide
  rw [start, zero_add, first.1, first.2]
  rfl

/-- The largest batch that a slice holds, and one more event. -/
def wrappedMeter : Meter Unit Unit :=
  (floodedMeter (2 ^ 63 - 1)).perform blankSketch (.ingest otherEvent)

end Ironclaw.Aggregate
