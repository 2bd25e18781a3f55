import Ironclaw.Domain.Key
import Ironclaw.Lib.GoMap
import Mathlib.Data.List.Sort
import Mathlib.Data.Rat.Defs

/-!
# The aggregator

Events are counted per correlation key and tumbling window.  A collect moves
open windows into the pending map under a fresh identity; a commit removes
windows that a publisher has accepted.  Pending windows are returned by every
collect until they are committed.

The sketch of a window is injected.  `SketchOps` threads a world of arbitrary
type through the calls that may fail, so one instance fails at any chosen
call.
-/

namespace Ironclaw.Aggregate

open Lib Domain

def errInvalidWindowSize : Fault :=
  .sentinel "aggregate: window size must be positive"
def errInvalidKeyCeiling : Fault :=
  .sentinel "aggregate: the open-window ceiling must not be negative"
def errTooManyKeys : Fault :=
  .sentinel "aggregate: correlation key ceiling reached, event shed"
def errInvalidAccuracy : Fault :=
  .sentinel "aggregate: relative accuracy must be in (0,1)"

/-- A quantile sketch and its factory, over a world the calls may consult. -/
structure SketchOps (Sketch World : Type) where
  newSketch : World → Except Fault Sketch × World
  add : Int64 → Sketch → Sketch
  quantile : ℚ → Sketch → World → Except Fault Int64 × World
  max : Sketch → Int64

/-- A factory that never fails. -/
def SketchOps.Opens
    {Sketch World : Type} (ops : SketchOps Sketch World) : Prop :=
  ∀ world, ∃ sketch next, ops.newSketch world = (.ok sketch, next)

/--
A sketch that never fails to be made or to report a quantile between 0 and 1,
like the one used by default.
-/
structure SketchOps.Reliable
    {Sketch World : Type} (ops : SketchOps Sketch World) : Prop where
  newSketch : ops.Opens
  quantile : ∀ rank sketch world, 0 ≤ rank → rank ≤ 1 → ∃ value next,
    ops.quantile rank sketch world = (.ok value, next)

/-- The configuration as it is written, before `New` checks it. -/
structure RawConfig where
  windowSize : Int64
  relativeAccuracy : ℚ
  sequenceSeed : Int64
  maxOpenWindows : Int
deriving DecidableEq, Repr

/-- A configuration that `New` has accepted. -/
structure Config where
  windowSize : Int64
  maxOpenWindows : Int
  windowSize_pos : 0 < windowSize
  maxOpenWindows_nonneg : 0 ≤ maxOpenWindows
deriving DecidableEq, Repr

/-- A correlation key in one tumbling window. -/
structure WindowKey where
  correlation : CorrelationKey
  windowID : Int64
deriving DecidableEq, Repr

/-- What an open window has counted. -/
structure WindowState (Sketch : Type) where
  count : Int64
  errorCount : Int64
  bytes : Int64
  sketch : Sketch
deriving DecidableEq, Repr

/-- The aggregator, and the state of its sketches. -/
structure Aggregator (Sketch World : Type) where
  config : Config
  openWindows : GoMap WindowKey (WindowState Sketch)
  pending : GoMap String AggregateWindow
  sequence : Int64
  shed : Int64
  world : World

variable {Sketch World : Type}

/-! ## Construction -/

/-- The relative accuracy used when none is configured. -/
def defaultRelativeError : ℚ := 1 / 100

/-- The checks of a configuration, and the configuration that passed them. -/
def RawConfig.validate (raw : RawConfig) : Except Fault Config :=
  if positive : 0 < raw.windowSize then
    if raw.relativeAccuracy < 0 ∨ 1 ≤ raw.relativeAccuracy then
      .error errInvalidAccuracy
    else if nonneg : 0 ≤ raw.maxOpenWindows then
      .ok {
        windowSize := raw.windowSize
        maxOpenWindows := raw.maxOpenWindows
        windowSize_pos := positive
        maxOpenWindows_nonneg := nonneg }
    else .error errInvalidKeyCeiling
  else .error errInvalidWindowSize

/-- A new aggregator; a zero seed takes the clock reading `now`. -/
def Aggregator.new
    (raw : RawConfig) (now : Time) (world : World) :
    Except Fault (Aggregator Sketch World) :=
  let accuracy :=
    if raw.relativeAccuracy = 0 then defaultRelativeError
    else raw.relativeAccuracy
  match { raw with relativeAccuracy := accuracy }.validate with
  | .error fault => .error fault
  | .ok config =>
    .ok {
      config
      openWindows := ∅
      pending := ∅
      sequence :=
        if raw.sequenceSeed = 0 then now.unixNano else raw.sequenceSeed
      shed := 0
      world }

/-! ## Ingest -/

def windowIDAt (config : Config) (time : Time) : Int64 :=
  time.unixNano / config.windowSize

/-- The open window an event is counted in. -/
def windowKeyOf (config : Config) (event : Event) : WindowKey where
  correlation := event.correlationKey
  windowID := windowIDAt config event.observedAt

/-- The state of a window that has counted nothing yet. -/
def WindowState.fresh (sketch : Sketch) : WindowState Sketch where
  count := 0
  errorCount := 0
  bytes := 0
  sketch := sketch

/-- Count one event in the state of its window. -/
def WindowState.countEvent
    (ops : SketchOps Sketch World)
    (state : WindowState Sketch) (event : Event) :
    WindowState Sketch where
  count := state.count + 1
  errorCount :=
    if event.failed then state.errorCount + 1 else state.errorCount
  bytes := state.bytes + event.bytes
  sketch := ops.add event.latencyNanos state.sketch

namespace Aggregator

def heldWindows (aggregator : Aggregator Sketch World) : Nat :=
  GoMap.size aggregator.openWindows + GoMap.size aggregator.pending

/-- Whether the key ceiling forbids opening another window. -/
def ceilingReached (aggregator : Aggregator Sketch World) : Bool :=
  0 < aggregator.config.maxOpenWindows &&
    aggregator.config.maxOpenWindows ≤ aggregator.heldWindows

/-- Count one event, opening its window where the ceiling allows it. -/
def ingestLocked
    (ops : SketchOps Sketch World) (event : Event)
    (aggregator : Aggregator Sketch World) :
    Aggregator Sketch World × Option Fault :=
  let key := windowKeyOf aggregator.config event
  match aggregator.openWindows.lookup key with
  | some state =>
    ({ aggregator with
        openWindows :=
          aggregator.openWindows.insert key (state.countEvent ops event) },
      none)
  | none =>
    if aggregator.ceilingReached then
      ({ aggregator with shed := aggregator.shed + 1 }, some errTooManyKeys)
    else
      match ops.newSketch aggregator.world with
      | (.error fault, world) =>
        ({ aggregator with world := world }, some fault)
      | (.ok sketch, world) =>
        ({ aggregator with
            openWindows :=
              aggregator.openWindows.insert key
                ((WindowState.fresh sketch).countEvent ops event)
            world := world },
          none)

/-- Count a valid event. -/
def ingest
    (ops : SketchOps Sketch World) (event : Event)
    (aggregator : Aggregator Sketch World) :
    Aggregator Sketch World × Option Fault :=
  match event.validate with
  | some fault => (aggregator, some fault)
  | none => aggregator.ingestLocked ops event

/--
The locked loop of `IngestBatch`, over items that carry an event.  It returns
the items that were counted: a shed event is skipped, any other failure ends
the loop and keeps what was counted before it.
-/
def ingestItems
    {Item : Type} (ops : SketchOps Sketch World) (event : Item → Event) :
    List Item → Aggregator Sketch World →
      Aggregator Sketch World × List Item × Option Fault
  | [], aggregator => (aggregator, [], none)
  | item :: rest, aggregator =>
    match aggregator.ingestLocked ops (event item) with
    | (counted, none) =>
      let result := ingestItems ops event rest counted
      (result.1, item :: result.2.1, result.2.2)
    | (refused, some fault) =>
      if fault.is errTooManyKeys then
        ingestItems ops event rest refused
      else (refused, [], some fault)

/-- `IngestBatch` over items: every event is checked before any is counted. -/
def ingestBatchItems
    {Item : Type} (ops : SketchOps Sketch World) (event : Item → Event)
    (items : List Item) (aggregator : Aggregator Sketch World) :
    Aggregator Sketch World × List Item × Option Fault :=
  match (items.map event).findSome? Event.validate with
  | some fault => (aggregator, [], some fault)
  | none => aggregator.ingestItems ops event items

/-- Count the events of a batch, if all are valid. -/
def ingestBatch
    (ops : SketchOps Sketch World) (batch : Batch)
    (aggregator : Aggregator Sketch World) :
    Aggregator Sketch World × Option Fault :=
  let result := aggregator.ingestBatchItems ops id batch.events
  (result.1, result.2.2)

end Aggregator

/-! ## Collect and commit -/

/-- The order in which a collect emits open windows. -/
def WindowKey.before (key other : WindowKey) : Bool :=
  if key.windowID ≠ other.windowID then
    key.windowID < other.windowID
  else if key.correlation.userID ≠ other.correlation.userID then
    key.correlation.userID < other.correlation.userID
  else if key.correlation.deviceID ≠ other.correlation.deviceID then
    key.correlation.deviceID < other.correlation.deviceID
  else if key.correlation.processID ≠ other.correlation.processID then
    key.correlation.processID < other.correlation.processID
  else key.correlation.podID < other.correlation.podID

/-- The window emitted for an open key under a given sequence number. -/
def emission
    (ops : SketchOps Sketch World) (config : Config)
    (key : WindowKey) (sequence : Int64)
    (state : WindowState Sketch) (p95 p99 : Int64) :
    AggregateWindow :=
  let start := Time.unix (key.windowID * config.windowSize)
  { key := key.correlation
    windowID := key.windowID
    sequence := sequence
    windowStart := start
    windowEnd := start.add config.windowSize
    count := state.count
    errorCount := state.errorCount
    bytes := state.bytes
    p95Nanos := p95
    p99Nanos := p99
    maxNanos := ops.max state.sketch }

namespace Aggregator

/-- Move one emission from the open to the pending windows. -/
def emit
    (key : WindowKey) (window : AggregateWindow) (world : World)
    (aggregator : Aggregator Sketch World) :
    Aggregator Sketch World :=
  { aggregator with
    openWindows := aggregator.openWindows.erase key
    pending := aggregator.pending.insert window.identity window
    sequence := window.sequence
    world := world }

/--
The emission loop of a collect over the selected keys.  It returns the
emitted windows; a failing quantile ends the loop and keeps what was emitted
before it.
-/
def collectSelected (ops : SketchOps Sketch World) :
    List WindowKey → Aggregator Sketch World →
      Aggregator Sketch World × List AggregateWindow × Option Fault
  | [], aggregator => (aggregator, [], none)
  | key :: rest, aggregator =>
    match aggregator.openWindows.lookup key with
    -- Selected keys are open and distinct, so this branch is not taken.
    | none => collectSelected ops rest aggregator
    | some state =>
      match ops.quantile (95 / 100) state.sketch aggregator.world with
      | (.error fault, world) =>
        ({ aggregator with world := world }, [], some fault)
      | (.ok p95, world) =>
        match ops.quantile (99 / 100) state.sketch world with
        | (.error fault, world) =>
          ({ aggregator with world := world }, [], some fault)
        | (.ok p99, world) =>
          let window :=
            emission ops aggregator.config key
              (aggregator.sequence + 1) state p95 p99
          let result :=
            collectSelected ops rest
              (aggregator.emit key window world)
          (result.1, window :: result.2.1, result.2.2)

def selectedKeys
    (included : WindowKey → Bool) (aggregator : Aggregator Sketch World) :
    List WindowKey :=
  (aggregator.openWindows.keys.filter included).insertionSort
    fun left right => right.before left = false

def pendingInOrder (aggregator : Aggregator Sketch World) :
    List AggregateWindow :=
  (GoMap.values aggregator.pending).insertionSort
    fun left right => ¬ right.identity < left.identity

/-- Emit the open windows selected, after those still pending. -/
def collect
    (ops : SketchOps Sketch World) (included : WindowKey → Bool)
    (aggregator : Aggregator Sketch World) :
    Aggregator Sketch World × List AggregateWindow × Option Fault :=
  let result :=
    aggregator.collectSelected ops (aggregator.selectedKeys included)
  match result.2.2 with
  | some fault => (result.1, [], some fault)
  | none => (result.1, aggregator.pendingInOrder ++ result.2.1, none)

/-- Emit the windows before that of the watermark. -/
def collectWindowsBefore
    (ops : SketchOps Sketch World) (watermark : Time)
    (aggregator : Aggregator Sketch World) :
    Aggregator Sketch World × List AggregateWindow × Option Fault :=
  aggregator.collect ops fun key =>
    key.windowID < windowIDAt aggregator.config watermark

/-- Emit every open window. -/
def collectAll
    (ops : SketchOps Sketch World)
    (aggregator : Aggregator Sketch World) :
    Aggregator Sketch World × List AggregateWindow × Option Fault :=
  aggregator.collect ops fun _ => true

/-- Forget emissions that were published. -/
def commit
    (windows : List AggregateWindow)
    (aggregator : Aggregator Sketch World) :
    Aggregator Sketch World :=
  { aggregator with
    pending := windows.foldl
      (fun pending window => pending.erase window.identity)
      aggregator.pending }

end Aggregator

end Ironclaw.Aggregate
