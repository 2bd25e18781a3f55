import Ironclaw.Domain.Event
import Ironclaw.Lib.Machine
import Ironclaw.Lib.Word

/-!
# The batcher of an agent

A collector reads events and flushes them as batches into a bounded queue; a
sender takes batches from the queue and hands them to the transport.  The two
run at once, and what happens when the queue is full is up to an overflow
strategy, which may take a batch out of the queue that the sender drains.

Every branch of a `select` and every operation on the queue is a step of its
own.  Beside the state of the source the machine keeps the accepted events,
the flushed batches, and what became of each batch.
-/

namespace Ironclaw.Pipeline

open Lib Domain

def errInvalidMaxEvents : Fault :=
  .sentinel "pipeline: max events must be positive"
def errInvalidInterval : Fault :=
  .sentinel "pipeline: max interval must be positive"
def errInvalidQueueDepth : Fault :=
  .sentinel "pipeline: queue depth must be positive"
def errNilSource : Fault := .sentinel "pipeline: event source is nil"
def errNilTransport : Fault := .sentinel "pipeline: transport is nil"

/-- The error of a context that was cancelled. -/
def errCanceled : Fault := .sentinel "context canceled"

/-! ## Configuration -/

/-- The overflow policy: an open enumeration of one byte. -/
structure OverflowPolicy where
  code : UInt8
deriving DecidableEq

namespace OverflowPolicy

def dropOldest : OverflowPolicy := ⟨0⟩
def dropNewest : OverflowPolicy := ⟨1⟩
def block : OverflowPolicy := ⟨2⟩

end OverflowPolicy

/-- The built-in overflow strategies. -/
inductive Strategy where
  | dropOldest
  | dropNewest
  | blocking
deriving DecidableEq

/-- An unknown policy drops the oldest. -/
def strategyFor (policy : OverflowPolicy) : Strategy :=
  if policy = .dropNewest then .dropNewest
  else if policy = .block then .blocking
  else .dropOldest

/-- `flushSignal` says whether a channel of flush ticks is given. -/
structure BatcherConfig where
  deviceID : String
  maxEvents : Int64
  maxInterval : Int64
  queueDepth : Int64
  policy : OverflowPolicy
  flushSignal : Bool

def BatcherConfig.validate (config : BatcherConfig) : Option Fault :=
  if config.deviceID = "" then some errMissingDeviceID
  else if config.maxEvents ≤ 0 then some errInvalidMaxEvents
  else if config.maxInterval ≤ 0 ∧ config.flushSignal = false then
    some errInvalidInterval
  else if config.queueDepth ≤ 0 then some errInvalidQueueDepth
  else none

/-- A configuration that a batcher can be built from. -/
structure Settings where
  config : BatcherConfig
  valid : config.validate = none

namespace Settings

def deviceID (settings : Settings) : String := settings.config.deviceID

def maxEvents (settings : Settings) : Nat :=
  settings.config.maxEvents.toInt.toNat

def queueDepth (settings : Settings) : Nat :=
  settings.config.queueDepth.toInt.toNat

def strategy (settings : Settings) : Strategy :=
  strategyFor settings.config.policy

theorem bounds (settings : Settings) :
    settings.deviceID ≠ "" ∧ 0 < settings.maxEvents ∧
      0 < settings.queueDepth := by
  have valid := settings.valid
  simp only [BatcherConfig.validate, Int64.le_iff_toInt_le] at valid
  have zero : (0 : Int64).toInt = 0 := rfl
  rw [zero] at valid
  simp only [deviceID, maxEvents, queueDepth]
  split_ifs at valid with unnamed events interval depth
  exact ⟨unnamed, by omega, by omega⟩

end Settings

/-! ## The collector and the sender -/

/-- The counters of a batcher. -/
structure Stats where
  eventsAccepted : Int64
  eventsRejected : Int64
  eventsDropped : Int64
  batchesEnqueued : Int64
  batchesDropped : Int64
  batchesSent : Int64
  sendFailures : Int64
deriving DecidableEq

/-- What became of a batch that was to be enqueued. -/
structure OverflowOutcome where
  enqueued : Bool
  dropped : List Batch
deriving DecidableEq

/-- What the collector does after a flush. -/
inductive Next where
  | resume
  | finish (result : Option Fault)
deriving DecidableEq

/--
Where `Run` and its collector stand.  The three stages after `selecting` are
the selects of a strategy.
-/
inductive Collector where
  | idle
  | selecting (pending : List Event)
  | enqueueing (batch : Batch) (next : Next)
  | evicting (batch : Batch) (next : Next)
  | replacing (evicted batch : Batch) (next : Next)
  | recording (outcome : OverflowOutcome) (next : Next)
  | collected (result : Option Fault)
  | waiting (result : Option Fault)
  | returned (result : Option Fault)
deriving DecidableEq

/-- Whether the queue is closed. -/
def Collector.closed : Collector → Bool
  | .waiting _ | .returned _ => true
  | _ => false

/-- Where the sending goroutine is. -/
inductive Sender where
  | idle
  | ranging
  | sending (batch : Batch)
  | done
deriving DecidableEq

/-- A batcher, with the error of the context of `Run` if that is done. -/
structure Batcher (settings : Settings) where
  context : Option Fault
  collector : Collector
  queue : List Batch
  sender : Sender
  stats : Stats
  /-- The events counted in `eventsAccepted`, as they arrived. -/
  accepted : List Event
  /-- The batches that a flush made. -/
  flushed : List Batch
  /-- The batches that were handed to the transport. -/
  handed : List Batch
  /-- The batches counted in `batchesSent`. -/
  sent : List Batch
  /-- The batches counted in `sendFailures`. -/
  failed : List Batch
  /-- The batches counted in `batchesDropped`. -/
  dropped : List Batch

/-- How `Run` starts. -/
inductive Launch where
  | nilSource
  | nilTransport
  | refused (fault : Fault)
  | started

/-- A flush reads the clock, so what can lead to one carries the reading. -/
inductive Action where
  | run (launch : Launch)
  | cancel (fault : Fault)
  | stop (now : Time)
  | receive (event : Event) (now : Time)
  | exhaust (now : Time)
  | tick (now : Time)
  | enqueue
  | expire
  | record
  | close
  | wait
  | take
  | settle (result : Option Fault)

def Stats.zero : Stats := ⟨0, 0, 0, 0, 0, 0, 0⟩

namespace Batcher

variable {settings : Settings}

/-- A new batcher. -/
def new (settings : Settings) : Batcher settings where
  context := none
  collector := .idle
  queue := []
  sender := .idle
  stats := .zero
  accepted := []
  flushed := []
  handed := []
  sent := []
  failed := []
  dropped := []

/-! ### Collect -/

/-- `Run` up to its loops. -/
def run (launch : Launch) (batcher : Batcher settings) :
    Option (Batcher settings) :=
  match batcher.collector with
  | .idle =>
    match launch with
    | .nilSource =>
      some { batcher with collector := .returned (some errNilSource) }
    | .nilTransport =>
      some { batcher with
        collector := .returned (some errNilTransport) }
    | .refused fault =>
      some { batcher with collector := .returned (some fault) }
    | .started =>
      some { batcher with
        collector := .selecting []
        sender := .ranging }
  | _ => none

/-- The context of `Run` is done from now on. -/
def cancel (fault : Fault) (batcher : Batcher settings) :
    Option (Batcher settings) :=
  match batcher.context with
  | none => some { batcher with context := some fault }
  | some _ => none

/-- The collector after a flush that has nothing left to do. -/
def proceed : Next → Collector
  | .resume => .selecting []
  | .finish result => .collected result

/-- `flush`, up to the call of the strategy. -/
def flush (events : List Event) (now : Time) (next : Next)
    (batcher : Batcher settings) : Batcher settings :=
  if events = [] then { batcher with collector := proceed next }
  else
    let batch := ⟨settings.deviceID, now, events⟩
    { batcher with
      collector := .enqueueing batch next
      flushed := batcher.flushed ++ [batch] }

/-- The collector sees that its context is done. -/
def stop (now : Time) (batcher : Batcher settings) :
    Option (Batcher settings) :=
  match batcher.collector, batcher.context with
  | .selecting pending, some fault =>
    some (batcher.flush pending now (.finish (some fault)))
  | _, _ => none

/-- Whether `accept` takes an event. -/
def accepts (settings : Settings) (event : Event) : Bool :=
  event.validate.isNone && event.deviceID == settings.deviceID

/-- `accept` counts an event that it takes. -/
def accept (event : Event) (batcher : Batcher settings) :
    Batcher settings :=
  { batcher with
    accepted := batcher.accepted ++ [event]
    stats := { batcher.stats with
      eventsAccepted := batcher.stats.eventsAccepted + 1 } }

def reject (batcher : Batcher settings) : Batcher settings :=
  { batcher with
    stats := { batcher.stats with
      eventsRejected := batcher.stats.eventsRejected + 1 } }

/-- Take an event, and flush a full batch. -/
def receive (event : Event) (now : Time) (batcher : Batcher settings) :
    Option (Batcher settings) :=
  match batcher.collector with
  | .selecting pending =>
    if accepts settings event then
      let pending := pending ++ [event]
      if settings.maxEvents ≤ pending.length then
        some ((batcher.accept event).flush pending now .resume)
      else
        some { batcher.accept event with collector := .selecting pending }
    else some batcher.reject
  | _ => none

/-- The channel of events is closed. -/
def exhaust (now : Time) (batcher : Batcher settings) :
    Option (Batcher settings) :=
  match batcher.collector with
  | .selecting pending => some (batcher.flush pending now (.finish none))
  | _ => none

/-- Flush what is there. -/
def tick (now : Time) (batcher : Batcher settings) :
    Option (Batcher settings) :=
  match batcher.collector with
  | .selecting pending =>
    if pending = [] then some batcher
    else some (batcher.flush pending now .resume)
  | _ => none

/-! ### Enqueue -/

/-- The queue takes a batch, if it has room. -/
def push (batch : Batch) (dropped : List Batch) (next : Next)
    (batcher : Batcher settings) : Option (Batcher settings) :=
  if batcher.queue.length < settings.queueDepth then
    some { batcher with
      queue := batcher.queue ++ [batch]
      collector := .recording ⟨true, dropped⟩ next }
  else none

/-- A batch is not enqueued. -/
def drop (dropped : List Batch) (next : Next) (batcher : Batcher settings) :
    Batcher settings :=
  { batcher with collector := .recording ⟨false, dropped⟩ next }

/--
The next select of the strategy.  Its default branch is taken where the queue
is not ready; a blocking strategy has none and waits.
-/
def enqueue (batcher : Batcher settings) : Option (Batcher settings) :=
  match batcher.collector with
  | .enqueueing batch next =>
    (batcher.push batch [] next).or
      (match settings.strategy with
      | .dropOldest =>
        some { batcher with collector := .evicting batch next }
      | .dropNewest => some (batcher.drop [batch] next)
      | .blocking => none)
  | .evicting batch next =>
    match batcher.queue with
    | [] => some (batcher.drop [batch] next)
    | evicted :: rest =>
      some { batcher with
        queue := rest
        collector := .replacing evicted batch next }
  | .replacing evicted batch next =>
    (batcher.push batch [evicted] next).or
      (some (batcher.drop [evicted, batch] next))
  | _ => none

/-- The blocking strategy sees that the context is done. -/
def expire (batcher : Batcher settings) : Option (Batcher settings) :=
  match batcher.collector, settings.strategy, batcher.context with
  | .enqueueing batch next, .blocking, some _ =>
    some (batcher.drop [batch] next)
  | _, _, _ => none

/-- One turn of the loop over the dropped batches. -/
def countDropped (stats : Stats) (batch : Batch) : Stats :=
  { stats with
    batchesDropped := stats.batchesDropped + 1
    eventsDropped :=
      stats.eventsDropped + Int64.ofNat batch.events.length }

/-- The rest of `flush`: what became of the batch is counted. -/
def record (batcher : Batcher settings) : Option (Batcher settings) :=
  match batcher.collector with
  | .recording outcome next =>
    let stats := { batcher.stats with
      batchesEnqueued :=
        if outcome.enqueued then batcher.stats.batchesEnqueued + 1
        else batcher.stats.batchesEnqueued }
    some { batcher with
      collector := proceed next
      stats := outcome.dropped.foldl countDropped stats
      dropped := batcher.dropped ++ outcome.dropped }
  | _ => none

/-! ### The end of `Run` -/

/-- The queue is closed. -/
def close (batcher : Batcher settings) : Option (Batcher settings) :=
  match batcher.collector with
  | .collected result =>
    some { batcher with collector := .waiting result }
  | _ => none

/-- The sender has ended. -/
def wait (batcher : Batcher settings) : Option (Batcher settings) :=
  match batcher.collector, batcher.sender with
  | .waiting result, .done =>
    some { batcher with collector := .returned result }
  | _, _ => none

/-! ### Send -/

/-- The sender takes a batch and hands it out, or ends with the queue. -/
def take (batcher : Batcher settings) : Option (Batcher settings) :=
  match batcher.sender with
  | .ranging =>
    match batcher.queue with
    | batch :: rest =>
      some { batcher with
        queue := rest
        sender := .sending batch
        handed := batcher.handed ++ [batch] }
    | [] =>
      if batcher.collector.closed then
        some { batcher with sender := .done }
      else none
  | _ => none

/-- The transport answers. -/
def settle (result : Option Fault) (batcher : Batcher settings) :
    Option (Batcher settings) :=
  match batcher.sender with
  | .sending batch =>
    match result with
    | none =>
      some { batcher with
        sender := .ranging
        sent := batcher.sent ++ [batch]
        stats := { batcher.stats with
          batchesSent := batcher.stats.batchesSent + 1 } }
    | some _ =>
      some { batcher with
        sender := .ranging
        failed := batcher.failed ++ [batch]
        stats := { batcher.stats with
          sendFailures := batcher.stats.sendFailures + 1 } }
  | _ => none

/-! ### Steps -/

/-- The batcher after an action that can be taken. -/
def step (batcher : Batcher settings) : Action → Option (Batcher settings)
  | .run launch => batcher.run launch
  | .cancel fault => batcher.cancel fault
  | .stop now => batcher.stop now
  | .receive event now => batcher.receive event now
  | .exhaust now => batcher.exhaust now
  | .tick now => batcher.tick now
  | .enqueue => batcher.enqueue
  | .expire => batcher.expire
  | .record => batcher.record
  | .close => batcher.close
  | .wait => batcher.wait
  | .take => batcher.take
  | .settle result => batcher.settle result

def machine (settings : Settings) :
    Machine (Batcher settings) Action where
  initial batcher := batcher = new settings
  step := step

end Batcher

end Ironclaw.Pipeline
