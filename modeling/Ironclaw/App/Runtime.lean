import Ironclaw.Aggregate.Sketch
import Ironclaw.Aggregator.Process
import Ironclaw.Bus.Bus
import Ironclaw.Domain.Command
import Ironclaw.Ingest.Service
import Ironclaw.Pipeline.Batcher
import Ironclaw.Pipeline.Synthetic
import Ironclaw.Store.Memory

/-!
# The in-memory runtime

A runtime without external services: the agents of its devices send batches
over a bus to the aggregator, whose emit loop sends windows over a second bus
to the store.  `Stop` closes one stage after the other, and waits for each
before it closes the next one.

All goroutines run at once.  An action is one step of one of them, and where
two components meet (an agent calls `Send`, a consume loop calls its handler)
the step is taken by both.  No command is ever sent, so the bus of commands is
only started and stopped.
-/

namespace Ironclaw.App

open Lib Domain Aggregate Ironclaw.Aggregator Pipeline Store

def errInvalidDeviceCount : Fault :=
  .sentinel "app: device count must be positive"

/-- The configuration, without what only sets times, seeds and backends. -/
structure Config where
  devices : Int64
  eventsPerDevice : Int64
  eventInterval : Int64
  batchSize : Int64
  batchInterval : Int64
  windowSize : Int64
  partitions : Int64
  queueCapacity : Int64
  relativeAccuracy : ℚ
  emitOpenWindows : Bool
  maxOpenWindows : Int

namespace Config

def validate (config : Config) : Option Fault :=
  if config.devices ≤ 0 then some errInvalidDeviceCount else none

def bus (config : Config) : Bus.Config where
  partitions := config.partitions
  capacity := config.queueCapacity
  maxAttempts := 3

/-- The aggregator takes its first sequence number from the clock. -/
def aggregator (config : Config) : RawConfig where
  windowSize := config.windowSize
  relativeAccuracy := config.relativeAccuracy
  sequenceSeed := 0
  maxOpenWindows := config.maxOpenWindows

/-- The accuracy of the sketches that the aggregator makes. -/
def accuracy (config : Config) : ℚ :=
  if config.relativeAccuracy = 0 then defaultRelativeError
  else config.relativeAccuracy

end Config

/-- The sketches of the runtime, over the formulas of their scale. -/
def sketches (formulas : Formulas) (accuracy : ℚ) :
    SketchOps Sketch Unit where
  newSketch world := (Sketch.new accuracy, world)
  add value sketch := sketch.add formulas value
  quantile rank sketch world := ((sketch.quantile formulas rank).2, world)
  max sketch := sketch.max

/-! ## Agents -/

/--
The agent of a device: a source, a batcher, and the number of the call of
`Send` on the bus of batches that the batcher waits for.
-/
structure Agent where
  settings : Pipeline.Settings
  source : SyntheticSource
  batcher : Batcher settings
  call : Option Nat

namespace Agent

/-- A number in decimal, with zeros before it up to three digits. -/
def padded (number : Nat) : String :=
  let digits := (appendInt number).toList
  String.ofList (List.replicate (3 - digits.length) '0' ++ digits)

def sourceConfig (config : Config) (index : Nat) : SyntheticConfig where
  deviceID := "device-" ++ padded index
  userID := "user-" ++ padded (index % 4)
  podID := "pod-" ++ padded (index % 3)
  processIDs := [Int32.ofNat (100 + index), Int32.ofNat (200 + index)]
  eventCount := config.eventsPerDevice
  interval := config.eventInterval

def batcherConfig (config : Config) (index : Nat) : BatcherConfig where
  deviceID := "device-" ++ padded index
  maxEvents := config.batchSize
  maxInterval := config.batchInterval
  queueDepth := 256
  policy := .block
  flushSignal := false

/-- The source and the batcher of a device. -/
def new (config : Config) (index : Nat) : Except Fault Agent :=
  match SyntheticSource.new (sourceConfig config index) with
  | .error fault => .error fault
  | .ok source =>
    match valid : (batcherConfig config index).validate with
    | some fault => .error fault
    | none =>
      let settings : Pipeline.Settings :=
        ⟨batcherConfig config index, valid⟩
      .ok ⟨settings, source, Batcher.new settings, none⟩

/-- `buildAgents`, up to a number of devices. -/
def build (config : Config) : Nat → Except Fault (List Agent)
  | 0 => .ok []
  | index + 1 =>
    match build config index with
    | .error fault => .error fault
    | .ok agents =>
      match new config index with
      | .error fault => .error fault
      | .ok agent => .ok (agents ++ [agent])

/-- The steps of an agent that no other component sees. -/
inductive Action where
  | launch
  | offer (draw : Draw)
  | wake
  | halt
  | receive (now : Time)
  | exhaust (now : Time)
  | tick (now : Time)
  | enqueue
  | record
  | close
  | wait
  | take

/-- Give an agent the batcher that a step leaves. -/
def carry (agent : Agent) (source : SyntheticSource)
    (step : Option (Batcher agent.settings)) : Option Agent :=
  step.map fun batcher =>
    { agent with source := source, batcher := batcher }

def act (agent : Agent) : Action → Option Agent
  | .launch =>
    match agent.source.events with
    | .error fault =>
      agent.carry agent.source (agent.batcher.run (.refused fault))
    | .ok source => agent.carry source (agent.batcher.run .started)
  | .offer draw =>
    (agent.source.offer draw).map fun source =>
      { agent with source := source }
  | .wake =>
    agent.source.wake.map fun source => { agent with source := source }
  | .halt =>
    agent.source.halt.map fun source => { agent with source := source }
  | .receive now =>
    match agent.source.hand with
    | none => none
    | some (event, source) =>
      agent.carry source (agent.batcher.receive event now)
  | .exhaust now =>
    if agent.source.stage = .ended then
      agent.carry agent.source (agent.batcher.exhaust now)
    else none
  | .tick now => agent.carry agent.source (agent.batcher.tick now)
  | .enqueue => agent.carry agent.source agent.batcher.enqueue
  | .record => agent.carry agent.source agent.batcher.record
  | .close => agent.carry agent.source agent.batcher.close
  | .wait => agent.carry agent.source agent.batcher.wait
  | .take => agent.carry agent.source agent.batcher.take

/-- `Send` of the transport has returned. -/
def settle (agent : Agent) (result : Option Fault) : Option Agent :=
  (agent.batcher.settle result).map fun batcher =>
    { agent with batcher := batcher, call := none }

def returned (agent : Agent) : Bool :=
  match agent.batcher.collector with
  | .returned _ => true
  | _ => false

end Agent

/-! ## The runtime -/

/-- Where the emit loop stands. -/
inductive Emitter where
  | waiting
  | publishing
  | returned
deriving DecidableEq

/-- Where the one execution of `shutdown` stands. -/
inductive Shutdown where
  | running
  | closingSources (next : Nat)
  | waitingAgents
  | closingBatches
  | waitingConsumers
  | closingEmitter
  | waitingEmitter
  | emitting
  | publishing
  | closingWindows
  | waitingPersister
  | closingCommands
  | waitingCommands
  | returned
deriving DecidableEq

namespace Shutdown

/-- The order of the stages. -/
def rank : Shutdown → Nat
  | .running => 0
  | .closingSources _ => 1
  | .waitingAgents => 2
  | .closingBatches => 3
  | .waitingConsumers => 4
  | .closingEmitter => 5
  | .waitingEmitter => 6
  | .emitting => 7
  | .publishing => 8
  | .closingWindows => 9
  | .waitingPersister => 10
  | .closingCommands => 11
  | .waitingCommands => 12
  | .returned => 13

/-- Whether `emitStop` is closed. -/
def emitStopped (stage : Shutdown) : Bool := 6 ≤ stage.rank

end Shutdown

/-- The agents, the buses, the aggregator and the store. -/
structure Runtime (bus : Bus.Settings) where
  agents : List Agent
  batches : Bus bus Batch
  process : Process Sketch Unit Event
  emitter : Emitter
  /-- The call of `Send` on the bus of windows that a publication waits for. -/
  call : Option Nat
  windows : Bus bus AggregateWindow
  store : Memory
  commands : Bus bus Command
  shutdown : Shutdown

namespace Runtime

/-- `NewWithContext` at the time `now`, with the settings of its buses. -/
def new (config : Config) (now : Time) :
    Except Fault (Sigma Runtime) :=
  match config.validate with
  | some fault => .error fault
  | none =>
    match config.bus.new with
    | .error fault => .error fault
    | .ok bus =>
      match Aggregate.Aggregator.new config.aggregator now () with
      | .error fault => .error fault
      | .ok source =>
        match Agent.build config config.devices.toInt.toNat with
        | .error fault => .error fault
        | .ok agents =>
          .ok ⟨bus, {
            agents := agents
            batches := Bus.new bus Batch
            process := Process.start ⟨source, some ∅, 0⟩
            emitter := .waiting
            call := none
            windows := Bus.new bus AggregateWindow
            store := Memory.new
            commands := Bus.new bus Command
            shutdown := .running }⟩

variable {bus : Bus.Settings}

/-! ### The agents and the bus of batches -/

def agent (index : Nat) (action : Agent.Action) (runtime : Runtime bus) :
    Option (Runtime bus) :=
  match runtime.agents[index]? with
  | none => none
  | some agent =>
    (agent.act action).map fun agent =>
      { runtime with agents := runtime.agents.set index agent }

/-- The loopback passes a batch to `Accept`, which checks and publishes it. -/
def send (index : Nat) (runtime : Runtime bus) : Option (Runtime bus) :=
  match runtime.agents[index]? with
  | none => none
  | some agent =>
    match agent.batcher.sender, agent.call with
    | .sending batch, none =>
      match Ingest.Service.check agent.source.config.deviceID batch with
      | some fault =>
        (agent.settle (some fault)).map fun agent =>
          { runtime with agents := runtime.agents.set index agent }
      | none =>
        some { runtime with
          batches := runtime.batches.send batch.deviceID batch
          agents := runtime.agents.set index
            { agent with
              call := some runtime.batches.calls.length } }
    | _, _ => none

/-- What a call has returned, if it has. -/
def resultOf {Value : Type} (channel : Bus bus Value) (id : Nat) :
    Option (Option Fault) :=
  match channel.calls[id]? with
  | some ⟨_, _, .returned result⟩ => some result
  | _ => none

/-- `Accept` returns what the publisher returned. -/
def answer (index : Nat) (runtime : Runtime bus) : Option (Runtime bus) :=
  match runtime.agents[index]? with
  | none => none
  | some agent =>
    match agent.call.bind (resultOf runtime.batches) with
    | none => none
    | some result =>
      (agent.settle result).map fun agent =>
        { runtime with agents := runtime.agents.set index agent }

/-- The grace period of an agent ends while its last sends wait. -/
def expire (index : Nat) (runtime : Runtime bus) : Option (Runtime bus) :=
  match runtime.agents[index]? with
  | none => none
  | some agent =>
    match agent.batcher.collector, agent.call with
    | .waiting _, some id =>
      (runtime.batches.expire id errCanceled).map fun batches =>
        { runtime with batches := batches }
    | _, _ => none

/-- The consumer group of a bus starts the loop of a partition. -/
def joinOnce {Value : Type} (partition : Fin bus.partitions)
    (channel : Bus bus Value) : Option (Bus bus Value) :=
  if channel.consumers.any fun consumer => consumer.partition = partition then
    none
  else some (channel.join partition)

/-- A step that a bus takes on its own. -/
def move {Value : Type} (action : Bus.Action bus Value)
    (channel : Bus bus Value) : Option (Bus bus Value) :=
  match action with
  | .join partition => joinOnce partition channel
  | .check _ | .enter _ | .push _ | .refuse _ | .count _ | .leave _
  | .receive _ | .shut _ | .finish _ | .deliver _ => channel.step action
  | _ => none

/-- The value of the handler call that a loop waits for. -/
def attempting {Value : Type} (channel : Bus bus Value) (index : Nat) :
    Option Value :=
  match channel.consumers[index]? with
  | some ⟨_, _, .delivering _ parcel (.calling _)⟩ => some parcel.value
  | _ => none

/-- `HandleBatch`, as the handler of a loop; its context is never done. -/
def handleBatch (ops : SketchOps Sketch Unit) (index : Nat)
    (runtime : Runtime bus) : Option (Runtime bus) :=
  match attempting runtime.batches index with
  | none => none
  | some batch =>
    let result := runtime.process.service.handleBatch ops none batch
    (runtime.batches.handle index result.2).map fun batches =>
      { runtime with
        batches := batches
        process := runtime.process.handle ops id none batch.events }

/-! ### The emit loop and the bus of windows -/

/-- A tick of the emit loop. -/
def emit (ops : SketchOps Sketch Unit) (openWindows : Bool) (now : Time)
    (runtime : Runtime bus) : Option (Runtime bus) :=
  match runtime.emitter with
  | .waiting =>
    (runtime.process.step ops id Publisher.plain
        (if openWindows then .emitAll else .emitClosedWindows now)).map
      fun process =>
        { runtime with process := process, emitter := .publishing }
  | _ => none

/-- `publish` calls `PublishWindow` for its next window. -/
def publish (runtime : Runtime bus) : Option (Runtime bus) :=
  match runtime.process.emits, runtime.call with
  | publishing :: _, none =>
    match publishing.remaining with
    | [] => none
    | window :: _ =>
      some { runtime with
        windows := runtime.windows.send window.key.shardTag window
        call := some runtime.windows.calls.length }
  | _, _ => none

def outcomeOf : Option Fault → Outcome
  | none => .delivered
  | some fault => .refused fault

/-- `PublishWindow` returns. -/
def published (runtime : Runtime bus) : Option (Runtime bus) :=
  match runtime.call.bind (resultOf runtime.windows) with
  | none => none
  | some result =>
    (runtime.process.attempt Publisher.plain 0 (outcomeOf result)).map
      fun process => { runtime with process := process, call := none }

/-- The end of `publish`. -/
def commit (runtime : Runtime bus) : Option (Runtime bus) :=
  (runtime.process.commit 0).map fun process =>
    { runtime with process := process }

/-- The emit loop goes on after an emit, or sees that it is to stop. -/
def resume (runtime : Runtime bus) : Option (Runtime bus) :=
  match runtime.emitter with
  | .publishing =>
    if runtime.process.emits.isEmpty then
      some { runtime with emitter := .waiting }
    else none
  | .waiting =>
    if runtime.shutdown.emitStopped then
      some { runtime with emitter := .returned }
    else none
  | .returned => none

/-- `HandleWindow`, as the handler of a loop; its context is never done. -/
def handleWindow (index : Nat) (runtime : Runtime bus) :
    Option (Runtime bus) :=
  match attempting runtime.windows index with
  | none => none
  | some window =>
    let result := runtime.store.applyWindow none window
    (runtime.windows.handle index result.2).map fun windows =>
      { runtime with windows := windows, store := result.1 }

/-! ### Stop -/

/-- Whether a consumer group has returned: all its loops have. -/
def ended {Value : Type} (channel : Bus bus Value) : Bool :=
  (List.finRange bus.partitions).all (fun partition =>
    channel.consumers.any fun consumer => consumer.partition = partition) &&
    channel.consumers.all fun consumer => consumer.stage.isReturned

/-- The next step of `shutdown`. -/
def stop (ops : SketchOps Sketch Unit) (runtime : Runtime bus) :
    Option (Runtime bus) :=
  let enter stage := some { runtime with shutdown := stage }
  match runtime.shutdown with
  | .running => enter (.closingSources 0)
  | .closingSources next =>
    match runtime.agents[next]? with
    | none => enter .waitingAgents
    | some agent =>
      some { runtime with
        agents := runtime.agents.set next
          { agent with source := agent.source.close }
        shutdown := .closingSources (next + 1) }
  | .waitingAgents =>
    if runtime.agents.all Agent.returned then enter .closingBatches
    else none
  | .closingBatches =>
    if runtime.batches.closer = .done then enter .waitingConsumers
    else
      runtime.batches.close.map fun batches =>
        { runtime with batches := batches }
  | .waitingConsumers =>
    if ended runtime.batches then enter .closingEmitter else none
  | .closingEmitter => enter .waitingEmitter
  | .waitingEmitter =>
    if runtime.emitter = .returned then enter .emitting else none
  | .emitting =>
    (runtime.process.step ops id Publisher.plain .emitAll).map
      fun process =>
        { runtime with process := process, shutdown := .publishing }
  | .publishing =>
    if runtime.process.emits.isEmpty then enter .closingWindows else none
  | .closingWindows =>
    if runtime.windows.closer = .done then enter .waitingPersister
    else
      runtime.windows.close.map fun windows =>
        { runtime with windows := windows }
  | .waitingPersister =>
    if ended runtime.windows then enter .closingCommands else none
  | .closingCommands =>
    if runtime.commands.closer = .done then enter .waitingCommands
    else
      runtime.commands.close.map fun commands =>
        { runtime with commands := commands }
  | .waitingCommands =>
    if ended runtime.commands then enter .returned else none
  | .returned => none

/-! ### Steps -/

/-- One step of one goroutine of the runtime. -/
inductive Action (bus : Bus.Settings) where
  | agent (index : Nat) (action : Agent.Action)
  | send (index : Nat)
  | answer (index : Nat)
  | expire (index : Nat)
  | batches (action : Bus.Action bus Batch)
  | handleBatch (index : Nat)
  | emit (now : Time)
  | publish
  | published
  | commit
  | resume
  | windows (action : Bus.Action bus AggregateWindow)
  | handleWindow (index : Nat)
  | commands (action : Bus.Action bus Command)
  | stop

/-- The runtime after an action that can be taken. -/
def step (ops : SketchOps Sketch Unit) (emitOpenWindows : Bool)
    (runtime : Runtime bus) : Action bus → Option (Runtime bus)
  | .agent index action => runtime.agent index action
  | .send index => runtime.send index
  | .answer index => runtime.answer index
  | .expire index => runtime.expire index
  | .batches action =>
    (move action runtime.batches).map fun batches =>
      { runtime with batches := batches }
  | .handleBatch index => runtime.handleBatch ops index
  | .emit now => runtime.emit ops emitOpenWindows now
  | .publish => runtime.publish
  | .published => runtime.published
  | .commit => runtime.commit
  | .resume => runtime.resume
  | .windows action =>
    (move action runtime.windows).map fun windows =>
      { runtime with windows := windows }
  | .handleWindow index => runtime.handleWindow index
  | .commands action =>
    (move action runtime.commands).map fun commands =>
      { runtime with commands := commands }
  | .stop => runtime.stop ops

end Runtime

/-- The runtime of a configuration, from its start on. -/
def runtimeMachine (formulas : Formulas) (config : Config)
    (bus : Bus.Settings) :
    Machine (Runtime bus) (Runtime.Action bus) where
  initial runtime := ∃ now, Runtime.new config now = .ok ⟨bus, runtime⟩
  step := Runtime.step (sketches formulas config.accuracy)
    config.emitOpenWindows

end Ironclaw.App
