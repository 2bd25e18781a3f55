import Ironclaw.Aggregator.Process
import Ironclaw.Kafka.Offsets
import Ironclaw.Store.History

/-!
# The owner of the raw partitions

One aggregator process consumes the raw topic, counts the events of each
record, and publishes its windows on a timer of its own.  A window that reached
the window topic may be applied to the store at any time and any number of
times.  The process may die between any two steps: its aggregator and its
consumer are gone, and a new process resumes from the committed offsets with a
new aggregator, whose sequence starts from its clock.

Every raw event is named by its place in the topic.  Beside the state the
machine keeps the processes that died, as they were, and the events that the
owner had counted of the records whose offsets it committed.
-/

namespace Ironclaw.App

open Lib Domain Aggregate Ironclaw.Aggregator Kafka Store Option

variable {Sketch World Value : Type}

/-- An event and its place in the raw topic. -/
structure RawEvent where
  partition : Nat
  offset : Nat
  index : Nat
  event : Event
deriving DecidableEq

/-- Whether the event stands in the record. -/
def RawEvent.inRecord (item : RawEvent) (record : Record Value) : Bool :=
  item.partition = record.partition ∧ item.offset = record.offset

/-- What the owner runs: the codec, the sketch, the targets and the options. -/
structure Deployment (Sketch World Value : Type) where
  decode : Value → Except Fault Batch
  ops : SketchOps Sketch World
  publisher : Publisher
  raw : RawConfig
  settings : Settings
  recorded : Bool

/-- The events of a batch that stands in a record. -/
def eventsIn (record : Record Value) (batch : Batch) : List RawEvent :=
  batch.events.mapIdx fun index event =>
    ⟨record.partition, record.offset, index, event⟩

/-- A partition owner, with its broker, store and dead processes. -/
structure Owner (Sketch World Value : Type) where
  broker : Broker Value
  consumer : Consumer Value
  process : Process Sketch World RawEvent
  store : Memory
  /-- The windows that the store was given, in order. -/
  delivered : List AggregateWindow
  /-- The processes that died, as they were. -/
  past : List (Process Sketch World RawEvent)
  /-- The events counted of the records whose offsets were committed. -/
  secured : List RawEvent

/-- The calls of the emit loop and of the publisher. -/
inductive Emit where
  | emitAll
  | emitClosedWindows (watermark : Time)
  | attempt (emit : Nat) (outcome : Outcome)
  | commit (emit : Nat)

def Emit.move : Emit → Move RawEvent
  | .emitAll => .emitAll
  | .emitClosedWindows watermark => .emitClosedWindows watermark
  | .attempt emit outcome => .attempt emit outcome
  | .commit emit => .commit emit

/-- What can happen next to an owner. -/
inductive Turn (World Value : Type) where
  | produce (partition : Nat) (value : Value)
  | poll (fetched : Fetched)
  | handle
  | bury (outcome : Outcome)
  | commit (outcome : Outcome)
  | cancel (fault : Fault)
  | emit (call : Emit)
  | deliver (index : Nat)
  | crash (now : Time) (world : World)

namespace Owner

/-- Every process there has been; the living one is the first. -/
def processes (owner : Owner Sketch World Value) :
    List (Process Sketch World RawEvent) :=
  owner.process :: owner.past

/-- The windows that reached the window topic. -/
def sent (owner : Owner Sketch World Value) : List AggregateWindow :=
  owner.processes.flatMap Process.sent

/-- A process with a new aggregator. -/
def boot
    (deployment : Deployment Sketch World Value) (now : Time)
    (world : World) : Option (Process Sketch World RawEvent) :=
  match Aggregate.Aggregator.new deployment.raw now world with
  | .error _ => none
  | .ok source => some (Process.start
      ⟨source, if deployment.recorded then some ∅ else none, 0⟩)

/-- The handler of `Consume`: decode the record, and `HandleBatch`. -/
def handle
    (deployment : Deployment Sketch World Value)
    (owner : Owner Sketch World Value) :
    Option (Owner Sketch World Value) :=
  match owner.consumer.stage with
  | .delivering record _ _ _ =>
    match deployment.decode record.value with
    | .error fault =>
      (owner.consumer.handle (some fault)).map fun consumer =>
        { owner with consumer := consumer }
    | .ok batch =>
      let items := eventsIn record batch
      let result := owner.process.service.handleItems deployment.ops
        RawEvent.event owner.consumer.context items
      (owner.consumer.handle result.2.2).map fun consumer =>
        { owner with
          consumer := consumer
          process := owner.process.handle deployment.ops
            RawEvent.event owner.consumer.context items }
  | _ => none

/-- The counted events of some records. -/
def countedIn (records : List (Record Value))
    (owner : Owner Sketch World Value) : List RawEvent :=
  owner.process.ledger.accepted.filter fun item =>
    records.any item.inRecord

def commit (outcome : Outcome) (owner : Owner Sketch World Value) :
    Option (Owner Sketch World Value) :=
  match owner.consumer.stage with
  | .committing handled _ =>
    (owner.consumer.commit outcome).map fun consumer =>
      if outcome.reaches then
        { owner with
          consumer := consumer
          broker := owner.broker.commit handled
          secured := owner.secured ++ owner.countedIn handled }
      else { owner with consumer := consumer }
  | _ => none

/-- The process dies, and another one takes over. -/
def crash
    (deployment : Deployment Sketch World Value) (now : Time)
    (world : World) (owner : Owner Sketch World Value) :
    Option (Owner Sketch World Value) :=
  (boot deployment now world).map fun process =>
    { owner with
      consumer := Consumer.join deployment.settings deployment.recorded
        owner.broker
      process := process
      past := owner.process :: owner.past }

/-- The owner after a turn, if the turn can be taken. -/
def step
    (deployment : Deployment Sketch World Value)
    (owner : Owner Sketch World Value) :
    Turn World Value → Option (Owner Sketch World Value)
  | .produce partition value =>
    some { owner with broker := owner.broker.produce partition value }
  | .poll fetched =>
    (owner.consumer.poll fetched owner.broker).map fun consumer =>
      { owner with consumer := consumer }
  | .handle => owner.handle deployment
  | .bury outcome =>
    (owner.consumer.bury outcome).map fun consumer =>
      { owner with consumer := consumer }
  | .commit outcome => owner.commit outcome
  | .cancel fault =>
    (owner.consumer.cancel fault).map fun consumer =>
      { owner with consumer := consumer }
  | .emit call =>
    (owner.process.step deployment.ops RawEvent.event
      deployment.publisher call.move).map fun process =>
        { owner with process := process }
  | .deliver index =>
    owner.sent[index]?.map fun window =>
      { owner with
        store := (owner.store.applyWindow none window).1
        delivered := owner.delivered ++ [window] }
  | .crash now world => owner.crash deployment now world

/-- The first owner of a topic nobody has consumed yet. -/
def first
    (deployment : Deployment Sketch World Value) (log : List (List Value))
    (process : Process Sketch World RawEvent) :
    Owner Sketch World Value where
  broker := ⟨log, fun _ => 0⟩
  consumer := Consumer.join deployment.settings deployment.recorded
    ⟨log, fun _ => 0⟩
  process := process
  store := Memory.new
  delivered := []
  past := []
  secured := []

end Owner

/-- The machine of owners, from the first one. -/
def ownerMachine (deployment : Deployment Sketch World Value) :
    Machine (Owner Sketch World Value) (Turn World Value) where
  initial owner := ∃ log now world process,
      Owner.boot deployment now world = some process ∧
        owner = Owner.first deployment log process
  step := Owner.step deployment

/-! ## Every process accounts for its windows -/

variable {deployment : Deployment Sketch World Value}

theorem accounted_of_boot
    {now : Time} {world : World} {process : Process Sketch World RawEvent}
    (booted : Owner.boot deployment now world = some process) :
    ∃ seed, process.Accounted RawEvent.event deployment.publisher seed := by
  rw [Owner.boot] at booted
  split at booted
  · cases booted
  · rename_i source built
    cases booted
    have empty := new_empty built
    exact ⟨_, Process.accounted_start RawEvent.event
      deployment.publisher empty.1 empty.2⟩

/-- What a turn can do to the owner. -/
inductive Owner.Turned
    (deployment : Deployment Sketch World Value)
    (owner : Owner Sketch World Value) :
    Turn World Value → Owner Sketch World Value → Prop where
  | pass {turn : Turn World Value} (broker : Broker Value)
      (consumer : Consumer Value) :
    Turned deployment owner turn
      { owner with broker := broker, consumer := consumer }
  | move {turn : Turn World Value} (consumer : Consumer Value)
      {move : Move RawEvent} {process : Process Sketch World RawEvent}
      (moved : owner.process.step deployment.ops RawEvent.event
        deployment.publisher move = some process) :
    Turned deployment owner turn
      { owner with consumer := consumer, process := process }
  | commit (outcome : Outcome) (handled : List (Record Value))
      (broker : Broker Value) (consumer : Consumer Value)
      (reached : outcome.reaches = true) :
    Turned deployment owner (.commit outcome)
      { owner with
        broker := broker
        consumer := consumer
        secured := owner.secured ++ owner.countedIn handled }
  | deliver {turn : Turn World Value} {window : AggregateWindow}
      (sent : window ∈ owner.sent) :
    Turned deployment owner turn
      { owner with
        store := (owner.store.applyWindow none window).1
        delivered := owner.delivered ++ [window] }
  | crash {turn : Turn World Value} {now : Time} {world : World}
      (consumer : Consumer Value) {process : Process Sketch World RawEvent}
      (booted : Owner.boot deployment now world = some process) :
    Turned deployment owner turn
      { owner with
        consumer := consumer
        process := process
        past := owner.process :: owner.past }

theorem Owner.turned
    {owner after : Owner Sketch World Value} {turn : Turn World Value}
    (step : owner.step deployment turn = some after) :
    Turned deployment owner turn after := by
  cases turn with
  | produce partition value =>
    cases step
    exact .pass _ _
  | poll | bury | cancel =>
    rcases map_eq_some_iff.mp step with ⟨consumer, _, rfl⟩
    exact .pass _ consumer
  | handle =>
    simp only [Owner.step, Owner.handle] at step
    split at step
    · split at step
      · rcases map_eq_some_iff.mp step with ⟨consumer, _, rfl⟩
        exact .pass _ consumer
      · rcases map_eq_some_iff.mp step with ⟨consumer, _, rfl⟩
        exact @Turned.move _ _ _ deployment owner _ consumer
          (.handle _ _) _ rfl
    · cases step
  | commit outcome =>
    simp only [Owner.step, Owner.commit] at step
    split at step
    · rcases map_eq_some_iff.mp step with ⟨consumer, _, rfl⟩
      split
      · rename_i reached
        exact .commit outcome _ _ consumer reached
      · exact .pass _ consumer
    · cases step
  | emit call =>
    rcases map_eq_some_iff.mp step with ⟨process, moved, rfl⟩
    exact .move _ moved
  | deliver index =>
    rcases map_eq_some_iff.mp step with ⟨window, present, rfl⟩
    exact .deliver (List.mem_of_getElem? present)
  | crash now world =>
    rcases map_eq_some_iff.mp step with ⟨process, booted, rfl⟩
    exact .crash _ booted

/-- The living process and all before it account for their windows. -/
theorem processes_accounted {owner : Owner Sketch World Value}
    (reachable : (ownerMachine deployment).Reachable owner) :
    ∀ process ∈ owner.processes, ∃ seed,
      process.Accounted RawEvent.event deployment.publisher seed := by
  apply reachable.invariant
  · rintro _ ⟨log, now, world, process, booted, rfl⟩ other member
    rw [List.mem_singleton.mp member]
    exact accounted_of_boot booted
  · intro before turn after _ accounted step process member
    cases Owner.turned step with
    | pass | commit | deliver => exact accounted process member
    | move consumer moved =>
      rcases List.mem_cons.mp member with rfl | older
      · rcases accounted before.process List.mem_cons_self with ⟨seed, before⟩
        exact ⟨seed, before.step moved⟩
      · exact accounted process (List.mem_cons_of_mem _ older)
    | crash consumer booted =>
      rcases List.mem_cons.mp member with rfl | older
      · exact accounted_of_boot booted
      · exact accounted process older

end Ironclaw.App
