import Ironclaw.Domain.Tally
import Ironclaw.Lib.Outcome

/-!
# The Kafka consumer

`poll` fetches records and hands each one to a handler.  A record whose
handling fails is tried again and then written to the dead-letter topic.  When
the fetch has been worked through, or a record failed for good, the offsets of
the records handled so far are committed.

The broker keeps a log for each partition and the offsets committed for the
consumer group.  Assumed of the client library: a fetch lists the records of a
partition in the order of their offsets, from the position of the consumer on;
a commit sets, for each partition, the offset after the last record given.
-/

namespace Ironclaw.Kafka

open Lib Domain

def errNoBrokers : Fault :=
  .sentinel "kafkabus: at least one broker is required"
def errNoTopic : Fault := .sentinel "kafkabus: topic is required"
def errNoGroup : Fault := .sentinel "kafkabus: consumer group is required"
def errNoDeadTopic : Fault :=
  .sentinel ("kafkabus: dead letter topic is required when " ++
    "max attempts is exceeded")

def metricConsumed : String := "kafka_consumed"
def metricRetried : String := "kafka_retried"
def metricDeadLetter : String := "kafka_dead_letter"

/-! ## Configuration -/

structure Config where
  brokers : List String
  topic : String
  group : String
  deadLetterTopic : String
  maxAttempts : Int64
deriving DecidableEq, Repr

def Config.validateProducer (config : Config) : Option Fault :=
  if config.brokers = [] then some errNoBrokers
  else if config.topic = "" then some errNoTopic
  else none

def Config.validateConsumer (config : Config) : Option Fault :=
  match config.validateProducer with
  | some fault => some fault
  | none => if config.group = "" then some errNoGroup else none

/-- What a consumer keeps of its configuration. -/
structure Settings where
  maxAttempts : Int64
  hasDeadLetter : Bool
  someAttempt : 1 ≤ maxAttempts
  retried : 1 < maxAttempts → hasDeadLetter = true
deriving DecidableEq

theorem one_le_of_not_nonpos {attempts : Int64} (positive : ¬attempts ≤ 0) :
    1 ≤ attempts := by
  have zero : (0 : Int64).toInt = 0 := rfl
  have one : (1 : Int64).toInt = 1 := rfl
  rw [Int64.le_iff_toInt_le] at *
  omega

def Config.newConsumer (config : Config) : Except Fault Settings :=
  match config.validateConsumer with
  | some fault => .error fault
  | none =>
    if nonpositive : config.maxAttempts ≤ 0 then
      .ok {
        maxAttempts := 1
        hasDeadLetter := config.deadLetterTopic != ""
        someAttempt := by decide
        retried := fun more => absurd more (by decide) }
    else if missing :
        config.maxAttempts > 1 ∧ config.deadLetterTopic = "" then
      .error errNoDeadTopic
    else
      .ok {
        maxAttempts := config.maxAttempts
        hasDeadLetter := config.deadLetterTopic != ""
        someAttempt := one_le_of_not_nonpos nonpositive
        retried := fun more => by simpa [more] using missing }

/-! ## The broker -/

/-- A value and its place in the topic. -/
structure Record (Value : Type) where
  partition : Nat
  offset : Nat
  value : Value
deriving DecidableEq

variable {Value : Type}

/-- The partitions, and the offsets of the group. -/
structure Broker (Value : Type) where
  log : List (List Value)
  committed : Nat → Nat

namespace Broker

def record? (partition offset : Nat) (broker : Broker Value) :
    Option (Record Value) :=
  match broker.log[partition]? with
  | none => none
  | some records => records[offset]?.map fun value =>
    ⟨partition, offset, value⟩

def produce (partition : Nat) (value : Value) (broker : Broker Value) :
    Broker Value :=
  { broker with log := broker.log.modify partition (· ++ [value]) }

/--
A fetch that visits the given partitions in order, one record at a time; it
also returns the next position.
-/
def fetch (broker : Broker Value) :
    (Nat → Nat) → List Nat → Option (List (Record Value) × (Nat → Nat))
  | position, [] => some ([], position)
  | position, partition :: rest =>
    match broker.record? partition (position partition) with
    | none => none
    | some record =>
      (broker.fetch (Function.update position partition
        (position partition + 1)) rest).map fun result =>
          (record :: result.1, result.2)

/-- `CommitRecords`. -/
def commit (records : List (Record Value)) (broker : Broker Value) :
    Broker Value :=
  { broker with
    committed := records.foldl
      (fun committed record =>
        Function.update committed record.partition (record.offset + 1))
      broker.committed }

end Broker

/-! ## Poll and deliver -/

/-- Where the loop of `poll` stands. -/
inductive Stage (Value : Type) where
  | polling
  | delivering
      (record : Record Value) (attempt : Int64)
      (rest handled : List (Record Value))
  | burying
      (record : Record Value) (last : Fault)
      (rest handled : List (Record Value))
  | committing (handled : List (Record Value)) (failure : Option Fault)
  | returned (result : Option Fault)
deriving DecidableEq

namespace Stage

/-- After the last record of a fetch, or the one that failed. -/
def settle (handled : List (Record Value)) (failure : Option Fault) :
    Stage Value :=
  match handled, failure with
  | [], none => .polling
  | [], some fault => .returned (some fault)
  | _ :: _, _ => .committing handled failure

/-- Go on with the remaining records of a fetch. -/
def visit (handled : List (Record Value)) : List (Record Value) → Stage Value
  | [] => settle handled none
  | record :: rest => .delivering record 1 rest handled

end Stage

/-- A consumer between two of its calls. -/
structure Consumer (Value : Type) where
  settings : Settings
  metrics : Recorder
  /-- The error of the context, once it is done. -/
  context : Option Fault
  position : Nat → Nat
  stage : Stage Value

/-- What `PollFetches` returns. -/
inductive Fetched where
  | closed
  | failed (fault : Fault)
  | records (partitions : List Nat)
deriving DecidableEq

namespace Consumer

/-- A consumer that resumes from the committed offsets. -/
def join
    (settings : Settings) (recorded : Bool) (broker : Broker Value) :
    Consumer Value where
  settings := settings
  metrics := if recorded then some ∅ else none
  context := none
  position := broker.committed
  stage := .polling

/-- `PollFetches`, and what the loop does with it. -/
def poll
    (fetched : Fetched) (broker : Broker Value)
    (consumer : Consumer Value) : Option (Consumer Value) :=
  match consumer.stage, consumer.context with
  | .polling, some fault =>
    some { consumer with stage := .returned (some fault) }
  | .polling, none =>
    match fetched with
    | .closed => some { consumer with stage := .returned none }
    | .failed fault =>
      some { consumer with
        stage := .returned
          (some (.wrapped "kafkabus: fetching" fault)) }
    | .records partitions =>
      (broker.fetch consumer.position partitions).map fun result =>
        { consumer with
          position := result.2
          stage := .visit [] result.1 }
  | _, _ => none

/-- The handler returns for the record in progress. -/
def handle
    (result : Option Fault) (consumer : Consumer Value) :
    Option (Consumer Value) :=
  match consumer.stage with
  | .delivering record attempt rest handled =>
    match result, consumer.context with
    | none, _ =>
      some { consumer with
        metrics := consumer.metrics.record metricConsumed 1
        stage := .visit (handled ++ [record]) rest }
    | some _, some done =>
      some { consumer with stage := .settle handled (some done) }
    | some fault, none =>
      some { consumer with
        metrics :=
          if attempt < consumer.settings.maxAttempts then
            consumer.metrics.record metricRetried 1
          else consumer.metrics
        stage :=
          if attempt + 1 ≤ consumer.settings.maxAttempts then
            .delivering record (attempt + 1) rest handled
          else .burying record fault rest handled }
  | _ => none

/-- `sendToDeadLetter`. -/
def bury
    (outcome : Outcome) (consumer : Consumer Value) :
    Option (Consumer Value) :=
  match consumer.stage with
  | .burying record _ rest handled =>
    if consumer.settings.hasDeadLetter then
      match outcome.fault with
      | none =>
        some { consumer with
          metrics := consumer.metrics.record metricDeadLetter 1
          stage := .visit (handled ++ [record]) rest }
      | some fault =>
        some { consumer with
          stage := .settle handled
            (some (.wrapped "kafkabus: dead lettering" fault)) }
    else
      some { consumer with stage := .settle handled (some errNoDeadTopic) }
  | _ => none

/-- The commit returns. -/
def commit
    (outcome : Outcome) (consumer : Consumer Value) :
    Option (Consumer Value) :=
  match consumer.stage with
  | .committing _ failure =>
    match outcome.fault with
    | none =>
      some { consumer with
        stage := match failure with
          | none => .polling
          | some fault => .returned (some fault) }
    | some fault =>
      some { consumer with
        stage := .returned (some (consumer.context.getD
          (.wrapped "kafkabus: committing offsets" fault))) }
  | _ => none

def cancel (fault : Fault) (consumer : Consumer Value) :
    Option (Consumer Value) :=
  match consumer.context with
  | none => some { consumer with context := some fault }
  | some _ => none

end Consumer

end Ironclaw.Kafka
