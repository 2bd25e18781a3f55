import Ironclaw.Bus.Effects
import Mathlib.Data.List.FinRange

/-!
# Who consumes a partition

`RunConsumerGroup` claims all partitions and runs one consume loop on each;
`Receive` claims the first free one.  A partition is released by the deferred
call of who claimed it, when its loops have returned.

The broker is the bus with its table of claims and the callers of the two
methods.  Beside them stands, for each partition, the order in which its
channel took values.
-/

namespace Ironclaw.Bus

open Lib

def errNoFreePartition : Fault :=
  .sentinel "bus: every partition is already claimed"

/--
Where a caller stands.  A group keeps the number of the loop of each partition
that it has started.  What a method returns are the errors it joins.
-/
inductive Caller (partitions : Nat) where
  | grouping
  | running (loops : Fin partitions → Option Nat)
  | releasingAll (errors : List Fault)
  | claiming
  | holding (partition : Fin partitions)
  | consuming (partition : Fin partitions) (loop : Nat)
  | releasing (partition : Fin partitions) (errors : List Fault)
  | returned (errors : List Fault)

/-- The bus with its claims and the order of arrival. -/
structure Broker (settings : Settings) (Value : Type) where
  bus : Bus settings Value
  claimed : Fin settings.partitions → Bool
  callers : List (Caller settings.partitions)
  /-- The calls whose values a channel took, in order. -/
  arrivals : Fin settings.partitions → List Nat

namespace Broker

/-- A step of the bus or of one that consumes it. -/
inductive Action (settings : Settings) (Value : Type) where
  | bus (action : Bus.Action settings Value)
  | runConsumerGroup
  | receive
  | claim (caller : Nat)
  | consume (caller : Nat) (partition : Fin settings.partitions)
  | finish (caller : Nat)
  | release (caller : Nat)

variable {settings : Settings} {Value : Type}

def new (settings : Settings) (Value : Type) : Broker settings Value where
  bus := Bus.new settings Value
  claimed _ := false
  callers := []
  arrivals _ := []

/-- What an action of the bus adds to the arrivals. -/
def arrive (broker : Broker settings Value) :
    Bus.Action settings Value → Fin settings.partitions → List Nat
  | .push id =>
    match broker.bus.calls[id]? with
    | some call =>
      let partition := settings.partitionFor call.key
      Function.update broker.arrivals partition
        (broker.arrivals partition ++ [id])
    | none => broker.arrivals
  | _ => broker.arrivals

/-- A step of the bus; loops are started by callers only. -/
def move (action : Bus.Action settings Value)
    (broker : Broker settings Value) : Option (Broker settings Value) :=
  if action.isJoin then none
  else
    match broker.bus.step action with
    | none => none
    | some after =>
      some { broker with
        bus := after
        arrivals := broker.arrive action }

/-- `Claim` and `claimAll`, each in one critical section. -/
def claim (caller : Nat) (broker : Broker settings Value) :
    Option (Broker settings Value) :=
  match broker.callers[caller]? with
  | some .grouping =>
    if ∃ partition, broker.claimed partition = true then
      some { broker with
        callers := broker.callers.set caller
          (.returned [errNoFreePartition]) }
    else
      some { broker with
        claimed := fun _ => true
        callers := broker.callers.set caller
          (.running fun _ => none) }
  | some .claiming =>
    match (List.finRange settings.partitions).find?
        fun partition => !broker.claimed partition with
    | none =>
      some { broker with
        callers := broker.callers.set caller
          (.returned [errNoFreePartition]) }
    | some partition =>
      some { broker with
        claimed := Function.update broker.claimed partition true
        callers := broker.callers.set caller (.holding partition) }
  | _ => none

/-- A caller starts the consume loop of a partition. -/
def consume (caller : Nat) (partition : Fin settings.partitions)
    (broker : Broker settings Value) : Option (Broker settings Value) :=
  match broker.callers[caller]? with
  | some (.running loops) =>
    match loops partition with
    | some _ => none
    | none =>
      some { broker with
        bus := broker.bus.join partition
        callers := broker.callers.set caller
          (.running (Function.update loops partition
            (some broker.bus.consumers.length))) }
  | some (.holding held) =>
    if held = partition then
      some { broker with
        bus := broker.bus.join partition
        callers := broker.callers.set caller
          (.consuming partition broker.bus.consumers.length) }
    else none
  | _ => none

/-- What a loop has returned, if it has. -/
def result (broker : Broker settings Value) (loop : Nat) :
    Option (Option Fault) :=
  match broker.bus.consumers[loop]? with
  | some ⟨_, _, .returned result⟩ => some result
  | _ => none

/-- The loops of a caller have returned. -/
def finish (caller : Nat) (broker : Broker settings Value) :
    Option (Broker settings Value) :=
  match broker.callers[caller]? with
  | some (.running loops) =>
    if ∀ partition,
        ((loops partition).bind broker.result).isSome = true then
      some { broker with
        callers := broker.callers.set caller
          (.releasingAll ((List.finRange settings.partitions).filterMap
            fun partition =>
              ((loops partition).bind broker.result).join)) }
    else none
  | some (.consuming partition loop) =>
    match broker.result loop with
    | none => none
    | some result =>
      some { broker with
        callers := broker.callers.set caller
          (.releasing partition result.toList) }
  | _ => none

/-- `Release` and `releaseAll`. -/
def release (caller : Nat) (broker : Broker settings Value) :
    Option (Broker settings Value) :=
  match broker.callers[caller]? with
  | some (.releasingAll errors) =>
    some { broker with
      claimed := fun _ => false
      callers := broker.callers.set caller (.returned errors) }
  | some (.releasing partition errors) =>
    some { broker with
      claimed := Function.update broker.claimed partition false
      callers := broker.callers.set caller (.returned errors) }
  | _ => none

/-- The broker after an action that can be taken. -/
def step (broker : Broker settings Value) :
    Action settings Value → Option (Broker settings Value)
  | .bus action => broker.move action
  | .runConsumerGroup =>
    some { broker with callers := broker.callers ++ [.grouping] }
  | .receive =>
    some { broker with callers := broker.callers ++ [.claiming] }
  | .claim caller => broker.claim caller
  | .consume caller partition => broker.consume caller partition
  | .finish caller => broker.finish caller
  | .release caller => broker.release caller

def machine (settings : Settings) (Value : Type) :
    Machine (Broker settings Value) (Action settings Value) where
  initial broker := broker = new settings Value
  step := step

end Broker

end Ironclaw.Bus
