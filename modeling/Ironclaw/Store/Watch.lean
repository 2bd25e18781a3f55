import Ironclaw.Lib.Machine
import Ironclaw.Store.Memory

/-!
# Watching a device

`WatchDevice` registers a channel under the key of a device, and a goroutine
waits for the context of the call and then takes the channel off the list and
closes it.  A change of the device is offered to the channels of its key while
the lock of the store is held, so a call is one step; so are the end of a
context, the goroutine and every read of a channel.

Beside the store the machine keeps for each channel what its reader received,
and the states of its device after every change that was made while it was
registered.
-/

namespace Ironclaw.Store

open Lib Domain

namespace Memory

/-- The subscribers of a key, in the order of their registration. -/
def subscribersOf (key : String) (memory : Memory) : List Nat :=
  (memory.watchers.lookup key).getD []

/-- Subscribe to the updates of a device. -/
def watchDevice
    (context : Option Fault) (userID deviceID : String) (memory : Memory) :
    Memory × Except Fault Nat :=
  match context with
  | some fault => (memory, .error fault)
  | none =>
    if userID = "" ∨ deviceID = "" then
      (memory, .error errDeviceNotFound)
    else
      let key := deviceKey userID deviceID
      let subscriber := memory.subscribers.length
      ({ memory with
          watchers := memory.watchers.insert key
            (memory.subscribersOf key ++ [subscriber])
          subscribers := memory.subscribers ++ [⟨[], false⟩] },
        .ok subscriber)

/-- Take a subscriber off the list of its key. -/
def unlist (key : String) (subscriber : Nat) (memory : Memory) : Memory :=
  let remaining := (memory.subscribersOf key).filter
    fun existing => existing ≠ subscriber
  { memory with
    watchers :=
      if remaining = [] then memory.watchers.erase key
      else memory.watchers.insert key remaining }

/-- Close the channel of a subscriber, unless it is closed. -/
def closeUpdates (subscriber : Nat) (memory : Memory) : Memory :=
  match memory.subscribers[subscriber]? with
  | some watcher =>
    if watcher.closed then memory
    else
      { memory with
        subscribers := memory.subscribers.set subscriber
          { watcher with closed := true } }
  | none => memory

/-- End a subscription, and close its channel. -/
def unwatch (key : String) (subscriber : Nat) (memory : Memory) : Memory :=
  (memory.unlist key subscriber).closeUpdates subscriber

/-- A read of a channel that holds an update. -/
def readUpdate (subscriber : Nat) (memory : Memory) :
    Option (DeviceState × Memory) :=
  match memory.subscribers[subscriber]? with
  | some ⟨state :: rest, closed⟩ =>
    some (state, { memory with
      subscribers := memory.subscribers.set subscriber ⟨rest, closed⟩ })
  | _ => none

/-- The updates that the channel of a subscriber holds. -/
def buffered (memory : Memory) (subscriber : Nat) : List DeviceState :=
  match memory.subscribers[subscriber]? with
  | some watcher => watcher.updates
  | none => []

end Memory

/-! ## The watched store -/

/-- The reader of a channel, and the goroutine that closes it. -/
structure Observer where
  userID : String
  deviceID : String
  /-- The context of the watch is done. -/
  cancelled : Bool
  /-- The goroutine has returned. -/
  ended : Bool
  /-- How often the channel was closed. -/
  closes : Nat
  received : List DeviceState
  /-- The states of the device after each change while registered. -/
  offered : List DeviceState
deriving DecidableEq

/-- Observers are numbered as the subscribers of the store. -/
structure Watching where
  memory : Memory
  observers : List Observer

/-- A call of the store, or one of an observer. -/
inductive WatchAction where
  | watch (context : Option Fault) (userID deviceID : String)
  | cancel (id : Nat)
  | unwatch (id : Nat)
  | apply (context : Option Fault) (window : AggregateWindow)
  | reset (context : Option Fault) (userID deviceID : String)
  | read (id : Nat)

/-- A device whose state changed to another one. -/
structure Change where
  userID : String
  deviceID : String
  state : DeviceState

/-- A change counts for the observers of its device that are registered. -/
def Observer.offer (change : Change) (observer : Observer) : Observer :=
  if observer.ended = false ∧ observer.userID = change.userID ∧
      observer.deviceID = change.deviceID then
    { observer with offered := observer.offered ++ [change.state] }
  else observer

namespace Watching

/-- The state of a device, as a change. -/
def changeTo (userID deviceID : String) (after : Memory) :
    Option Change :=
  (after.devices.lookup (deviceKey userID deviceID)).map fun record =>
    ⟨userID, deviceID, record.state⟩

/-- What `ApplyWindow` changes: nothing if the emission is a duplicate. -/
def applied
    (context : Option Fault) (window : AggregateWindow) (memory : Memory) :
    Option Change :=
  if context = none ∧
      window.identity ∉ (memory.recordFor window).2.applied then
    changeTo window.key.userID window.key.deviceID
      (memory.applyWindow context window).1
  else none

/-- What `ResetDevice` changes: nothing if there is no such device. -/
def wiped
    (context : Option Fault) (userID deviceID : String)
    (memory : Memory) : Option Change :=
  if context = none then
    changeTo userID deviceID
      (memory.resetDevice context userID deviceID).1
  else none

/-- The observers after a change of the store. -/
def observe (change : Option Change) (observers : List Observer) :
    List Observer :=
  match change with
  | none => observers
  | some change => observers.map (Observer.offer change)

def watch
    (context : Option Fault) (userID deviceID : String)
    (watching : Watching) : Watching :=
  match watching.memory.watchDevice context userID deviceID with
  | (memory, .ok _) =>
    ⟨memory, watching.observers ++
      [⟨userID, deviceID, false, false, 0, [], []⟩]⟩
  | (memory, .error _) => ⟨memory, watching.observers⟩

def cancel (id : Nat) (watching : Watching) : Option Watching :=
  match watching.observers[id]? with
  | some observer =>
    some { watching with
      observers := watching.observers.set id
        { observer with cancelled := true } }
  | none => none

/-- Whether the channel of a subscriber is closed. -/
def isClosed (id : Nat) (memory : Memory) : Bool :=
  match memory.subscribers[id]? with
  | some watcher => watcher.closed
  | none => false

/-- The goroutine of a watch whose context is done. -/
def unwatch (id : Nat) (watching : Watching) : Option Watching :=
  match watching.observers[id]? with
  | some observer =>
    if observer.cancelled = true ∧ observer.ended = false then
      let memory := watching.memory.unwatch
        (deviceKey observer.userID observer.deviceID) id
      -- The channel is closed now, and was not before.
      let closes :=
        if isClosed id memory = true ∧
            isClosed id watching.memory = false then
          observer.closes + 1
        else observer.closes
      some ⟨memory, watching.observers.set id
        { observer with ended := true, closes := closes }⟩
    else none
  | none => none

def apply
    (context : Option Fault) (window : AggregateWindow)
    (watching : Watching) : Watching :=
  ⟨(watching.memory.applyWindow context window).1,
    observe (applied context window watching.memory) watching.observers⟩

def reset
    (context : Option Fault) (userID deviceID : String)
    (watching : Watching) : Watching :=
  ⟨(watching.memory.resetDevice context userID deviceID).1,
    observe (wiped context userID deviceID watching.memory)
      watching.observers⟩

def read (id : Nat) (watching : Watching) : Option Watching :=
  match watching.observers[id]?, watching.memory.readUpdate id with
  | some observer, some (state, memory) =>
    some ⟨memory, watching.observers.set id
      { observer with received := observer.received ++ [state] }⟩
  | _, _ => none

/-- The store and its observers after an action. -/
def step (watching : Watching) : WatchAction → Option Watching
  | .watch context userID deviceID =>
    some (watching.watch context userID deviceID)
  | .cancel id => watching.cancel id
  | .unwatch id => watching.unwatch id
  | .apply context window => some (watching.apply context window)
  | .reset context userID deviceID =>
    some (watching.reset context userID deviceID)
  | .read id => watching.read id

end Watching

def watchMachine : Machine Watching WatchAction where
  initial watching := watching = ⟨Memory.new, []⟩
  step := Watching.step

/-- The user ids of a call are free of the closing brace. -/
def WatchAction.Plain : WatchAction → Prop
  | .watch _ userID _ | .reset _ userID _ => Store.Plain userID
  | .apply _ window => Store.Plain window.key.userID
  | _ => True

end Ironclaw.Store
