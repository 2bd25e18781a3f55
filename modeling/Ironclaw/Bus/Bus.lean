import Ironclaw.Lib.Fault
import Ironclaw.Lib.Machine
import Ironclaw.Lib.Word
import Mathlib.Data.Fintype.Basic

/-!
# The in-memory bus

A bus has one buffered channel for each partition.  Any number of `Send` calls
and consume loops run on it at once, and `Close` at any moment.  The parts of
a call that other goroutines can observe apart are steps of their own: the
read of `closed`, each critical section of `sendMu`, the branch a `select`
takes, each handler call and each access to a counter.

Beside the state of the source the machine keeps, for each value, the number of
the `Send` call that brought it, and the values that were handed to a handler,
counted as delivered, counted as dead and abandoned.
-/

namespace Ironclaw

open Lib

namespace Bus

def errInvalidPartitions : Fault :=
  .sentinel "bus: partition count must be positive"

def errInvalidCapacity : Fault :=
  .sentinel "bus: partition capacity must be positive"

def errInvalidAttempts : Fault :=
  .sentinel "bus: max attempts must be positive"

def errClosed : Fault := .sentinel "bus: closed"

/-! ## Configuration -/

/-- The configuration before it is checked. -/
structure Config where
  partitions : Int64
  capacity : Int64
  maxAttempts : Int64
deriving DecidableEq, Repr

/-- The largest 32-bit integer. -/
def maxInt32 : Int64 := 2147483647

def Config.validate (config : Config) : Option Fault :=
  if config.partitions ≤ 0 then some errInvalidPartitions
  else if config.partitions > maxInt32 then some errInvalidPartitions
  else if config.capacity ≤ 0 then some errInvalidCapacity
  else if config.maxAttempts ≤ 0 then some errInvalidAttempts
  else none

/-- A configuration that a bus can be built from. -/
structure Settings where
  config : Config
  valid : config.validate = none

/-- The configuration of a new bus. -/
def Config.new (config : Config) : Except Fault Settings :=
  let config :=
    if config.maxAttempts = 0 then { config with maxAttempts := 1 }
    else config
  match valid : config.validate with
  | some fault => .error fault
  | none =>
    -- `New` repeats the check of the partition count before its cast.
    if config.partitions ≤ 0 ∨ config.partitions > maxInt32 then
      .error errInvalidPartitions
    else .ok ⟨config, valid⟩

namespace Settings

def partitions (settings : Settings) : Nat :=
  settings.config.partitions.toInt.toNat

def capacity (settings : Settings) : Nat :=
  settings.config.capacity.toInt.toNat

def maxAttempts (settings : Settings) : Int64 :=
  settings.config.maxAttempts

theorem bounds (settings : Settings) :
    0 < settings.partitions ∧ settings.partitions ≤ 2147483647 ∧
      1 ≤ settings.maxAttempts := by
  have valid := settings.valid
  simp only [Config.validate, Int64.le_iff_toInt_le,
    Int64.lt_iff_toInt_lt, gt_iff_lt] at valid
  have zero : (0 : Int64).toInt = 0 := rfl
  have one : (1 : Int64).toInt = 1 := rfl
  have largest : maxInt32.toInt = 2147483647 := rfl
  rw [zero, largest] at valid
  simp only [partitions, maxAttempts, Int64.le_iff_toInt_le, one]
  split_ifs at valid
  omega

/-! ## Partitions -/

/-- The 32-bit FNV-1a hash. -/
def fnv32a (bytes : List UInt8) : UInt32 :=
  bytes.foldl (fun hash byte => (hash ^^^ byte.toUInt32) * 16777619)
    2166136261

def partitionCount (settings : Settings) : UInt32 :=
  UInt32.ofNat settings.partitions

theorem toNat_partitionCount (settings : Settings) :
    settings.partitionCount.toNat = settings.partitions := by
  apply UInt32.toNat_ofNat_of_lt'
  have bounds := settings.bounds
  have size : UInt32.size = 4294967296 := rfl
  omega

/-- The partition of a key, by its hash. -/
def partitionFor (settings : Settings) (key : String) :
    Fin settings.partitions where
  val := (fnv32a key.toUTF8.toList % settings.partitionCount).toNat
  isLt := by
    rw [UInt32.toNat_mod, toNat_partitionCount]
    exact Nat.mod_lt _ settings.bounds.1

end Settings

/-! ## Calls and loops -/

/-- A value on its way, with the number of the call that sent it. -/
structure Parcel (Value : Type) where
  id : Nat
  value : Value
deriving DecidableEq, Repr

/-- Where a call of `Send` stands. -/
inductive Phase where
  | checking
  | entering
  | selecting
  | counting
  | leaving (result : Option Fault)
  | returned (result : Option Fault)
deriving DecidableEq

def Phase.isReturned : Phase → Bool
  | .returned _ => true
  | _ => false

/-- A call of `Send`. -/
structure SendCall (Value : Type) where
  key : String
  value : Value
  phase : Phase
deriving DecidableEq

/-- Where the delivery of a value stands. -/
inductive Delivery where
  | looping (attempt : Int64)
  | calling (attempt : Int64)
  | succeeded
  | failed (attempt : Int64)
  | abandoning
  | retrying (attempt : Int64)
  | burying
deriving DecidableEq

/-- Where a consume loop stands; it drains once it has seen the shutdown. -/
inductive Stage (Value : Type) where
  | selecting (draining : Bool)
  | delivering
      (draining : Bool) (parcel : Parcel Value) (delivery : Delivery)
  | returned (result : Option Fault)
deriving DecidableEq

def Stage.isReturned {Value : Type} : Stage Value → Bool
  | .returned _ => true
  | _ => false

/-- A consume loop with the error of its context, if that is done. -/
structure Consumer (partitions : Nat) (Value : Type) where
  partition : Fin partitions
  context : Option Fault
  stage : Stage Value
deriving DecidableEq

/--
Where the one execution of the body of `Close` stands.  Every other call of
`Close` waits for it.
-/
inductive Closer where
  | idle
  | locking
  | storing
  | announcing
  | checking
  | waiting
  | woken
  | unlocked
  | done
deriving DecidableEq

namespace Closer

/-- Whether `Close` holds `sendMu`. -/
def holdsLock : Closer → Bool
  | .storing | .announcing | .checking => true
  | _ => false

/-- The effect of a broadcast on `sendIdle`. -/
def wake : Closer → Closer
  | .waiting => .woken
  | closer => closer

end Closer

/-! ## The bus -/

end Bus

/-- The bus with its calls and consumers, and what became of each value. -/
structure Bus (settings : Bus.Settings) (Value : Type) where
  channels : Fin settings.partitions → List (Bus.Parcel Value)
  calls : List (Bus.SendCall Value)
  consumers : List (Bus.Consumer settings.partitions Value)
  closer : Bus.Closer
  closed : Bool
  closing : Bool
  shutdown : Bool
  inflight : Int
  published : Int64
  delivered : Int64
  retried : Int64
  dead : Int64
  abandoned : Int64
  deadLetter : List (Bus.Parcel Value)
  /-- One entry for each handler call. -/
  handed : List (Bus.Parcel Value)
  /-- The values counted in `delivered`. -/
  settled : List (Bus.Parcel Value)
  /-- The values counted in `dead`. -/
  buried : List (Bus.Parcel Value)
  /-- The values counted in `abandoned`. -/
  forsaken : List (Bus.Parcel Value)

namespace Bus

/-- One step of a sender, a consumer or `Close`. -/
inductive Action (settings : Settings) (Value : Type) where
  | send (key : String) (value : Value)
  | check (id : Nat)
  | enter (id : Nat)
  | push (id : Nat)
  | refuse (id : Nat)
  | expire (id : Nat) (fault : Fault)
  | count (id : Nat)
  | leave (id : Nat)
  | close
  | join (partition : Fin settings.partitions)
  | cancel (index : Nat) (fault : Fault)
  | quit (index : Nat)
  | receive (index : Nat)
  | shut (index : Nat)
  | finish (index : Nat)
  | handle (index : Nat) (result : Option Fault)
  | deliver (index : Nat)

variable {settings : Settings} {Value : Type}

/-- A new bus. -/
def new (settings : Settings) (Value : Type) : Bus settings Value where
  channels _ := []
  calls := []
  consumers := []
  closer := .idle
  closed := false
  closing := false
  shutdown := false
  inflight := 0
  published := 0
  delivered := 0
  retried := 0
  dead := 0
  abandoned := 0
  deadLetter := []
  handed := []
  settled := []
  buried := []
  forsaken := []

/-! ### Send -/

/-- A new call of `Send`. -/
def send (key : String) (value : Value) (bus : Bus settings Value) :
    Bus settings Value :=
  { bus with calls := bus.calls ++ [⟨key, value, .checking⟩] }

/-- The first read of `closed`. -/
def check (id : Nat) (bus : Bus settings Value) :
    Option (Bus settings Value) :=
  match bus.calls[id]? with
  | some ⟨key, value, .checking⟩ =>
    some { bus with
      calls := bus.calls.set id ⟨key, value,
        if bus.closed then .returned (some errClosed) else .entering⟩ }
  | _ => none

/-- `enterSend`. -/
def enter (id : Nat) (bus : Bus settings Value) :
    Option (Bus settings Value) :=
  match bus.calls[id]? with
  | some ⟨key, value, .entering⟩ =>
    if bus.closer.holdsLock then none
    else if bus.closed then
      some { bus with
        calls := bus.calls.set id
          ⟨key, value, .returned (some errClosed)⟩ }
    else
      some { bus with
        inflight := bus.inflight + 1
        calls := bus.calls.set id ⟨key, value, .selecting⟩ }
  | _ => none

/-- The channel takes the value. -/
def push (id : Nat) (bus : Bus settings Value) :
    Option (Bus settings Value) :=
  match bus.calls[id]? with
  | some ⟨key, value, .selecting⟩ =>
    let partition := settings.partitionFor key
    if (bus.channels partition).length < settings.capacity then
      some { bus with
        channels := Function.update bus.channels partition
          (bus.channels partition ++ [⟨id, value⟩])
        calls := bus.calls.set id ⟨key, value, .counting⟩ }
    else none
  | _ => none

/-- `closing` is closed. -/
def refuse (id : Nat) (bus : Bus settings Value) :
    Option (Bus settings Value) :=
  match bus.calls[id]? with
  | some ⟨key, value, .selecting⟩ =>
    if bus.closing then
      some { bus with
        calls := bus.calls.set id
          ⟨key, value, .leaving (some errClosed)⟩ }
    else none
  | _ => none

/-- The context of the call is done. -/
def expire (id : Nat) (fault : Fault) (bus : Bus settings Value) :
    Option (Bus settings Value) :=
  match bus.calls[id]? with
  | some ⟨key, value, .selecting⟩ =>
    some { bus with
      calls := bus.calls.set id ⟨key, value, .leaving (some fault)⟩ }
  | _ => none

def count (id : Nat) (bus : Bus settings Value) :
    Option (Bus settings Value) :=
  match bus.calls[id]? with
  | some ⟨key, value, .counting⟩ =>
    some { bus with
      published := bus.published + 1
      calls := bus.calls.set id ⟨key, value, .leaving none⟩ }
  | _ => none

/-- `leaveSend`. -/
def leave (id : Nat) (bus : Bus settings Value) :
    Option (Bus settings Value) :=
  match bus.calls[id]? with
  | some ⟨key, value, .leaving result⟩ =>
    if bus.closer.holdsLock then none
    else
      some { bus with
        inflight := bus.inflight - 1
        closer := if bus.inflight - 1 = 0 then bus.closer.wake
          else bus.closer
        calls := bus.calls.set id ⟨key, value, .returned result⟩ }
  | _ => none

/-! ### Close -/

/-- The next step of `Close`; it waits until a broadcast wakes it. -/
def close (bus : Bus settings Value) : Option (Bus settings Value) :=
  match bus.closer with
  | .idle => some { bus with closer := .locking }
  | .locking => some { bus with closer := .storing }
  | .storing => some { bus with closed := true, closer := .announcing }
  | .announcing => some { bus with closing := true, closer := .checking }
  | .checking =>
    if bus.inflight > 0 then some { bus with closer := .waiting }
    else some { bus with closer := .unlocked }
  | .waiting => none
  | .woken => some { bus with closer := .checking }
  | .unlocked => some { bus with shutdown := true, closer := .done }
  | .done => none

/-! ### Consume and drain -/

/-- A consume loop starts. -/
def join (partition : Fin settings.partitions) (bus : Bus settings Value) :
    Bus settings Value :=
  { bus with
    consumers := bus.consumers ++ [⟨partition, none, .selecting false⟩] }

/-- The context of a loop is done from now on. -/
def cancel (index : Nat) (fault : Fault) (bus : Bus settings Value) :
    Option (Bus settings Value) :=
  match bus.consumers[index]? with
  | some ⟨partition, none, stage⟩ =>
    some { bus with
      consumers := bus.consumers.set index ⟨partition, some fault, stage⟩ }
  | _ => none

/-- The loop sees that its context is done. -/
def quit (index : Nat) (bus : Bus settings Value) :
    Option (Bus settings Value) :=
  match bus.consumers[index]? with
  | some ⟨partition, some fault, .selecting _⟩ =>
    some { bus with
      consumers := bus.consumers.set index
        ⟨partition, some fault, .returned (some fault)⟩ }
  | _ => none

/-- A consumer takes the oldest value. -/
def receive (index : Nat) (bus : Bus settings Value) :
    Option (Bus settings Value) :=
  match bus.consumers[index]? with
  | some ⟨partition, context, .selecting draining⟩ =>
    match bus.channels partition with
    | [] => none
    | parcel :: rest =>
      some { bus with
        channels := Function.update bus.channels partition rest
        consumers := bus.consumers.set index
          ⟨partition, context, .delivering draining parcel (.looping 1)⟩ }
  | _ => none

/-- The loop sees the shutdown, and drains from now on. -/
def shut (index : Nat) (bus : Bus settings Value) :
    Option (Bus settings Value) :=
  match bus.consumers[index]? with
  | some ⟨partition, context, .selecting false⟩ =>
    if bus.shutdown then
      some { bus with
        consumers := bus.consumers.set index
          ⟨partition, context, .selecting true⟩ }
    else none
  | _ => none

/-- Nothing is left to drain: the default branch, when no other is ready. -/
def finish (index : Nat) (bus : Bus settings Value) :
    Option (Bus settings Value) :=
  match bus.consumers[index]? with
  | some ⟨partition, none, .selecting true⟩ =>
    match bus.channels partition with
    | [] =>
      some { bus with
        consumers := bus.consumers.set index
          ⟨partition, none, .returned none⟩ }
    | _ :: _ => none
  | _ => none

/-! ### Deliver -/

/-- A handler call returns. -/
def handle (index : Nat) (result : Option Fault)
    (bus : Bus settings Value) : Option (Bus settings Value) :=
  match bus.consumers[index]? with
  | some ⟨partition, context, .delivering draining parcel
      (.calling attempt)⟩ =>
      some { bus with
        consumers := bus.consumers.set index
          ⟨partition, context, .delivering draining parcel (match result with
              | none => .succeeded
              | some _ => .failed attempt)⟩ }
  | _ => none

/-- The next step of `deliver` outside a handler call. -/
def deliver (index : Nat) (bus : Bus settings Value) :
    Option (Bus settings Value) :=
  match bus.consumers[index]? with
  | some ⟨partition, context, .delivering draining parcel delivery⟩ =>
    let move stage :=
      bus.consumers.set index ⟨partition, context, stage⟩
    let deliver delivery := move (.delivering draining parcel delivery)
    match delivery with
    | .looping attempt =>
      if attempt ≤ settings.maxAttempts then
        some { bus with
          consumers := deliver (.calling attempt)
          handed := bus.handed ++ [parcel] }
      else
        some { bus with
          consumers := deliver .burying
          dead := bus.dead + 1
          buried := bus.buried ++ [parcel] }
    | .calling _ => none
    | .succeeded =>
      some { bus with
        consumers := move (.selecting draining)
        delivered := bus.delivered + 1
        settled := bus.settled ++ [parcel] }
    | .failed attempt =>
      some { bus with
        consumers := deliver
          (if context.isSome then .abandoning
            else if attempt < settings.maxAttempts then
              .retrying attempt
            else .looping (attempt + 1)) }
    | .abandoning =>
      some { bus with
        consumers := move (.selecting draining)
        abandoned := bus.abandoned + 1
        forsaken := bus.forsaken ++ [parcel] }
    | .retrying attempt =>
      some { bus with
        consumers := deliver (.looping (attempt + 1))
        retried := bus.retried + 1 }
    | .burying =>
      some { bus with
        consumers := move (.selecting draining)
        deadLetter := bus.deadLetter ++ [parcel] }
  | _ => none

/-! ### Steps -/

/-- The step an action takes, if it can be taken. -/
def step (bus : Bus settings Value) :
    Action settings Value → Option (Bus settings Value)
  | .send key value => some (bus.send key value)
  | .check id => bus.check id
  | .enter id => bus.enter id
  | .push id => bus.push id
  | .refuse id => bus.refuse id
  | .expire id fault => bus.expire id fault
  | .count id => bus.count id
  | .leave id => bus.leave id
  | .close => bus.close
  | .join partition => some (bus.join partition)
  | .cancel index fault => bus.cancel index fault
  | .quit index => bus.quit index
  | .receive index => bus.receive index
  | .shut index => bus.shut index
  | .finish index => bus.finish index
  | .handle index result => bus.handle index result
  | .deliver index => bus.deliver index

def machine (settings : Settings) (Value : Type) :
    Machine (Bus settings Value) (Action settings Value) where
  initial bus := bus = new settings Value
  step := step

end Bus

end Ironclaw
