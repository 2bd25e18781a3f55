import Ironclaw.Lib.Fault
import Ironclaw.Lib.Machine
import Ironclaw.Lib.Word

/-!
# The asynchronous recorder of metrics

`Increment` puts a sample into a bounded buffer without waiting, and a drain
goroutine forwards the samples to the recorder behind it.  `Close` sets a flag,
tells the goroutine to drain the buffer and waits until it has returned.

Any number of calls of `Increment` and `Close` run beside the goroutine, and
every access to the flag, the buffer and the drop counter is a step of its own.
The recorder behind is the list of the samples that it was given.
-/

namespace Ironclaw.Metrics

open Lib

def errNilRecorder : Fault :=
  .sentinel "metrics: underlying recorder is nil"

def defaultBuffer : Int64 := 4096

structure Sample where
  name : String
  delta : Int64
deriving DecidableEq

/-- Where a call of `Increment` stands. -/
inductive Phase where
  /-- The flag is to be read. -/
  | checking
  /-- The flag was not set; the sample is to be sent. -/
  | sending
  /-- The sample is to be counted as dropped. -/
  | dropping
  | returned
deriving DecidableEq

structure IncrementCall where
  sample : Sample
  phase : Phase
deriving DecidableEq

/-- Where a call of `Close` stands. -/
inductive CloseCall where
  | swapping
  | closing
  | waiting
  | returned
deriving DecidableEq

/-- Where the drain goroutine stands. -/
inductive Drain where
  | selecting
  /-- A sample is to be forwarded, in the loop after `done` if it is set. -/
  | forwarding (sample : Sample) (last : Bool)
  | draining
  | returned
deriving DecidableEq

/-- The recorder, its goroutine and its calls. -/
structure Async where
  /-- The size of the buffer. -/
  buffer : Nat
  samples : List Sample
  /-- Whether the channel `done` is closed. -/
  done : Bool
  closed : Bool
  dropped : Int64
  drain : Drain
  calls : List IncrementCall
  closers : List CloseCall
  /-- What the recorder behind was given. -/
  forwarded : List Sample

/-- One step of a call or of the drain. -/
inductive Action where
  | increment (sample : Sample)
  | check (id : Nat)
  | send (id : Nat)
  | drop (id : Nat)
  | receive
  | forward
  | finish
  | stop
  | close
  | swap (id : Nat)
  | closeDone (id : Nat)
  | wait (id : Nat)

/-- `NewAsync`, with whether a recorder was given. -/
def newAsync (inner : Bool) (buffer : Int64) : Except Fault Async :=
  if inner then
    let buffer := if buffer ≤ 0 then defaultBuffer else buffer
    .ok
      { buffer := buffer.toInt.toNat
        samples := []
        done := false
        closed := false
        dropped := 0
        drain := .selecting
        calls := []
        closers := []
        forwarded := [] }
  else .error errNilRecorder

namespace Async

/-! ## Increment -/

def increment (sample : Sample) (async : Async) : Async :=
  { async with calls := async.calls ++ [⟨sample, .checking⟩] }

/-- The flag is read. -/
def check (id : Nat) (async : Async) : Option Async :=
  match async.calls[id]? with
  | some ⟨sample, .checking⟩ =>
    some { async with
      calls := async.calls.set id
        ⟨sample, if async.closed then .dropping else .sending⟩ }
  | _ => none

/-- The select: the buffer takes the sample, or it is full. -/
def send (id : Nat) (async : Async) : Option Async :=
  match async.calls[id]? with
  | some ⟨sample, .sending⟩ =>
    if async.samples.length < async.buffer then
      some { async with
        samples := async.samples ++ [sample]
        calls := async.calls.set id ⟨sample, .returned⟩ }
    else
      some { async with
        calls := async.calls.set id ⟨sample, .dropping⟩ }
  | _ => none

def drop (id : Nat) (async : Async) : Option Async :=
  match async.calls[id]? with
  | some ⟨sample, .dropping⟩ =>
    some { async with
      dropped := async.dropped + 1
      calls := async.calls.set id ⟨sample, .returned⟩ }
  | _ => none

/-! ## Drain -/

/-- A select of the goroutine takes a sample. -/
def receive (async : Async) : Option Async :=
  match async.samples, async.drain with
  | sample :: rest, .selecting =>
    some { async with
      samples := rest
      drain := .forwarding sample false }
  | sample :: rest, .draining =>
    some { async with
      samples := rest
      drain := .forwarding sample true }
  | _, _ => none

/-- Hand a sample to the recorder. -/
def forward (async : Async) : Option Async :=
  match async.drain with
  | .forwarding sample last =>
    some { async with
      forwarded := async.forwarded ++ [sample]
      drain := if last then .draining else .selecting }
  | _ => none

/-- The goroutine sees that `done` is closed. -/
def finish (async : Async) : Option Async :=
  match async.drain, async.done with
  | .selecting, true => some { async with drain := .draining }
  | _, _ => none

/-- The last select finds the buffer empty. -/
def stop (async : Async) : Option Async :=
  match async.drain, async.samples with
  | .draining, [] => some { async with drain := .returned }
  | _, _ => none

/-! ## Close -/

def close (async : Async) : Async :=
  { async with closers := async.closers ++ [.swapping] }

/-- The first call sets the flag; any other returns. -/
def swap (id : Nat) (async : Async) : Option Async :=
  match async.closers[id]? with
  | some .swapping =>
    some { async with
      closed := true
      closers := async.closers.set id
        (if async.closed then .returned else .closing) }
  | _ => none

def closeDone (id : Nat) (async : Async) : Option Async :=
  match async.closers[id]? with
  | some .closing =>
    some { async with
      done := true
      closers := async.closers.set id .waiting }
  | _ => none

/-- The goroutine has returned. -/
def wait (id : Nat) (async : Async) : Option Async :=
  match async.closers[id]?, async.drain with
  | some .waiting, .returned =>
    some { async with closers := async.closers.set id .returned }
  | _, _ => none

/-! ## Steps -/

/-- The recorder after an action that can be taken. -/
def step (async : Async) : Action → Option Async
  | .increment sample => some (async.increment sample)
  | .check id => async.check id
  | .send id => async.send id
  | .drop id => async.drop id
  | .receive => async.receive
  | .forward => async.forward
  | .finish => async.finish
  | .stop => async.stop
  | .close => some async.close
  | .swap id => async.swap id
  | .closeDone id => async.closeDone id
  | .wait id => async.wait id

end Async

def asyncMachine (buffer : Int64) : Machine Async Action where
  initial async := newAsync true buffer = .ok async
  step := Async.step

end Ironclaw.Metrics
