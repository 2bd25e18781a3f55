import Ironclaw.Disk.Spool
import Ironclaw.Domain.Tally

/-!
# The agent's transport

A batch is posted to the edge.  A batch that the edge refused for good is
counted and reported; one that could not be delivered goes to the spool, which
`Drain` empties from the oldest entry on.

What the edge answers to a post is a parameter of the call, and so is the
result of the encoder.  Waiting times are not modelled.
-/

namespace Ironclaw.Transport

open Lib Domain Disk

def errRejected : Fault :=
  .sentinel "transport: edge rejected the batch"
def errUnacceptable : Fault :=
  .sentinel "transport: edge permanently refused the batch"

def metricSent : String := "agent_batches_sent"
def metricSpooled : String := "agent_batches_spooled"
def metricDrained : String := "agent_batches_drained"
def metricSpoolDropped : String := "agent_spool_dropped"
def metricRefused : String := "agent_batches_refused"
def metricReleaseFailed : String := "agent_spool_release_failed"

def statusRequestTimeout : Int := 408
def statusTooManyRequests : Int := 429

/-- How a post ends: with a status, or without an answer. -/
inductive Reply where
  | answered (status : Int)
  | failed (fault : Fault)
deriving DecidableEq

def permanentlyRefused (status : Int) : Bool :=
  if status < 400 ∨ 500 ≤ status then false
  else if status = statusRequestTimeout ∨
      status = statusTooManyRequests then false
  else true

/-- The error that `post` returns. -/
def post : Reply → Option Fault
  | .failed fault => some fault
  | .answered status =>
    if 200 ≤ status ∧ status < 300 then none
    else if permanentlyRefused status then
      some (.detailed errUnacceptable ("status " ++ toString status))
    else some (.detailed errRejected ("status " ++ toString status))

/-- The transport: its spool and its counters. -/
structure HTTPS where
  queue : Option Spool
  metrics : Recorder
  lastDropped : Int64

namespace HTTPS

def record (name : String) (delta : Int64) (https : HTTPS) : HTTPS :=
  { https with metrics := https.metrics.record name delta }

theorem forall_record
    {https : HTTPS} {holds : Int64 → Prop} {counter name : String}
    {delta : Int64} (different : counter ≠ name)
    (known : ∀ metrics, https.metrics = some metrics →
      holds (Metrics.value metrics counter)) :
    ∀ metrics, (https.record name delta).metrics = some metrics →
      holds (Metrics.value metrics counter) := by
  intro metrics recorded
  obtain ⟨old, present, rfl⟩ := Option.map_eq_some_iff.mp recorded
  rw [Metrics.value_increment_of_ne old delta different]
  exact known old present

/-! ## Send -/

/-- Where a `Send` stands after its post. -/
inductive Sending where
  | returned (fault : Option Fault)
  | spooling
deriving DecidableEq

/-- Count the result of the post, and return unless it is to be spooled. -/
def settle (posted : Option Fault) (https : HTTPS) : HTTPS × Sending :=
  match posted with
  | none => (https.record metricSent 1, .returned none)
  | some fault =>
    if fault.is errUnacceptable then
      (https.record metricRefused 1, .returned (some fault))
    else if https.queue.isNone then (https, .returned (some fault))
    else (https.record metricSpooled 1, .spooling)

/-- Swap the count of dropped entries that was reported last. -/
def swapDropped (dropped : Int64) (https : HTTPS) : HTTPS × Int64 :=
  ({ https with lastDropped := dropped }, dropped - https.lastDropped)

def reportDropped (delta : Int64) (https : HTTPS) : HTTPS :=
  if 0 < delta then https.record metricSpoolDropped delta else https

@[simp]
theorem queue_reportDropped (delta : Int64) (https : HTTPS) :
    (https.reportDropped delta).queue = https.queue := by
  rw [reportDropped]
  split <;> rfl

def recordSpoolDrops (dropped : Int64) (https : HTTPS) : HTTPS :=
  let swapped := https.swapDropped dropped
  swapped.1.reportDropped swapped.2

/-- Post a payload, and spool one that is not refused for good. -/
def send
    (encoded : Except Fault Payload) (reply : Reply) (https : HTTPS) :
    FsProgram (HTTPS × Option Fault) :=
  match encoded with
  | .error fault => pure (https, some fault)
  | .ok payload =>
    match https.settle (post reply), https.queue with
    | (https, .returned fault), _ => pure (https, fault)
    | (https, .spooling), some spool => do
        let (spool, enqueued) ← spool.enqueue payload
        let https := { https with queue := some spool }
        pure (https.recordSpoolDrops spool.dropped, enqueued)
    -- Without a spool nothing is left to be spooled.
    | (https, .spooling), none => pure (https, none)

/-! ## Drain -/

/-- How one turn of the loop of `Drain` ends. -/
inductive Turn where
  | stopped
  | idle
  | retry
  | drained
  | refused
deriving DecidableEq

/-- Count the end of a turn, after `Release` answered. -/
def settleRelease
    (turn : Turn) (released : Option Fault) (https : HTTPS) : HTTPS :=
  let https :=
    if released.isSome then https.record metricReleaseFailed 1 else https
  match turn with
  | .drained => https.record metricDrained 1
  | .refused => https.record metricRefused 1
  | _ => https

/-- What a turn does with the oldest entry, by the result of its post. -/
def judge : Option Fault → Turn
  | none => .drained
  | some fault => if fault.is errUnacceptable then .refused else .retry

/-- One turn of the loop of `Drain`. -/
def drainTurn (reply : Reply) (https : HTTPS) :
    FsProgram (HTTPS × Turn) :=
  match https.queue with
  | none => pure (https, .stopped)
  | some spool => do
      let (spool, peeked) ← spool.peek
      let https := { https with queue := some spool }
      match peeked, judge (post reply) with
      | .error _, _ => pure (https, .idle)
      | .ok _, .retry => pure (https, .retry)
      | .ok (_, name), turn => do
          let (spool, released) ← spool.release name
          let https := { https with queue := some spool }
          pure (https.settleRelease turn released, turn)

end HTTPS

/-! ## Statuses -/

theorem post_of_permanentlyRefused
    {status : Int} (refused : permanentlyRefused status = true) :
    ∃ fault, post (.answered status) = some fault ∧
      fault.is errUnacceptable = true := by
  have outside : ¬(200 ≤ status ∧ status < 300) := by
    rintro ⟨_, small⟩
    rw [permanentlyRefused, if_pos (by omega)] at refused
    cases refused
  refine ⟨.detailed errUnacceptable ("status " ++ toString status), ?_,
    Fault.is_detailed (Fault.is_self errUnacceptable)⟩
  rw [post, if_neg outside, if_pos refused]

end Ironclaw.Transport
