import Ironclaw.Domain.Key

/-!
# The synthetic source

A source of events for one device.  Its loop makes one event after the other
and offers it on a channel, until it has made them all or the source is
closed.  What it draws at random is given from outside.
-/

namespace Ironclaw.Pipeline

open Lib Domain

def errInvalidEventCount : Fault :=
  .sentinel "pipeline: event count must be positive"
def errNoProcesses : Fault :=
  .sentinel "pipeline: process id set must not be empty"
def errSourceClosed : Fault := .sentinel "pipeline: source is closed"

structure SyntheticConfig where
  deviceID : String
  userID : String
  podID : String
  processIDs : List Int32
  eventCount : Int64
  interval : Int64

/-- What the source reads from the clock and draws for an event. -/
structure Draw where
  observedAt : Time
  latencyNanos : Int64
  bytes : Int64
  failed : Bool

namespace SyntheticConfig

def validate (config : SyntheticConfig) : Option Fault :=
  if config.deviceID = "" then some errMissingDeviceID
  else if config.userID = "" then some errMissingUserID
  else if config.eventCount ≤ 0 then some errInvalidEventCount
  else if config.processIDs = [] then some errNoProcesses
  else none

/-- The event of an index. -/
def next (config : SyntheticConfig) (index : Nat) (draw : Draw) : Event where
  deviceID := config.deviceID
  userID := config.userID
  processID := config.processIDs.getD (index % config.processIDs.length) 0
  podID := config.podID
  kind := .syscall
  observedAt := draw.observedAt
  latencyNanos := draw.latencyNanos
  bytes := draw.bytes
  failed := draw.failed

end SyntheticConfig

/-- Where the loop of the source stands. -/
inductive SourceStage where
  | idle
  | looping
  | offering (event : Event)
  | pausing
  | ended
deriving DecidableEq

/-- A source, with the number of events that its channel has passed on. -/
structure SyntheticSource where
  config : SyntheticConfig
  closed : Bool
  produced : Nat
  stage : SourceStage

namespace SyntheticSource

def new (config : SyntheticConfig) : Except Fault SyntheticSource :=
  match config.validate with
  | some fault => .error fault
  | none => .ok ⟨config, false, 0, .idle⟩

/-- `Events`: a closed source has none. -/
def events (source : SyntheticSource) : Except Fault SyntheticSource :=
  if source.closed then .error errSourceClosed
  else .ok { source with stage := .looping }

/-- The next turn of the loop, up to its select. -/
def offer (draw : Draw) (source : SyntheticSource) :
    Option SyntheticSource :=
  match source.stage with
  | .looping =>
    if (source.produced : Int) < source.config.eventCount.toInt then
      let event := source.config.next source.produced draw
      some { source with
        stage := if source.closed then .ended else .offering event }
    else some { source with stage := .ended }
  | _ => none

/-- The channel takes the event that is offered. -/
def hand (source : SyntheticSource) : Option (Event × SyntheticSource) :=
  match source.stage with
  | .offering event =>
    some (event, { source with
      produced := source.produced + 1
      stage := if 0 < source.config.interval then .pausing
        else .looping })
  | _ => none

/-- The pause between two events is over. -/
def wake (source : SyntheticSource) : Option SyntheticSource :=
  match source.stage with
  | .pausing => some { source with stage := .looping }
  | _ => none

/-- The loop sees in a select that the source is closed. -/
def halt (source : SyntheticSource) : Option SyntheticSource :=
  match source.stage, source.closed with
  | .offering _, true => some { source with stage := .ended }
  | .pausing, true => some { source with stage := .ended }
  | _, _ => none

def close (source : SyntheticSource) : SyntheticSource :=
  { source with closed := true }

end SyntheticSource

end Ironclaw.Pipeline
