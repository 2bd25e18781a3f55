import Ironclaw.Lib.Fault

/-!
# Events and batches

The telemetry events of a device and the batches its agent sends, with the
checks made on them at every boundary of the pipeline.
-/

namespace Ironclaw.Domain

open Lib

/--
An instant, in nanoseconds since the Unix epoch.  The range of the source's
time type is far wider than the 64-bit `unixNano`, which wraps.
-/
structure Time where
  nanos : Int
deriving DecidableEq, Repr

namespace Time

/-- The zero time: midnight, January 1, year 1. -/
def zero : Time := ⟨-62135596800000000000⟩

def isZero (time : Time) : Bool := time == zero

def unixNano (time : Time) : Int64 := Int64.ofInt time.nanos

/-- The whole seconds since the Unix epoch. -/
def unixSeconds (time : Time) : Int := time.nanos / 1000000000

/-- The instant `nanoseconds` after the Unix epoch. -/
def unix (nanoseconds : Int64) : Time := ⟨nanoseconds.toInt⟩

def add (time : Time) (duration : Int64) : Time :=
  ⟨time.nanos + duration.toInt⟩

def after (time other : Time) : Bool := other.nanos < time.nanos

def before (time other : Time) : Bool := time.nanos < other.nanos

/-- The instants that `unixNano` can represent, from 1677 to 2262. -/
def Representable (time : Time) : Prop :=
  -9223372036854775808 ≤ time.nanos ∧ time.nanos ≤ 9223372036854775807

theorem toInt_unixNano {time : Time} (fits : time.Representable) :
    time.unixNano.toInt = time.nanos := by
  have upper : time.nanos < 9223372036854775808 := Int.lt_add_one_of_le fits.2
  exact Int64.toInt_ofInt_of_le fits.1 upper

theorem unix_unixNano {time : Time} (fits : time.Representable) :
    unix time.unixNano = time := by
  rw [unix, toInt_unixNano fits]

theorem unixSeconds_le (time : Time) :
    1000000000 * time.unixSeconds ≤ time.nanos ∧
      time.nanos < 1000000000 * (time.unixSeconds + 1) := by
  rw [unixSeconds]
  omega

theorem unixSeconds_mono
    {time later : Time} (order : time.nanos ≤ later.nanos) :
    time.unixSeconds ≤ later.unixSeconds :=
  Int.ediv_le_ediv (by decide) order

end Time

/-- The kind of an event: an open enumeration of one byte. -/
structure EventKind where
  code : UInt8
deriving DecidableEq, Repr

namespace EventKind

def unknown : EventKind := ⟨0⟩
def syscall : EventKind := ⟨1⟩
def network : EventKind := ⟨2⟩
def processExec : EventKind := ⟨3⟩
def processExit : EventKind := ⟨4⟩

/-- The names of the recognised kinds. -/
def names : List (EventKind × String) :=
  [(unknown, "unknown"), (syscall, "syscall"), (network, "network"),
    (processExec, "process_exec"),
    (processExit, "process_exit")]

def valid (kind : EventKind) : Bool := (names.lookup kind).isSome

end EventKind

def errMissingDeviceID : Fault :=
  .sentinel "domain: device id is empty"
def errMissingUserID : Fault :=
  .sentinel "domain: user id is empty"
def errInvalidKind : Fault :=
  .sentinel "domain: event kind is not recognised"
def errNegativeLatency : Fault :=
  .sentinel "domain: latency must not be negative"
def errNegativeBytes : Fault :=
  .sentinel "domain: bytes must not be negative"
def errZeroTimestamp : Fault :=
  .sentinel "domain: observed timestamp is zero"
def errDeviceMismatch : Fault :=
  .sentinel "domain: event device id does not match authenticated identity"

/-- One observation of a process on a device. -/
structure Event where
  deviceID : String
  userID : String
  processID : Int32
  podID : String
  kind : EventKind
  observedAt : Time
  latencyNanos : Int64
  bytes : Int64
  failed : Bool
deriving DecidableEq, Repr

/-- The first check an event fails, in the order of the source. -/
def Event.validate (event : Event) : Option Fault :=
  if event.deviceID = "" then some errMissingDeviceID
  else if event.userID = "" then some errMissingUserID
  else if !event.kind.valid then some errInvalidKind
  else if event.latencyNanos < 0 then some errNegativeLatency
  else if event.bytes < 0 then some errNegativeBytes
  else if event.observedAt.isZero then some errZeroTimestamp
  else none

/-- Events that one device sends together. -/
structure Batch where
  deviceID : String
  createdAt : Time
  events : List Event
deriving DecidableEq, Repr

namespace Batch

/-- The first event, counted from `index`, that `Batch.validate` refuses. -/
def validateEvents (deviceID : String) :
    Nat → List Event → Option Fault
  | _, [] => none
  | index, event :: rest =>
    match event.validate with
    | some fault =>
      some (.wrapped
        ("domain: batch event " ++ toString index ++ " invalid") fault)
    | none =>
      if event.deviceID ≠ deviceID then
        some (.wrapped
          ("domain: batch event " ++ toString index) errDeviceMismatch)
      else validateEvents deviceID (index + 1) rest

def validate (batch : Batch) : Option Fault :=
  if batch.deviceID = "" then some errMissingDeviceID
  else validateEvents batch.deviceID 0 batch.events

/-- The first event, counted from `index`, of another device. -/
def verifyEvents (authenticated : String) :
    Nat → List Event → Option Fault
  | _, [] => none
  | index, event :: rest =>
    if event.deviceID ≠ authenticated then
      some (.wrapped ("domain: event " ++ toString index ++ " claims " ++
          event.deviceID.quote ++ " but connection is " ++
          authenticated.quote) errDeviceMismatch)
    else verifyEvents authenticated (index + 1) rest

def verifyIdentity
    (batch : Batch) (authenticated : String) : Option Fault :=
  if batch.deviceID ≠ authenticated then
    some (.wrapped ("domain: batch claims " ++ batch.deviceID.quote ++
        " but connection is " ++ authenticated.quote) errDeviceMismatch)
  else verifyEvents authenticated 0 batch.events

theorem validateEvents_eq_none_iff
    (deviceID : String) (index : Nat) (events : List Event) :
    validateEvents deviceID index events = none ↔ ∀ event ∈ events,
        event.validate = none ∧ event.deviceID = deviceID := by
  induction events generalizing index with
  | nil => simp [validateEvents]
  | cons event rest induction =>
    simp only [validateEvents, List.forall_mem_cons]
    cases valid : event.validate with
    | some fault => simp
    | none =>
      by_cases same : event.deviceID = deviceID
      · simp [same, induction]
      · simp [same]

theorem verifyEvents_eq_none_iff
    (authenticated : String) (index : Nat) (events : List Event) :
    verifyEvents authenticated index events = none ↔
      ∀ event ∈ events, event.deviceID = authenticated := by
  induction events generalizing index with
  | nil => simp [verifyEvents]
  | cons event rest induction =>
    simp only [verifyEvents, List.forall_mem_cons]
    by_cases same : event.deviceID = authenticated
    · simp [same, induction]
    · simp [same]

/-- A batch passes exactly when its device is named and every event is valid
and of that device. -/
theorem validate_eq_none_iff (batch : Batch) : batch.validate = none ↔
      batch.deviceID ≠ "" ∧ ∀ event ∈ batch.events,
          event.validate = none ∧ event.deviceID = batch.deviceID := by
  rw [validate]
  by_cases empty : batch.deviceID = ""
  · simp [empty]
  · simp [empty, validateEvents_eq_none_iff]

theorem verifyIdentity_eq_none_iff (batch : Batch) (authenticated : String) :
    batch.verifyIdentity authenticated = none ↔
      batch.deviceID = authenticated ∧
        ∀ event ∈ batch.events, event.deviceID = authenticated := by
  rw [verifyIdentity]
  by_cases same : batch.deviceID = authenticated
  · simp [same, verifyEvents_eq_none_iff]
  · simp [same]

end Batch

end Ironclaw.Domain
