import Ironclaw.Domain.Event
import Ironclaw.Lib.Text
import Mathlib.Data.Finset.Sort
import Mathlib.Data.String.Basic

/-!
# Correlation keys, windows and their identities

A window is one emission of the counters of a correlation key in one tumbling
window.  Stores recognise a redelivered emission by its identity, a text that
ends in the sequence number of the emission.
-/

namespace Ironclaw.Domain

open Lib Text

def errDeviceNotFound : Fault := .sentinel "no such device"

/-- What the events of a window have in common. -/
structure CorrelationKey where
  userID : String
  deviceID : String
  processID : Int32
  podID : String
deriving DecidableEq, Repr

def Event.correlationKey (event : Event) : CorrelationKey where
  userID := event.userID
  deviceID := event.deviceID
  processID := event.processID
  podID := event.podID

/-- Decimal text of an integer, as the source appends it to a buffer. -/
def appendInt (number : Int) : String := String.ofList (Text.numeral number)

namespace CorrelationKey

/-- The formatted key, shared by every identity built on it. -/
def format (key : CorrelationKey) : String :=
  "\x7b" ++ key.userID ++ "\x7d:" ++ key.deviceID ++ ":" ++
    appendInt key.processID.toInt ++ ":" ++ key.podID

def shardTag (key : CorrelationKey) : String := key.userID

end CorrelationKey

/-- An emission: the counts of a key in a window. -/
structure AggregateWindow where
  key : CorrelationKey
  windowID : Int64
  sequence : Int64
  windowStart : Time
  windowEnd : Time
  count : Int64
  errorCount : Int64
  bytes : Int64
  p95Nanos : Int64
  p99Nanos : Int64
  maxNanos : Int64
deriving DecidableEq, Repr

namespace AggregateWindow

/-- The identity of one emission. -/
def identity (window : AggregateWindow) : String :=
  window.key.format ++ "#" ++ appendInt window.windowID.toInt ++ "#" ++
    appendInt window.sequence.toInt

end AggregateWindow

/-- The state of a device as a store reports it. -/
structure DeviceState where
  userID : String
  deviceID : String
  count : Int64
  errorCount : Int64
  bytes : Int64
  p95Nanos : Int64
  p99Nanos : Int64
  lastWindowID : Int64
  lastSeen : Time
  stale : Bool
deriving DecidableEq, Repr

/-- The devices of a user as a store lists them. -/
structure DeviceListing where
  devices : List String
  stale : Bool
deriving DecidableEq, Repr

/-- The listing of a set of devices, in ascending order. -/
def DeviceListing.ascending (devices : Finset String) : DeviceListing :=
  ⟨devices.sort (· ≤ ·), false⟩

/-! ## What a text determines -/

theorem toList_appendInt (number : Int) :
    (appendInt number).toList = numeral number := by
  simp [appendInt]

theorem hash_notMem_numeral (number : Int) : '#' ∉ numeral number :=
  notMem_numeral (by decide) (by decide)

/-- A text before a last `#` and a number determines both. -/
theorem hash_number_injective {left right : String} {number other : Int}
    (equal : left ++ "#" ++ appendInt number =
      right ++ "#" ++ appendInt other) : left = right ∧ number = other := by
  have hash : "#".toList = ['#'] := by decide
  have texts := congrArg String.toList equal
  simp only [String.toList_append, toList_appendInt, hash,
    List.append_assoc, List.singleton_append] at texts
  have parts := split_at_last
    (hash_notMem_numeral number) (hash_notMem_numeral other) texts
  constructor
  · exact String.toList_inj.mp parts.1
  · exact numeral_injective parts.2

/--
Emissions with equal identities carry the same sequence number, whatever the
other parts of the key contain: the sequence follows the last `#`.
-/
theorem AggregateWindow.sequence_eq_of_identity
    {left right : AggregateWindow} (equal : left.identity = right.identity) :
    left.sequence = right.sequence := by
  apply Int64.toInt_inj.mp
  exact (hash_number_injective equal).2

end Ironclaw.Domain
