import Ironclaw.Domain.Identity

/-!
# The wire codecs

Batches and windows travel as JSON or as Protobuf.  A codec copies the domain
value into a payload, field by field, and hands the payload to a library; the
decoder copies it back.  Times travel as 64-bit nanoseconds, and the kind of an
event as 8 or as 32 bits.

The libraries are parameters.  They are assumed to give back the payloads they
were given.
-/

namespace Ironclaw.Wire

open Lib Domain

variable {Bytes Kind : Type}

def errUnknownFormat : Fault :=
  .sentinel "wire: unknown codec format"
def errKindOutOfRange : Fault :=
  .sentinel "wire: event kind is outside the domain range"

/-- The name of a format; a caller may ask for any text. -/
abbrev Format := String

def formatJSON : Format := "json"
def formatProtobuf : Format := "protobuf"

/-! ## Payloads -/

/-- An event on the wire.  The codecs differ in the width of the kind. -/
structure EventPayload (Kind : Type) where
  deviceID : String
  userID : String
  processID : Int32
  podID : String
  kind : Kind
  observedAt : Int64
  latencyNanos : Int64
  bytes : Int64
  failed : Bool
deriving DecidableEq

structure BatchPayload (Kind : Type) where
  deviceID : String
  createdAt : Int64
  events : List (EventPayload Kind)
deriving DecidableEq

structure WindowPayload where
  userID : String
  deviceID : String
  processID : Int32
  podID : String
  windowID : Int64
  sequence : Int64
  windowStart : Int64
  windowEnd : Int64
  count : Int64
  errorCount : Int64
  bytes : Int64
  p95Nanos : Int64
  p99Nanos : Int64
  maxNanos : Int64
deriving DecidableEq

def EventPayload.ofEvent (kind : EventKind → Kind) (event : Event) :
    EventPayload Kind where
  deviceID := event.deviceID
  userID := event.userID
  processID := event.processID
  podID := event.podID
  kind := kind event.kind
  observedAt := event.observedAt.unixNano
  latencyNanos := event.latencyNanos
  bytes := event.bytes
  failed := event.failed

def EventPayload.toEvent (kind : EventKind) (payload : EventPayload Kind) :
    Event where
  deviceID := payload.deviceID
  userID := payload.userID
  processID := payload.processID
  podID := payload.podID
  kind := kind
  observedAt := Time.unix payload.observedAt
  latencyNanos := payload.latencyNanos
  bytes := payload.bytes
  failed := payload.failed

def BatchPayload.ofBatch (kind : EventKind → Kind) (batch : Batch) :
    BatchPayload Kind where
  deviceID := batch.deviceID
  createdAt := batch.createdAt.unixNano
  events := batch.events.map (EventPayload.ofEvent kind)

def WindowPayload.ofWindow (window : AggregateWindow) : WindowPayload where
  userID := window.key.userID
  deviceID := window.key.deviceID
  processID := window.key.processID
  podID := window.key.podID
  windowID := window.windowID
  sequence := window.sequence
  windowStart := window.windowStart.unixNano
  windowEnd := window.windowEnd.unixNano
  count := window.count
  errorCount := window.errorCount
  bytes := window.bytes
  p95Nanos := window.p95Nanos
  p99Nanos := window.p99Nanos
  maxNanos := window.maxNanos

def WindowPayload.toWindow (payload : WindowPayload) : AggregateWindow where
  key := {
    userID := payload.userID
    deviceID := payload.deviceID
    processID := payload.processID
    podID := payload.podID }
  windowID := payload.windowID
  sequence := payload.sequence
  windowStart := Time.unix payload.windowStart
  windowEnd := Time.unix payload.windowEnd
  count := payload.count
  errorCount := payload.errorCount
  bytes := payload.bytes
  p95Nanos := payload.p95Nanos
  p99Nanos := payload.p99Nanos
  maxNanos := payload.maxNanos

/-- The batch and the window that accompany an error. -/
def emptyBatch : Batch := ⟨"", Time.zero, []⟩

def emptyWindow : AggregateWindow where
  key := ⟨"", "", 0, ""⟩
  windowID := 0
  sequence := 0
  windowStart := Time.zero
  windowEnd := Time.zero
  count := 0
  errorCount := 0
  bytes := 0
  p95Nanos := 0
  p99Nanos := 0
  maxNanos := 0

/-- The creation time; a number that is not positive stands for none. -/
def createdAtOf (nanoseconds : Int64) : Time :=
  if 0 < nanoseconds then Time.unix nanoseconds else Time.zero

/-- The events of a payload, up to the first kind that is refused. -/
def decodeEvents (kindOf : Kind → Except Fault EventKind) :
    List (EventPayload Kind) → Except Fault (List Event)
  | [] => .ok []
  | payload :: rest =>
    match kindOf payload.kind with
    | .error fault => .error fault
    | .ok kind =>
      match decodeEvents kindOf rest with
      | .error fault => .error fault
      | .ok events => .ok (payload.toEvent kind :: events)

/-! ## Libraries and codecs -/

/-- A library that marshals payloads of one type. -/
structure Marshaller (Payload Bytes : Type) where
  marshal : Payload → Except Fault Bytes
  unmarshal : Bytes → Except Fault Payload

/-- What was marshalled is unmarshalled again. -/
def Marshaller.Lossless {Payload : Type}
    (library : Marshaller Payload Bytes) : Prop :=
  ∀ payload, ∃ raw,
    library.marshal payload = .ok raw ∧ library.unmarshal raw = .ok payload

/-- An encoder and its decoder. -/
structure Codec (Bytes : Type) where
  name : Format
  encodeBatch : Batch → Except Fault Bytes
  decodeBatch : Bytes → Batch × Option Fault
  encodeWindow : AggregateWindow → Except Fault Bytes
  decodeWindow : Bytes → AggregateWindow × Option Fault

/-- The steps that both codecs share. -/
def codecOf
    (name : Format) (kind : EventKind → Kind)
    (kindOf : Kind → Except Fault EventKind)
    (batches : Marshaller (BatchPayload Kind) Bytes)
    (windows : Marshaller WindowPayload Bytes) : Codec Bytes where
  name := name
  encodeBatch batch :=
    match batches.marshal (BatchPayload.ofBatch kind batch) with
    | .error fault => .error (.wrapped "wire: encoding batch" fault)
    | .ok raw => .ok raw
  decodeBatch raw :=
    match batches.unmarshal raw with
    | .error fault =>
      (emptyBatch, some (.wrapped "wire: decoding batch" fault))
    | .ok payload =>
      match decodeEvents kindOf payload.events with
      | .error fault => (emptyBatch, some fault)
      | .ok events =>
        (⟨payload.deviceID, createdAtOf payload.createdAt, events⟩, none)
  encodeWindow window :=
    match windows.marshal (WindowPayload.ofWindow window) with
    | .error fault => .error (.wrapped "wire: encoding window" fault)
    | .ok raw => .ok raw
  decodeWindow raw :=
    match windows.unmarshal raw with
    | .error fault =>
      (emptyWindow, some (.wrapped "wire: decoding window" fault))
    | .ok payload => (payload.toWindow, none)

/-- The Protobuf library. -/
structure ProtobufLibrary (Bytes : Type) where
  batches : Marshaller (BatchPayload UInt32) Bytes
  windows : Marshaller WindowPayload Bytes

/-- The conversion of a kind of 32 bits; more than 8 bits are refused. -/
def narrowKind (kind : UInt32) : Except Fault EventKind :=
  if 255 < kind then
    .error (.detailed errKindOutOfRange (toString kind))
  else .ok ⟨kind.toUInt8⟩

def protobuf (library : ProtobufLibrary Bytes) : Codec Bytes :=
  codecOf formatProtobuf (fun kind => kind.code.toUInt32) narrowKind
    library.batches library.windows

/--
The JSON library.  A document has kinds of any size: the library reads it and
then refuses a kind that the field of 8 bits cannot hold.
-/
structure JSONLibrary (Bytes : Type) where
  marshalBatch : BatchPayload UInt8 → Except Fault Bytes
  readBatch : Bytes → Except Fault (BatchPayload Int)
  kindFault : Int → Fault
  windows : Marshaller WindowPayload Bytes

def EventPayload.withKind
    {Other : Type} (kind : Other) (payload : EventPayload Kind) :
    EventPayload Other :=
  { deviceID := payload.deviceID
    userID := payload.userID
    processID := payload.processID
    podID := payload.podID
    kind := kind
    observedAt := payload.observedAt
    latencyNanos := payload.latencyNanos
    bytes := payload.bytes
    failed := payload.failed }

/-- A payload as a document. -/
def BatchPayload.widen (payload : BatchPayload UInt8) : BatchPayload Int where
  deviceID := payload.deviceID
  createdAt := payload.createdAt
  events := payload.events.map fun event =>
    event.withKind (event.kind.toNat : Int)

namespace JSONLibrary

/-- The events of a document, unless a kind does not fit. -/
def fitEvents (library : JSONLibrary Bytes) :
    List (EventPayload Int) → Except Fault (List (EventPayload UInt8))
  | [] => .ok []
  | event :: rest =>
    if event.kind < 0 ∨ 255 < event.kind then
      .error (library.kindFault event.kind)
    else
      match library.fitEvents rest with
      | .error fault => .error fault
      | .ok events =>
        .ok (event.withKind (UInt8.ofNat event.kind.toNat) :: events)

def batches (library : JSONLibrary Bytes) :
    Marshaller (BatchPayload UInt8) Bytes where
  marshal := library.marshalBatch
  unmarshal raw :=
    match library.readBatch raw with
    | .error fault => .error fault
    | .ok document =>
      match library.fitEvents document.events with
      | .error fault => .error fault
      | .ok events =>
        .ok ⟨document.deviceID, document.createdAt, events⟩

end JSONLibrary

def json (library : JSONLibrary Bytes) : Codec Bytes :=
  codecOf formatJSON EventKind.code (fun kind => .ok ⟨kind⟩)
    library.batches library.windows

/-- The codec of a format; the empty name is JSON. -/
def forFormat
    (jsonLibrary : JSONLibrary Bytes)
    (protobufLibrary : ProtobufLibrary Bytes) (format : Format) :
    Except Fault (Codec Bytes) :=
  if format = formatJSON ∨ format = "" then .ok (json jsonLibrary)
  else if format = formatProtobuf then .ok (protobuf protobufLibrary)
  else .error (.detailed errUnknownFormat format)

end Ironclaw.Wire
