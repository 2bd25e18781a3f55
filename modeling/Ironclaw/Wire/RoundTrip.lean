import Ironclaw.Wire.Codec

/-!
# The codecs are lossless and interchangeable

Copying a value into a payload and back changes nothing, as long as its times
are representable: one lemma for an event, one for the list of events, one for
a window.  The codecs differ in the kind of an event only, and both give the
kind of a domain event back.  A kind that the domain does not have is refused
before any batch is returned.
-/

namespace Ironclaw.Wire

open Lib Domain

variable {Bytes Kind : Type}
variable {kindOf : Kind → Except Fault EventKind}

/-! ## Payloads and back -/

/-- The times of a batch survive 64-bit nanoseconds. -/
structure Carried (batch : Batch) : Prop where
  observed : ∀ event ∈ batch.events, event.observedAt.Representable
  created : batch.createdAt = Time.zero ∨
    0 < batch.createdAt.nanos ∧ batch.createdAt.Representable

theorem toEvent_ofEvent (kind : EventKind → Kind) {event : Event}
    (fits : event.observedAt.Representable) :
    (EventPayload.ofEvent kind event).toEvent event.kind = event := by
  simp only [EventPayload.ofEvent, EventPayload.toEvent,
    Time.unix_unixNano fits]

theorem toWindow_ofWindow
    {window : AggregateWindow} (start : window.windowStart.Representable)
    (finish : window.windowEnd.Representable) :
    (WindowPayload.ofWindow window).toWindow = window := by
  simp only [WindowPayload.ofWindow, WindowPayload.toWindow,
    Time.unix_unixNano start, Time.unix_unixNano finish]

theorem createdAtOf_unixNano {time : Time}
    (created : time = Time.zero ∨ 0 < time.nanos ∧ time.Representable) :
    createdAtOf time.unixNano = time := by
  rcases created with rfl | ⟨positive, fits⟩
  · -- The nanoseconds of the zero time wrap to a negative number.
    decide
  · have later : 0 < time.unixNano := by
      rw [Int64.lt_iff_toInt_lt, Time.toInt_unixNano fits]
      exact positive
    rw [createdAtOf, if_pos later, Time.unix_unixNano fits]

theorem decodeEvents_ofEvent {kind : EventKind → Kind}
    (kinds : ∀ code, kindOf (kind code) = .ok code) {events : List Event}
    (observed : ∀ event ∈ events, event.observedAt.Representable) :
    decodeEvents kindOf (events.map (EventPayload.ofEvent kind)) =
      .ok events := by
  induction events with
  | nil => rfl
  | cons event rest induction =>
    have first := observed event List.mem_cons_self
    have later := induction
      fun other member => observed other (List.mem_cons_of_mem _ member)
    have code : kindOf (EventPayload.ofEvent kind event).kind =
        .ok event.kind := kinds event.kind
    rw [List.map_cons, decodeEvents, code, later]
    simp only [toEvent_ofEvent kind first]

/-- A payload with a kind that is refused has no list of events. -/
theorem decodeEvents_refused
    {refused : Fault → Prop} {payloads : List (EventPayload Kind)}
    (faults : ∀ kind fault, kindOf kind = .error fault → refused fault)
    (out : ∃ payload ∈ payloads, ∃ fault,
      kindOf payload.kind = .error fault) :
    ∃ fault, decodeEvents kindOf payloads = .error fault ∧
      refused fault := by
  induction payloads with
  | nil =>
    rcases out with ⟨payload, impossible, _⟩
    cases impossible
  | cons payload rest induction =>
    rw [decodeEvents]
    cases narrowed : kindOf payload.kind with
    | error fault => exact ⟨fault, rfl, faults _ fault narrowed⟩
    | ok kind =>
      rcases out with ⟨other, member, fault, refusal⟩
      rcases List.mem_cons.mp member with rfl | later
      · rw [narrowed] at refusal
        cases refusal
      · rcases induction ⟨other, later, fault, refusal⟩ with
          ⟨found, error, holds⟩
        exact ⟨found, by simp only [error], holds⟩

/-! ## One codec -/

/-- Encoding and decoding give every value back. -/
structure Codec.RoundTrips (codec : Codec Bytes) : Prop where
  batch : ∀ batch, Carried batch → ∃ raw, codec.encodeBatch batch = .ok raw ∧
      codec.decodeBatch raw = (batch, none)
  window : ∀ window : AggregateWindow, window.windowStart.Representable →
    window.windowEnd.Representable → ∃ raw,
      codec.encodeWindow window = .ok raw ∧
        codec.decodeWindow raw = (window, none)
  whole : ∀ raw fault, (codec.decodeBatch raw).2 = some fault →
    (codec.decodeBatch raw).1 = emptyBatch

theorem roundTrips_codecOf (name : Format) {kind : EventKind → Kind}
    (kinds : ∀ code, kindOf (kind code) = .ok code)
    {batches : Marshaller (BatchPayload Kind) Bytes}
    {windows : Marshaller WindowPayload Bytes}
    (batchesLossless : batches.Lossless)
    (windowsLossless : windows.Lossless) :
    (codecOf name kind kindOf batches windows).RoundTrips where
  batch := by
    intro batch carried
    rcases batchesLossless (BatchPayload.ofBatch kind batch) with
      ⟨raw, marshalled, unmarshalled⟩
    have events : decodeEvents kindOf
        (BatchPayload.ofBatch kind batch).events = .ok batch.events :=
      decodeEvents_ofEvent kinds carried.observed
    have created : createdAtOf (BatchPayload.ofBatch kind batch).createdAt =
        batch.createdAt := createdAtOf_unixNano carried.created
    refine ⟨raw, ?_, ?_⟩
    · simp only [codecOf, marshalled]
    · simp only [codecOf, unmarshalled, events, created]
      rfl
  window := by
    intro window start finish
    rcases windowsLossless (WindowPayload.ofWindow window) with
      ⟨raw, marshalled, unmarshalled⟩
    refine ⟨raw, ?_, ?_⟩
    · simp only [codecOf, marshalled]
    · simp only [codecOf, unmarshalled, toWindow_ofWindow start finish]
  whole := by
    intro raw fault failed
    simp only [codecOf] at failed ⊢
    split
    · rfl
    · split
      · rfl
      · rename_i payload found _ events decoded
        simp only [found, decoded] at failed
        cases failed

/-! ## Both codecs -/

theorem narrowKind_toUInt32 (kind : EventKind) :
    narrowKind kind.code.toUInt32 = .ok kind := by
  have small : ¬ 255 < kind.code.toUInt32 := by
    rw [UInt32.lt_iff_toNat_lt, UInt8.toNat_toUInt32]
    exact Nat.not_lt.mpr (Nat.le_of_lt_succ kind.code.toNat_lt)
  rw [narrowKind, if_neg small, UInt8.toUInt8_toUInt32]

structure ProtobufLibrary.Lossless
    (library : ProtobufLibrary Bytes) : Prop where
  batches : library.batches.Lossless
  windows : library.windows.Lossless

/-- A marshalled payload is read as the document of that payload. -/
structure JSONLibrary.Lossless (library : JSONLibrary Bytes) : Prop where
  batches : ∀ payload, ∃ raw, library.marshalBatch payload = .ok raw ∧
    library.readBatch raw = .ok payload.widen
  windows : library.windows.Lossless

namespace JSONLibrary

variable {library : JSONLibrary Bytes}

theorem fitEvents_widen
    (library : JSONLibrary Bytes) (events : List (EventPayload UInt8)) :
    library.fitEvents (events.map fun event =>
      event.withKind (event.kind.toNat : Int)) = .ok events := by
  induction events with
  | nil => rfl
  | cons event rest induction =>
    have inside : ¬ ((event.kind.toNat : Int) < 0 ∨
        255 < (event.kind.toNat : Int)) := by
      have bound := event.kind.toNat_lt
      omega
    have back : UInt8.ofNat (event.kind.toNat : Int).toNat = event.kind := by
      rw [Int.toNat_natCast, UInt8.ofNat_toNat]
    rw [List.map_cons, fitEvents, induction]
    simp only [EventPayload.withKind, if_neg inside, back]

theorem Lossless.batches_lossless (lossless : library.Lossless) :
    library.batches.Lossless := by
  intro payload
  rcases lossless.batches payload with ⟨raw, marshalled, read⟩
  refine ⟨raw, marshalled, ?_⟩
  have events : library.fitEvents payload.widen.events =
      .ok payload.events := library.fitEvents_widen payload.events
  simp only [JSONLibrary.batches, read, events]
  rfl

/-- A document with a kind above 255 has no payload. -/
theorem fitEvents_refused {events : List (EventPayload Int)}
    (out : ∃ event ∈ events, 255 < event.kind) :
    ∃ fault, library.fitEvents events = .error fault := by
  induction events with
  | nil =>
    rcases out with ⟨event, impossible, _⟩
    cases impossible
  | cons event rest induction =>
    rw [fitEvents]
    split
    · exact ⟨_, rfl⟩
    · rename_i inside
      rcases out with ⟨other, member, above⟩
      rcases List.mem_cons.mp member with rfl | later
      · exact absurd (Or.inr above) inside
      · rcases induction ⟨other, later, above⟩ with ⟨fault, error⟩
        exact ⟨fault, by simp only [error]⟩

end JSONLibrary

theorem roundTrips_of_forFormat {jsonLibrary : JSONLibrary Bytes}
    {protobufLibrary : ProtobufLibrary Bytes}
    (jsonLossless : jsonLibrary.Lossless)
    (protobufLossless : protobufLibrary.Lossless)
    {format : Format} {codec : Codec Bytes}
    (chosen : forFormat jsonLibrary protobufLibrary format = .ok codec) :
    codec.RoundTrips := by
  rw [forFormat] at chosen
  split at chosen
  · cases chosen
    apply roundTrips_codecOf
    · intro code
      rfl
    · exact jsonLossless.batches_lossless
    · exact jsonLossless.windows
  · split at chosen
    · cases chosen
      exact roundTrips_codecOf _ narrowKind_toUInt32
        protobufLossless.batches protobufLossless.windows
    · cases chosen

theorem protobuf_refuses_kind (library : ProtobufLibrary Bytes) {raw : Bytes}
    {payload : BatchPayload UInt32}
    (read : library.batches.unmarshal raw = .ok payload)
    (out : ∃ event ∈ payload.events, 255 < event.kind) :
    ∃ kind : UInt32, (protobuf library).decodeBatch raw = (emptyBatch,
        some (.detailed errKindOutOfRange (toString kind))) := by
  have faults : ∀ kind fault, narrowKind kind = .error fault →
      ∃ kind : UInt32,
        fault = .detailed errKindOutOfRange (toString kind) := by
    intro kind fault refused
    rw [narrowKind] at refused
    split at refused
    · cases refused
      exact ⟨kind, rfl⟩
    · cases refused
  have refused : ∃ event ∈ payload.events, ∃ fault,
      narrowKind event.kind = .error fault := by
    rcases out with ⟨event, member, above⟩
    exact ⟨event, member, _, if_pos above⟩
  rcases decodeEvents_refused faults refused with ⟨fault, error, kind, rfl⟩
  refine ⟨kind, ?_⟩
  simp only [protobuf, codecOf, read, error]

theorem json_refuses_kind
    (library : JSONLibrary Bytes) {raw : Bytes} {document : BatchPayload Int}
    (read : library.readBatch raw = .ok document)
    (out : ∃ event ∈ document.events, 255 < event.kind) :
    ∃ fault, (json library).decodeBatch raw =
      (emptyBatch, some (.wrapped "wire: decoding batch" fault)) := by
  rcases @JSONLibrary.fitEvents_refused _ library _ out with ⟨fault, error⟩
  refine ⟨fault, ?_⟩
  simp only [json, codecOf, JSONLibrary.batches, read, error]

/--
Both codecs give back every batch and window whose times are representable,
and so decode to the same value; the identity of a window is kept.  A batch is
never returned with an error, and a kind above 255 is one.
-/
theorem codecs_lossless_and_interchangeable
    (jsonLibrary : JSONLibrary Bytes)
    (protobufLibrary : ProtobufLibrary Bytes)
    (jsonLossless : jsonLibrary.Lossless)
    (protobufLossless : protobufLibrary.Lossless) :
    (∀ format codec, forFormat jsonLibrary protobufLibrary format =
        .ok codec →
      (∀ batch, Carried batch → ∃ raw, codec.encodeBatch batch = .ok raw ∧
          codec.decodeBatch raw = (batch, none)) ∧
      (∀ window : AggregateWindow, window.windowStart.Representable →
        window.windowEnd.Representable → ∃ raw,
          codec.encodeWindow window = .ok raw ∧
            codec.decodeWindow raw = (window, none) ∧
              (codec.decodeWindow raw).1.identity = window.identity) ∧
      ∀ raw fault, (codec.decodeBatch raw).2 = some fault →
        (codec.decodeBatch raw).1 = emptyBatch) ∧
      (∀ batch, Carried batch → ∀ raw otherRaw,
          (json jsonLibrary).encodeBatch batch = .ok raw →
            (protobuf protobufLibrary).encodeBatch batch = .ok otherRaw →
              (json jsonLibrary).decodeBatch raw =
                (protobuf protobufLibrary).decodeBatch otherRaw) ∧
      (∀ window : AggregateWindow, window.windowStart.Representable →
        window.windowEnd.Representable → ∀ raw otherRaw,
            (json jsonLibrary).encodeWindow window = .ok raw →
              (protobuf protobufLibrary).encodeWindow window = .ok otherRaw →
                (json jsonLibrary).decodeWindow raw =
                  (protobuf protobufLibrary).decodeWindow otherRaw) ∧
      (∀ raw payload, protobufLibrary.batches.unmarshal raw = .ok payload →
          (∃ event ∈ payload.events, 255 < event.kind) → ∃ kind : UInt32,
              (protobuf protobufLibrary).decodeBatch raw = (emptyBatch, some
                  (.detailed errKindOutOfRange (toString kind)))) ∧
      ∀ raw document, jsonLibrary.readBatch raw = .ok document →
        (∃ event ∈ document.events, 255 < event.kind) →
          ∃ fault, (json jsonLibrary).decodeBatch raw =
            (emptyBatch, some (.wrapped "wire: decoding batch" fault)) := by
  have roundTrips : ∀ format codec,
      forFormat jsonLibrary protobufLibrary format = .ok codec →
        codec.RoundTrips :=
    fun _ _ chosen =>
      roundTrips_of_forFormat jsonLossless protobufLossless chosen
  have ofJSON := roundTrips formatJSON _ (if_pos (Or.inl rfl))
  have ofProtobuf : (protobuf protobufLibrary).RoundTrips :=
    roundTrips formatProtobuf _ rfl
  refine ⟨?_, ?_, ?_, ?_, ?_⟩
  · intro format codec chosen
    have trips := roundTrips format codec chosen
    refine ⟨trips.batch, ?_, trips.whole⟩
    intro window start finish
    rcases trips.window window start finish with ⟨raw, encoded, decoded⟩
    exact ⟨raw, encoded, decoded, by rw [decoded]⟩
  · intro batch carried raw otherRaw encoded otherEncoded
    rcases ofJSON.batch batch carried with ⟨first, wrote, reads⟩
    rcases ofProtobuf.batch batch carried with
      ⟨second, otherWrote, otherReads⟩
    cases wrote.symm.trans encoded
    cases otherWrote.symm.trans otherEncoded
    rw [reads, otherReads]
  · intro window start finish raw otherRaw encoded otherEncoded
    rcases ofJSON.window window start finish with ⟨first, wrote, reads⟩
    rcases ofProtobuf.window window start finish with
      ⟨second, otherWrote, otherReads⟩
    cases wrote.symm.trans encoded
    cases otherWrote.symm.trans otherEncoded
    rw [reads, otherReads]
  · intro raw payload read out
    exact protobuf_refuses_kind protobufLibrary read out
  · intro raw document read out
    exact json_refuses_kind jsonLibrary read out

/-! ## Examples -/

/-- Bytes that are the payloads themselves. -/
inductive Parcel where
  | protobuf (payload : BatchPayload UInt32)
  | document (document : BatchPayload Int)
  | window (payload : WindowPayload)
deriving DecidableEq

def notThatPayload : Fault := .sentinel "not that payload"

def parcelWindows : Marshaller WindowPayload Parcel where
  marshal payload := .ok (.window payload)
  unmarshal
    | .window payload => .ok payload
    | _ => .error notThatPayload

def parcelProtobuf : ProtobufLibrary Parcel where
  batches := {
    marshal := fun payload => .ok (.protobuf payload)
    unmarshal := fun
      | .protobuf payload => .ok payload
      | _ => .error notThatPayload }
  windows := parcelWindows

def parcelJSON : JSONLibrary Parcel where
  marshalBatch payload := .ok (.document payload.widen)
  readBatch
    | .document document => .ok document
    | _ => .error notThatPayload
  kindFault _ := notThatPayload
  windows := parcelWindows

theorem parcelProtobuf_lossless : parcelProtobuf.Lossless where
  batches payload := ⟨.protobuf payload, rfl, rfl⟩
  windows payload := ⟨.window payload, rfl, rfl⟩

theorem parcelJSON_lossless : parcelJSON.Lossless where
  batches payload := ⟨.document payload.widen, rfl, rfl⟩
  windows payload := ⟨.window payload, rfl, rfl⟩

def carriedBatch : Batch where
  deviceID := "device-000"
  createdAt := ⟨1700000000000000000⟩
  events := [{
    deviceID := "device-000"
    userID := "user-000"
    processID := 100
    podID := "pod-000"
    kind := EventKind.syscall
    observedAt := ⟨-1⟩
    latencyNanos := 1000000
    bytes := 64
    failed := true }]

theorem carriedBatch_carried : Carried carriedBatch where
  observed := by
    intro event member
    rw [List.mem_singleton.mp member]
    exact ⟨by decide, by decide⟩
  created := Or.inr ⟨by decide, by decide, by decide⟩

theorem codecs_lossless_and_interchangeable_example :
    ∃ raw, (protobuf parcelProtobuf).encodeBatch carriedBatch = .ok raw ∧
      (protobuf parcelProtobuf).decodeBatch raw = (carriedBatch, none) := by
  have lossless := codecs_lossless_and_interchangeable parcelJSON
    parcelProtobuf parcelJSON_lossless parcelProtobuf_lossless
  exact (lossless.1 formatProtobuf (protobuf parcelProtobuf) rfl).1
    carriedBatch carriedBatch_carried

/-- A batch created after the last representable instant. -/
def lateBatch : Batch := ⟨"device-000", ⟨9223372036854775808⟩, []⟩

/-- The creation time is after the epoch, and both codecs lose it. -/
theorem late_creation_is_lost : 0 < lateBatch.createdAt.nanos ∧
      (∃ raw, (protobuf parcelProtobuf).encodeBatch lateBatch = .ok raw ∧
        (protobuf parcelProtobuf).decodeBatch raw =
          (⟨"device-000", Time.zero, []⟩, none)) ∧
      (∃ raw, (json parcelJSON).encodeBatch lateBatch = .ok raw ∧
        (json parcelJSON).decodeBatch raw =
          (⟨"device-000", Time.zero, []⟩, none)) ∧
      lateBatch.createdAt ≠ Time.zero := by
  refine ⟨by decide, ⟨_, rfl, by decide⟩, ⟨_, rfl, by decide⟩, by decide⟩

end Ironclaw.Wire
