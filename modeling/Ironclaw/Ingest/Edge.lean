import Ironclaw.Ingest.Server
import Ironclaw.Pipeline.Accounts

/-!
# The edge format between an agent and the ingest

An agent copies a batch into the edge format, without its creation time and
without the pods its events claim; the ingest copies the payload back for the
authenticated device, under its own pod.  On the way back a kind that is not
recognised becomes a system call, and a time that is not positive becomes the
present.  Neither happens to an event that a batcher has accepted, so what
the ingest publishes is what the agent flushed.

The JSON library is a parameter, with the payloads that it gives back.
-/

namespace Ironclaw.Ingest

open Lib Domain Pipeline List

variable {batch : Batch}

/-! ## Encoding -/

def EdgeEvent.ofEvent (event : Event) : EdgeEvent where
  userID := event.userID
  processID := event.processID
  kind := event.kind.code
  observedAtUnixNanos := event.observedAt.unixNano
  latencyNanos := event.latencyNanos
  bytes := event.bytes
  failed := event.failed

def EdgeBatch.ofBatch (batch : Batch) : EdgeBatch where
  deviceID := batch.deviceID
  events := batch.events.map EdgeEvent.ofEvent

def encodeEdgeBatch
    (marshal : EdgeBatch → Except Fault (List UInt8)) (batch : Batch) :
    Except Fault (List UInt8) :=
  match marshal (EdgeBatch.ofBatch batch) with
  | .error fault => .error (.wrapped "wire: encoding edge batch" fault)
  | .ok encoded => .ok encoded

/-- The library gives a payload back. -/
def RoundTrips
    (marshal : EdgeBatch → Except Fault (List UInt8))
    (unmarshal : List UInt8 → Except Fault EdgeBatch)
    (payload : EdgeBatch) : Prop :=
  ∃ encoded, marshal payload = .ok encoded ∧ unmarshal encoded = .ok payload

/-- A positive number of nanoseconds since the Unix epoch, in 64 bits. -/
def Datable (time : Time) : Prop :=
  0 < time.nanos ∧ time.Representable

/-! ## Conversion -/

/-- The event as the ingest publishes it. -/
def stamp (podID : String) (event : Event) : Event :=
  { event with podID := podID }

theorem valid_kind_of_validate
    {event : Event} (valid : event.validate = none) :
    event.kind.valid = true := by
  by_contra unknown
  rw [Bool.not_eq_true] at unknown
  simp only [Event.validate, unknown, Bool.not_false, if_true] at valid
  split_ifs at valid

theorem unixNano_pos {time : Time} (datable : Datable time) :
    0 < time.unixNano := by
  rw [Int64.lt_iff_toInt_lt, Time.toInt_unixNano datable.2]
  exact datable.1

theorem toEvent_ofEvent (now : Nat → Time) (server : Server) (position : Nat)
    {deviceID : String} {event : Event} (valid : event.validate = none)
    (own : event.deviceID = deviceID) (datable : Datable event.observedAt) :
    server.toEvent now deviceID (EdgeEvent.ofEvent event) position =
      stamp server.podID event := by
  subst own
  have kind : EventKind.valid ⟨event.kind.code⟩ = true :=
    valid_kind_of_validate valid
  rw [Server.toEvent, EdgeEvent.ofEvent, if_pos kind,
    if_pos (unixNano_pos datable), Time.unix_unixNano datable.2]
  rfl

/-- The events of a batch come back in their order. -/
theorem mapIdx_toEvent
    (now : Nat → Time) (server : Server) {deviceID : String}
    {events : List Event}
    (valid : ∀ event ∈ events,
      event.validate = none ∧ event.deviceID = deviceID)
    (datable : ∀ event ∈ events, Datable event.observedAt) :
    ((events.map EdgeEvent.ofEvent).mapIdx fun position event =>
      server.toEvent now deviceID event position) =
        events.map (stamp server.podID) := by
  apply ext_getElem
  · rw [length_mapIdx, length_map, length_map]
  · intro position before after
    rw [getElem_mapIdx, getElem_map, getElem_map]
    rw [length_map] at after
    have member : events[position] ∈ events := getElem_mem after
    rcases valid _ member with ⟨accepted, own⟩
    exact toEvent_ofEvent now server position accepted own (datable _ member)

/-- What the ingest makes of a batch. -/
def received
    (now : Nat → Time) (server : Server) (batch : Batch) : Batch where
  deviceID := batch.deviceID
  createdAt := now 0
  events := batch.events.map (stamp server.podID)

theorem validate_received
    {now : Nat → Time} {server : Server} (valid : batch.validate = none) :
    (received now server batch).validate = none := by
  rw [Batch.validate_eq_none_iff] at valid ⊢
  constructor
  · exact valid.1
  · intro event member
    rcases mem_map.mp member with ⟨original, present, rfl⟩
    exact valid.2 original present

theorem toBatch_ofBatch
    (now : Nat → Time) (server : Server) (valid : batch.validate = none)
    (datable : ∀ event ∈ batch.events, Datable event.observedAt) :
    server.toBatch now batch.deviceID (EdgeBatch.ofBatch batch) =
      .ok (received now server batch) := by
  have events := mapIdx_toEvent now server
    ((Batch.validate_eq_none_iff batch).mp valid).2 datable
  simp only [Server.toBatch, EdgeBatch.ofBatch, events]
  have passes : (received now server batch).validate = none :=
    validate_received valid
  rw [received] at passes
  rw [passes]
  rfl

theorem validate_of_formed
    {settings : Settings} (formed : Formed settings batch) :
    batch.validate = none := by
  rw [Batch.validate_eq_none_iff, formed.device]
  exact ⟨settings.bounds.1, formed.valid⟩

/-! ## From the agent to the publisher -/

/--
The edge format preserves what a batcher flushes.  If the library gives the
payload back, then encoding, decoding and conversion succeed for the device of
the batcher, and the result has the events of the batch, in order and field
for field, with the pod of the ingest.  The result passes the checks of
`Accept`, which answers what the publisher answers, and a request that
carries the payload is accepted unless the publisher fails.
-/
theorem edge_format_preserves_events
    {marshal : EdgeBatch → Except Fault (List UInt8)}
    {unmarshal : List UInt8 → Except Fault EdgeBatch}
    {settings : Settings} {batcher : Batcher settings}
    (reachable : (Batcher.machine settings).Reachable batcher)
    {batch : Batch} (flushed : batch ∈ batcher.flushed)
    (lossless : RoundTrips marshal unmarshal (EdgeBatch.ofBatch batch))
    (datable : ∀ event ∈ batch.events, Datable event.observedAt)
    (server : Server) (now : Nat → Time) :
    ∃ encoded payload result, encodeEdgeBatch marshal batch = .ok encoded ∧
      unmarshal encoded = .ok payload ∧
      server.toBatch now settings.deviceID payload = .ok result ∧
      result.deviceID = batch.deviceID ∧
      result.events = batch.events.map (fun event =>
          { event with podID := server.podID }) ∧
      result.verifyIdentity settings.deviceID = none ∧
      result.validate = none ∧
      (∀ (service : Service) (publish : String → Batch → Option Fault),
        (service.accept publish settings.deviceID result).2 =
          publish settings.deviceID result) ∧
      (∀ (request : Request) (publish : String → Batch → Option Fault),
        server.peerIsAuthorisedEdge request = true →
        request.header server.identityHeader = settings.deviceID →
        request.body = encoded →
        encoded.length ≤ server.maxBodyBytes.toInt.toNat →
        publish settings.deviceID result = none →
        (server.ingest unmarshal publish now request).2.status =
          statusAccepted) := by
  have formed : Formed settings batch :=
    (Batcher.sound_of_reachable reachable).books.formed batch flushed
  have valid := validate_of_formed formed
  rcases lossless with ⟨encoded, marshalled, unmarshalled⟩
  have converted := toBatch_ofBatch now server valid datable
  rw [formed.device] at converted
  rcases Server.toBatch_checked converted with ⟨own, checked⟩
  have accepted :
      ∀ (service : Service) (publish : String → Batch → Option Fault),
        (service.accept publish settings.deviceID
            (received now server batch)).2 =
          publish settings.deviceID (received now server batch) := by
    intro service publish
    have answer := @Service.accept_of_checked publish _ _ service own checked
    rw [answer, received, formed.device]
  refine ⟨encoded, _, _, ?_, unmarshalled, converted, rfl, rfl, own,
    checked, accepted, ?_⟩
  · rw [encodeEdgeBatch, marshalled]
  · intro request publish authorised identified body fits published
    have passes : server.Passes unmarshal now request
        (received now server batch) := {
      authorised := authorised
      identified := by
        rw [identified]
        exact settings.bounds.1
      decoded := by
        rw [body, take_of_length_le fits, identified]
        exact ⟨_, unmarshalled, Or.inr formed.device, converted⟩ }
    have device : (received now server batch).deviceID =
        settings.deviceID := formed.device
    rw [passes.status publish, device, published]

/-- The second batch of the sample run of the batcher. -/
def sampleBatch : Batch :=
  ⟨"device-1", ⟨20⟩, [Pipeline.sampleEvent 2]⟩

/-- Its payload, as `encoding/json` writes it. -/
def sampleText : List UInt8 :=
  ("\x7b\"device_id\":\"device-1\",\"events\":[\x7b\"user_id\":\"user-1\"," ++
    "\"process_id\":7,\"kind\":1,\"observed_at_unix_nanos\":2," ++
    "\"latency_nanos\":1000,\"bytes\":64,\"failed\":false\x7d]\x7d"
    ).toUTF8.toList

/-- A library that knows one payload. -/
def sampleMarshal (payload : EdgeBatch) : Except Fault (List UInt8) :=
  if payload = EdgeBatch.ofBatch sampleBatch then .ok sampleText
  else .error (.sentinel "unsupported value")

def sampleUnmarshal (encoded : List UInt8) : Except Fault EdgeBatch :=
  if encoded = sampleText then .ok (EdgeBatch.ofBatch sampleBatch)
  else .error (.sentinel "unexpected end of input")

def edgeServer : Server where
  acceptor := ⟨none⟩
  identityHeader := defaultIdentityHeader
  maxBodyBytes := defaultMaxBodyBytes
  allowedClients := []
  podID := "ingest-1"
  metrics := none

theorem edge_format_preserves_events_sample : ∃ encoded payload result,
      encodeEdgeBatch sampleMarshal sampleBatch = .ok encoded ∧
      sampleUnmarshal encoded = .ok payload ∧
      edgeServer.toBatch (fun _ => ⟨30⟩) "device-1" payload = .ok result ∧
      result.events = [{ Pipeline.sampleEvent 2 with podID := "ingest-1" }] ∧
      result.validate = none := by
  have flushed : sampleBatch ∈ sampleBatcher.flushed := by decide
  have lossless : RoundTrips sampleMarshal sampleUnmarshal
      (EdgeBatch.ofBatch sampleBatch) :=
    ⟨sampleText, if_pos rfl, if_pos rfl⟩
  have datable : ∀ event ∈ sampleBatch.events,
      Datable event.observedAt := by
    intro event member
    rw [mem_singleton.mp member]
    exact ⟨by decide, by decide, by decide⟩
  rcases edge_format_preserves_events sampleBatcher_reachable flushed
    lossless datable edgeServer (fun _ => ⟨30⟩) with
    ⟨encoded, payload, result, encodes, decodes, converts, _, events, _,
      valid, _⟩
  exact ⟨encoded, payload, result, encodes, decodes, converts, events, valid⟩

end Ironclaw.Ingest
