import Ironclaw.Ingest.Service

/-!
# The ingest endpoint

The handler of `POST /v1/batches`.  A request passes the check of its client
certificate, the identity header, the decoding of its body, the check of the
claimed device and the validation of its events before the service sees it;
the first of these to fail decides the status.

Decoding is a parameter: the decoder gets the bytes that the limited reader
lets through.  The clock is read once for the batch and once for each event.
-/

namespace Ironclaw.Ingest

open Lib Domain

def errNilAcceptor : Fault :=
  .sentinel "httpingest: batch acceptor is nil"

def defaultIdentityHeader : String := "X-Device-Id"
def defaultMaxBodyBytes : Int64 := 8388608

def metricRequestsAccepted : String := "http_ingest_accepted"
def metricRequestsRejected : String := "http_ingest_rejected"
def metricRequestsUnauthentic : String := "http_ingest_unauthenticated"

def statusAccepted : Int := 202
def statusBadRequest : Int := 400
def statusUnauthorized : Int := 401
def statusForbidden : Int := 403

/-! ## The edge format -/

/-- An event in the edge format. -/
structure EdgeEvent where
  userID : String
  processID : Int32
  kind : UInt8
  observedAtUnixNanos : Int64
  latencyNanos : Int64
  bytes : Int64
  failed : Bool
deriving DecidableEq, Repr

/-- A batch in the edge format. -/
structure EdgeBatch where
  deviceID : String
  events : List EdgeEvent
deriving DecidableEq, Repr

/-! ## Requests and responses -/

/-- What the handler reads of a request. -/
structure Request where
  /-- The common name of the first peer certificate, if there is one. -/
  peer : Option String
  header : String → String
  body : List UInt8

structure Response where
  status : Int
  body : String
deriving DecidableEq, Repr

/-- `http.Error`: the text with a line end. -/
def Response.error (text : String) (status : Int) : Response :=
  ⟨status, text ++ "\n"⟩

/-! ## The server -/

structure Config where
  acceptor : Option Service
  identityHeader : String
  maxBodyBytes : Int64
  allowedClientCNs : List String
  podID : String
  metrics : Recorder

/-- The handler, with its settings and counters. -/
structure Server where
  acceptor : Service
  identityHeader : String
  maxBodyBytes : Int64
  allowedClients : List String
  podID : String
  metrics : Recorder

namespace Server

variable {now : Nat → Time} {server : Server} {batch : Batch}

def new (localPodID : String) (config : Config) : Except Fault Server :=
  match config.acceptor with
  | none => .error errNilAcceptor
  | some acceptor => .ok
      { acceptor := acceptor
        identityHeader :=
          if config.identityHeader = "" then defaultIdentityHeader
          else config.identityHeader
        maxBodyBytes :=
          if config.maxBodyBytes ≤ 0 then defaultMaxBodyBytes
          else config.maxBodyBytes
        allowedClients :=
          config.allowedClientCNs.filter fun name => name ≠ ""
        podID := if config.podID = "" then localPodID else config.podID
        metrics := config.metrics }

def record (name : String) (delta : Int64) (server : Server) : Server :=
  { server with metrics := server.metrics.record name delta }

/-- No list of names lets every peer in. -/
def peerIsAuthorisedEdge (request : Request) (server : Server) : Bool :=
  if server.allowedClients = [] then true
  else
    match request.peer with
    | none => false
    | some name => name ∈ server.allowedClients

/-- The event at a position of the payload. -/
def toEvent
    (now : Nat → Time) (deviceID : String) (server : Server)
    (event : EdgeEvent) (position : Nat) : Event where
  deviceID := deviceID
  userID := event.userID
  processID := event.processID
  podID := server.podID
  kind := if EventKind.valid ⟨event.kind⟩ then ⟨event.kind⟩
    else EventKind.syscall
  -- The first reading of the clock is the creation time of the batch.
  observedAt :=
    if 0 < event.observedAtUnixNanos then
      Time.unix event.observedAtUnixNanos
    else now (position + 1)
  latencyNanos := event.latencyNanos
  bytes := event.bytes
  failed := event.failed

/-- The payload as a batch of its device. -/
def toBatch
    (now : Nat → Time) (deviceID : String) (payload : EdgeBatch)
    (server : Server) : Except Fault Batch :=
  let batch : Batch :=
    { deviceID := deviceID
      createdAt := now 0
      events := payload.events.mapIdx fun position event =>
        server.toEvent now deviceID event position }
  match batch.validate with
  | some fault => .error fault
  | none => .ok batch

/-- Turn a request down. -/
def refuse
    (metric text : String) (status : Int) (server : Server) :
    Server × Response :=
  (server.record metric 1, Response.error text status)

/-- The handler: authorise, identify, decode, convert, accept. -/
def ingest
    (decode : List UInt8 → Except Fault EdgeBatch)
    (publish : String → Batch → Option Fault) (now : Nat → Time)
    (request : Request) (server : Server) : Server × Response :=
  if !server.peerIsAuthorisedEdge request then
    server.refuse metricRequestsUnauthentic
      "client certificate is not an authorised edge" statusForbidden
  else
    let deviceID := request.header server.identityHeader
    if deviceID = "" then
      server.refuse metricRequestsUnauthentic
        "missing authenticated device identity" statusUnauthorized
    else
      match decode
          (request.body.take server.maxBodyBytes.toInt.toNat) with
      | .error _ =>
        server.refuse metricRequestsRejected
          "malformed batch payload" statusBadRequest
      | .ok payload =>
        if payload.deviceID ≠ "" ∧ payload.deviceID ≠ deviceID then
          server.refuse metricRequestsRejected
            "batch device id does not match the authenticated identity"
            statusForbidden
        else
          match server.toBatch now deviceID payload with
          | .error fault =>
            server.refuse metricRequestsRejected fault.message
              statusBadRequest
          | .ok batch =>
            let accepted :=
              server.acceptor.accept publish deviceID batch
            let server := { server with acceptor := accepted.1 }
            match accepted.2 with
            | some fault =>
              if fault.is errDeviceMismatch then
                server.refuse metricRequestsRejected
                  "batch rejected" statusForbidden
              else
                server.refuse metricRequestsRejected
                  "batch rejected" statusBadRequest
            | none =>
              (server.record metricRequestsAccepted 1, ⟨statusAccepted, ""⟩)

/-! ## Requests that reach the publisher -/

/-- The request passes every check, as this batch. -/
structure Passes
    (decode : List UInt8 → Except Fault EdgeBatch) (now : Nat → Time)
    (request : Request) (batch : Batch) (server : Server) : Prop where
  authorised : server.peerIsAuthorisedEdge request = true
  identified : request.header server.identityHeader ≠ ""
  decoded : ∃ payload,
    decode (request.body.take server.maxBodyBytes.toInt.toNat) = .ok payload ∧
      (payload.deviceID = "" ∨
        payload.deviceID = request.header server.identityHeader) ∧
      server.toBatch now (request.header server.identityHeader) payload =
        .ok batch

/-- A converted batch and its events are of the authenticated device. -/
theorem toBatch_checked {deviceID : String} {payload : EdgeBatch}
    (converted : server.toBatch now deviceID payload = .ok batch) :
    batch.verifyIdentity deviceID = none ∧ batch.validate = none := by
  simp only [toBatch] at converted
  split at converted
  · cases converted
  · rename_i valid
    cases converted
    refine ⟨?_, valid⟩
    rw [Batch.verifyIdentity_eq_none_iff]
    refine ⟨rfl, ?_⟩
    intro event member
    exact (((Batch.validate_eq_none_iff _).mp valid).2 event member).2

/-- A request that passes is answered by what the publisher returned. -/
theorem Passes.status
    {decode : List UInt8 → Except Fault EdgeBatch} {request : Request}
    (passes : server.Passes decode now request batch)
    (publish : String → Batch → Option Fault) :
    (server.ingest decode publish now request).2.status =
      match publish batch.deviceID batch with
      | none => statusAccepted
      | some fault =>
        if fault.is errDeviceMismatch then statusForbidden
        else statusBadRequest := by
  obtain ⟨payload, decoded, claimed, converted⟩ := passes.decoded
  obtain ⟨own, valid⟩ := toBatch_checked converted
  have answer :=
    @Service.accept_of_checked publish _ batch server.acceptor own valid
  have matching : ¬(payload.deviceID ≠ "" ∧
      payload.deviceID ≠ request.header server.identityHeader) := by
    rintro ⟨present, different⟩
    rcases claimed with empty | same
    · exact present empty
    · exact different same
  simp only [ingest, passes.authorised, Bool.not_true, Bool.false_eq_true,
    if_false, if_neg passes.identified, decoded, if_neg matching,
    converted, answer]
  cases publish batch.deviceID batch with
  | none => rfl
  | some fault =>
    simp only
    split <;> rfl

theorem ingest_frame (decode : List UInt8 → Except Fault EdgeBatch)
    (publish : String → Batch → Option Fault) (now : Nat → Time)
    (request : Request) (server : Server) :
    ∃ acceptor metrics, (server.ingest decode publish now request).1 =
        { server with acceptor := acceptor, metrics := metrics } := by
  simp only [ingest]
  repeat' split
  all_goals exact ⟨_, _, rfl⟩

theorem Passes.again
    {decode : List UInt8 → Except Fault EdgeBatch} {request : Request}
    (passes : server.Passes decode now request batch)
    (publish : String → Batch → Option Fault) :
    (server.ingest decode publish now request).1.Passes
      decode now request batch := by
  obtain ⟨acceptor, metrics, frame⟩ :=
    ingest_frame decode publish now request server
  rw [frame]
  exact ⟨passes.authorised, passes.identified, passes.decoded⟩

end Server

end Ironclaw.Ingest
