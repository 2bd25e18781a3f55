import Ironclaw.Disk.Fifo
import Ironclaw.Disk.Proceeding
import Ironclaw.Ingest.Server
import Ironclaw.Transport.HTTPS

/-!
# A failing publisher makes the agent discard its batches

Ingest answers 400 to every batch that its publisher did not take, and the
agent takes a 400 for a permanent refusal.  So a batch that ingest would have
accepted a moment later is not spooled, and one that is spooled is released.
-/

namespace Ironclaw.Transport

open Lib Domain Disk Ingest HTTPS

/-! ## A permanent refusal -/

theorem send_refused
    {fault : Fault} {reply : Reply} (posted : post reply = some fault)
    (refused : fault.is errUnacceptable = true) (https : HTTPS)
    (payload : Payload) :
    https.send (.ok payload) reply =
      pure (https.record metricRefused 1, some fault) := by
  simp only [send, settle, posted, refused, if_true]

/-- `Drain` releases the oldest entry when it is refused. -/
theorem run_drainTurn_refused
    {fault : Fault} {reply : Reply} {https : HTTPS} {spool : Spool}
    {directory : Directory} {entry : Entry} {rest : List Entry}
    (posted : post reply = some fault)
    (refused : fault.is errUnacceptable = true)
    (configured : https.queue = some spool)
    (intact : Intact directory) (indexes : Indexes directory spool)
    (queue : queueOf directory.journal = entry :: rest)
    (unused : List FsVerdict) :
    ∃ after result, (https.drainTurn reply).run fileSystem directory
          (.proceed :: .proceed :: .proceed :: unused) =
        .finished after (result, .refused) unused ∧
      queueOf after.journal = rest := by
  have verdict : judge (post reply) = .refused := by
    rw [posted, judge, if_pos refused]
  have queued : entry ∈ queueOf directory.journal := by simp [queue]
  have order : spool.order = entry.name :: rest.map Entry.name := by
    rw [indexes.order_eq, queue, List.map_cons]
  have peeked := run_peek intact.toStored queued order (.proceed :: unused)
  have ran := run_release intact.toStored indexes.toLists queued unused
  refine
    ⟨directory.without entry.name, settleRelease .refused none
        { https with
          queue := some
            { spool.forget entry.name with
              dequeued := (spool.forget entry.name).dequeued + 1 } },
      ?_, intact.queueOf_without_head queue⟩
  rw [drainTurn, configured]
  simp only [Program.run_bind, peeked, verdict, ran]
  rfl

/-! ## A failing publisher -/

/--
For every request that passes the checks of ingest and every error of the
publisher other than a device mismatch: sending the same request again can be
accepted, but the status it got makes `Send` report the batch as refused with
the spool unchanged, and makes `Drain` release it.
-/
theorem publish_failure_discards_batch
    {decode : List UInt8 → Except Fault EdgeBatch} {now : Nat → Time}
    {request : Request} {batch : Batch} {server : Server}
    {publish : String → Batch → Option Fault} {fault : Fault}
    (passes : server.Passes decode now request batch)
    (fails : publish batch.deviceID batch = some fault)
    (other : fault.is errDeviceMismatch = false) :
    let answer := server.ingest decode publish now request
    let reply := Reply.answered answer.2.status
    permanentlyRefused answer.2.status = true ∧
      (∀ recovered : String → Batch → Option Fault,
        recovered batch.deviceID batch = none →
          (answer.1.ingest decode recovered now request).2.status =
            statusAccepted) ∧
      ∃ refusal, refusal.is errUnacceptable = true ∧
        (∀ (https : HTTPS) (payload : Payload) (directory : Directory)
            (verdicts : List FsVerdict),
          (https.send (.ok payload) reply).run fileSystem directory verdicts =
            .finished directory
              (https.record metricRefused 1, some refusal) verdicts) ∧
        ∀ (https : HTTPS) (spool : Spool) (directory : Directory)
            (entry : Entry) (rest : List Entry)
            (unused : List FsVerdict),
          https.queue = some spool → Intact directory →
          Indexes directory spool →
          queueOf directory.journal = entry :: rest → ∃ after result,
              (https.drainTurn reply).run fileSystem directory
                  (.proceed :: .proceed :: .proceed :: unused) =
                .finished after (result, .refused) unused ∧
              queueOf after.journal = rest := by
  intro answer reply
  have status : answer.2.status = statusBadRequest := by
    have answered := passes.status publish
    simpa only [fails, other, Bool.false_eq_true, if_false] using answered
  have permanent : permanentlyRefused answer.2.status = true := by
    rw [status]
    decide
  obtain ⟨refusal, posted, refused⟩ := post_of_permanentlyRefused permanent
  refine ⟨permanent, ?_, refusal, refused, ?_, ?_⟩
  · intro recovered accepts
    have again := (passes.again publish).status recovered
    simpa only [accepts] using again
  · intro https payload directory verdicts
    rw [send_refused posted refused]
    rfl
  · intro https spool directory entry rest unused
      configured intact indexes queue
    exact run_drainTurn_refused posted refused configured intact indexes
      queue unused

/-! ### One batch -/

def sampleServer : Server where
  acceptor := ⟨none⟩
  identityHeader := defaultIdentityHeader
  maxBodyBytes := defaultMaxBodyBytes
  allowedClients := []
  podID := "pod"
  metrics := none

def sampleRequest : Request where
  peer := none
  header := fun _ => "device"
  body := [0]

def sampleEdgeBatch : EdgeBatch where
  deviceID := "device"
  events := [⟨"user", 7, 1, 5, 10, 20, false⟩]

def sampleNow : Nat → Time := fun _ => ⟨1⟩

def sampleDecode : List UInt8 → Except Fault EdgeBatch :=
  fun _ => .ok sampleEdgeBatch

/-- The broker cannot be reached. -/
def samplePublish : String → Batch → Option Fault :=
  fun _ _ => some (.sentinel "kafka: broker unreachable")

def sampleBatch : Batch where
  deviceID := "device"
  createdAt := ⟨1⟩
  events := [⟨"device", "user", 7, "pod", .syscall, ⟨5⟩, 10, 20, false⟩]

theorem sampleServer_passes :
    sampleServer.Passes sampleDecode sampleNow sampleRequest sampleBatch where
  authorised := rfl
  identified := by decide
  decoded := by
    refine ⟨sampleEdgeBatch, rfl, Or.inr rfl, ?_⟩
    rfl

theorem publish_failure_discards_sample : permanentlyRefused
      (sampleServer.ingest sampleDecode samplePublish sampleNow
        sampleRequest).2.status = true :=
  (publish_failure_discards_batch sampleServer_passes rfl (by decide)).1

/-- An agent with an empty spool of four kilobytes. -/
def sampleAgent : HTTPS := ⟨some (Spool.new 4096), none, 0⟩

/-- What is spooled once `Send` got this answer. -/
def sampleSpooled (status : Int) : List Payload :=
  match (sampleAgent.send (.ok [1]) (.answered status)).run fileSystem
      Directory.empty (List.replicate 9 .proceed) with
  | .finished after _ _ => (queueOf after.journal).map Entry.payload
  | .killed after => (queueOf after.journal).map Entry.payload

/-- The answer of ingest loses the batch; a 503 would have spooled it. -/
theorem publish_failure_loses_batch :
    (sampleServer.ingest sampleDecode samplePublish sampleNow
        sampleRequest).2.status = 400 ∧
      sampleSpooled 400 = [] ∧ sampleSpooled 503 = [[1]] := by
  decide

end Ironclaw.Transport
