import Ironclaw.Domain.Tally

/-!
# The ingest service

A batch is checked against the authenticated identity, validated and handed
to the publisher.  What the publisher answers is a parameter: nothing is
assumed about its errors.
-/

namespace Ironclaw.Ingest

open Lib Domain

def errMissingIdentity : Fault :=
  .sentinel "ingest: authenticated identity is empty"

def metricBatchesAccepted : String := "ingest_batches_accepted"
def metricBatchesRejected : String := "ingest_batches_rejected"
def metricEventsAccepted : String := "ingest_events_accepted"

/-- The acceptor of batches. -/
structure Service where
  metrics : Recorder

namespace Service

def record (name : String) (delta : Int64) (service : Service) : Service :=
  { service with metrics := service.metrics.record name delta }

def reject (fault : Fault) (service : Service) : Service × Option Fault :=
  (service.record metricBatchesRejected 1, some fault)

/-- Check a batch for its device, and publish it. -/
def accept
    (publish : String → Batch → Option Fault)
    (authenticatedDeviceID : String) (batch : Batch) (service : Service) :
    Service × Option Fault :=
  if authenticatedDeviceID = "" then service.reject errMissingIdentity
  else
    match batch.verifyIdentity authenticatedDeviceID with
    | some fault => service.reject fault
    | none =>
      match batch.validate with
      | some fault => service.reject fault
      | none =>
        match publish batch.deviceID batch with
        | some fault => service.reject fault
        | none =>
          ((service.record metricBatchesAccepted 1).record
            metricEventsAccepted
            (Int64.ofNat batch.events.length), none)

/-- The checks of `Accept` before it publishes. -/
def check (authenticatedDeviceID : String) (batch : Batch) : Option Fault :=
  if authenticatedDeviceID = "" then some errMissingIdentity
  else
    match batch.verifyIdentity authenticatedDeviceID with
    | some fault => some fault
    | none => batch.validate

theorem validate_of_check {authenticatedDeviceID : String} {batch : Batch}
    (passed : check authenticatedDeviceID batch = none) :
    batch.validate = none := by
  rw [check] at passed
  split at passed
  · cases passed
  · split at passed
    · cases passed
    · exact passed

theorem accept_of_checked
    {publish : String → Batch → Option Fault} {deviceID : String}
    {batch : Batch} (service : Service)
    (own : batch.verifyIdentity deviceID = none)
    (valid : batch.validate = none) :
    (service.accept publish deviceID batch).2 =
      publish batch.deviceID batch := by
  have named : deviceID ≠ "" := by
    rw [← ((Batch.verifyIdentity_eq_none_iff batch deviceID).mp own).1]
    exact ((Batch.validate_eq_none_iff batch).mp valid).1
  rw [accept, if_neg named, own, valid]
  cases publish batch.deviceID batch with
  | some | none => rfl

end Service

end Ironclaw.Ingest
