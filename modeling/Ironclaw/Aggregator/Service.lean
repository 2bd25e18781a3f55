import Ironclaw.Aggregate.Ledger
import Ironclaw.Lib.Outcome

/-!
# The aggregator service

The service counts batches in its aggregator, and publishes what a collect
returns window by window.  A window whose publication failed stays pending;
the others are committed after the last publication.

A publication is modelled one target at a time, since batches and other
publications run between any two calls of a target.
-/

namespace Ironclaw.Aggregator

open Lib Domain Aggregate Aggregate.Aggregator

variable {Sketch World Item : Type}

def metricBatchesConsumed : String := "aggregator_batches_consumed"
def metricWindowsEmitted : String := "aggregator_windows_emitted"
def metricWindowsRetained : String := "aggregator_windows_retained"
def metricEventsShed : String := "aggregator_events_shed"

/-- The service; without a recorder, `metrics` is `none`. -/
structure Service (Sketch World : Type) where
  source : Aggregate.Aggregator Sketch World
  metrics : Option Metrics
  lastShed : Int64

namespace Service

def record
    (name : String) (delta : Int64) (service : Service Sketch World) :
    Service Sketch World :=
  if delta = 0 then service
  else
    { service with
      metrics := service.metrics.map fun metrics =>
        metrics.increment name delta }

/-- Report the events shed since the last report. -/
def recordShed (service : Service Sketch World) : Service Sketch World :=
  let shed := service.source.shed
  { service with lastShed := shed }.record metricEventsShed
    (shed - service.lastShed)

/--
`HandleBatch` over items that carry an event; it also returns the items that
were counted.
-/
def handleItems
    (ops : SketchOps Sketch World) (event : Item → Event)
    (context : Option Fault) (items : List Item)
    (service : Service Sketch World) :
    Service Sketch World × List Item × Option Fault :=
  match context with
  | some fault => (service, [], some fault)
  | none =>
    match service.source.ingestBatchItems ops event items with
    | (source, accepted, some fault) =>
      ({ service with source := source }, accepted, some fault)
    | (source, accepted, none) =>
      (({ service with source := source }.record
          metricBatchesConsumed 1).recordShed,
        accepted, none)

/-- The handler of the batch topic. -/
def handleBatch
    (ops : SketchOps Sketch World) (context : Option Fault) (batch : Batch)
    (service : Service Sketch World) :
    Service Sketch World × Option Fault :=
  let result := service.handleItems ops id context batch.events
  (result.1, result.2.2)

@[simp]
theorem source_record
    (name : String) (delta : Int64) (service : Service Sketch World) :
    (service.record name delta).source = service.source := by
  rw [record]
  split <;> rfl

@[simp]
theorem source_recordShed (service : Service Sketch World) :
    service.recordShed.source = service.source :=
  source_record _ _ _

theorem handleItems_live (ops : SketchOps Sketch World) (event : Item → Event)
    (items : List Item) (service : Service Sketch World) :
    (service.handleItems ops event none items).1.source =
        (service.source.ingestBatchItems ops event items).1 ∧
      (service.handleItems ops event none items).2 =
        (service.source.ingestBatchItems ops event items).2 := by
  rw [handleItems]
  split
  · rename_i outcome
    rw [outcome]
    exact ⟨rfl, rfl⟩
  · rename_i outcome
    rw [outcome]
    exact ⟨by simp, rfl⟩

theorem handleItems_sublist
    (ops : SketchOps Sketch World) (event : Item → Event)
    (context : Option Fault) (items : List Item)
    (service : Service Sketch World) :
    (service.handleItems ops event context items).2.1.Sublist items := by
  cases context with
  | some fault => exact List.nil_sublist _
  | none =>
    rw [(service.handleItems_live ops event items).2, ingestBatchItems]
    split
    · exact List.nil_sublist _
    · exact ingestItems_sublist ops event items _

/-- With a reliable sketch a handling that fails counts nothing. -/
theorem handleItems_failed
    {ops : SketchOps Sketch World} (reliable : ops.Reliable)
    (event : Item → Event) (context : Option Fault) (items : List Item)
    (service : Service Sketch World)
    (failed : (service.handleItems ops event context items).2.2 ≠ none) :
    (service.handleItems ops event context items).2.1 = [] := by
  cases context with
  | some fault => rfl
  | none =>
    rw [(service.handleItems_live ops event items).2] at failed ⊢
    rw [ingestBatchItems] at failed ⊢
    split
    · rfl
    · rename_i valid
      rw [valid] at failed
      exact absurd (ingestItems_reliable reliable event items _) failed

end Service

/-! ## Publication -/

/-- The targets of a publisher, one of which feeds the hot store. -/
structure Publisher where
  targets : Nat
  hot : Fin targets

namespace Publisher

/-- A publisher of its own: the fan-out of one target returns its error. -/
def plain : Publisher := ⟨1, 0⟩

end Publisher

/-- A call of `publish` in progress. -/
structure Publishing where
  /-- What the collect returned. -/
  windows : List AggregateWindow
  /-- The windows not published yet; the first one is in progress. -/
  remaining : List AggregateWindow
  published : List AggregateWindow
  failure : Option Fault
  /-- The next target for the window in progress. -/
  target : Nat
  firstErr : Option Fault
deriving DecidableEq

namespace Publishing

def start (windows : List AggregateWindow) : Publishing where
  windows := windows
  remaining := windows
  published := []
  failure := none
  target := 0
  firstErr := none

/-- `PublishWindow` returned for the window in progress. -/
def returned
    (window : AggregateWindow) (rest : List AggregateWindow)
    (fault : Option Fault) (publishing : Publishing) : Publishing :=
  { publishing with
    remaining := rest
    published :=
      if fault.isNone then publishing.published ++ [window]
      else publishing.published
    failure := publishing.failure.or fault
    target := 0
    firstErr := none }

/-- Call the next target for the window in progress. -/
def attempt
    (targets : Nat) (outcome : Outcome)
    (window : AggregateWindow) (rest : List AggregateWindow)
    (publishing : Publishing) : Publishing :=
  let firstErr := publishing.firstErr.or outcome.fault
  if publishing.target + 1 < targets then
    { publishing with
      target := publishing.target + 1
      firstErr := firstErr }
  else publishing.returned window rest firstErr

/-- Whether this call of a target makes `PublishWindow` return nil. -/
def acknowledges
    (targets : Nat) (outcome : Outcome) (publishing : Publishing) : Bool :=
  !decide (publishing.target + 1 < targets) &&
    (publishing.firstErr.or outcome.fault).isNone

end Publishing

/-- The end of `publish`: commit what was published, and report. -/
def Service.finish
    (publishing : Publishing) (service : Service Sketch World) :
    Service Sketch World :=
  let service := { service with
    source := service.source.commit publishing.published }
  let service := service.record metricWindowsEmitted
    (Int64.ofNat publishing.published.length)
  if publishing.failure.isSome then
    service.record metricWindowsRetained
      (Int64.ofNat (publishing.windows.length - publishing.published.length))
  else service

@[simp]
theorem Service.source_finish
    (publishing : Publishing) (service : Service Sketch World) :
    (service.finish publishing).source =
      service.source.commit publishing.published := by
  rw [Service.finish]
  split <;> simp

end Ironclaw.Aggregator
