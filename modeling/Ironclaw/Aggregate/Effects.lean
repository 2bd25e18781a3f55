import Ironclaw.Aggregate.Aggregator

/-!
# What one event can do

Every outcome of counting one event, and what the loop of a batch keeps.  The
invariants of the aggregator are derived from these.
-/

namespace Ironclaw.Aggregate

open Lib Domain Aggregator

variable {Sketch World Item : Type}

/-- The outcomes of `ingestLocked`: what is left, and the error returned. -/
inductive Ingested
    (ops : SketchOps Sketch World) (event : Event)
    (aggregator : Aggregator Sketch World) :
    Aggregator Sketch World → Option Fault → Prop where
  | counted (state : WindowState Sketch)
      (present : aggregator.openWindows.lookup
        (windowKeyOf aggregator.config event) = some state) :
      Ingested ops event aggregator
        { aggregator with
          openWindows := aggregator.openWindows.insert
            (windowKeyOf aggregator.config event)
            (state.countEvent ops event) }
        none
  | shed
      (absent : aggregator.openWindows.lookup
        (windowKeyOf aggregator.config event) = none)
      (full : aggregator.ceilingReached = true) :
      Ingested ops event aggregator
        { aggregator with shed := aggregator.shed + 1 }
        (some errTooManyKeys)
  | failed (fault : Fault) (world : World)
      (absent : aggregator.openWindows.lookup
        (windowKeyOf aggregator.config event) = none)
      (room : aggregator.ceilingReached = false)
      (factory : ops.newSketch aggregator.world = (.error fault, world)) :
      Ingested ops event aggregator { aggregator with world := world }
        (some fault)
  | opened (sketch : Sketch) (world : World)
      (absent : aggregator.openWindows.lookup
        (windowKeyOf aggregator.config event) = none)
      (room : aggregator.ceilingReached = false)
      (factory : ops.newSketch aggregator.world = (.ok sketch, world)) :
      Ingested ops event aggregator
        { aggregator with
          openWindows := aggregator.openWindows.insert
            (windowKeyOf aggregator.config event)
            ((WindowState.fresh sketch).countEvent ops event)
          world := world }
        none

theorem ingestLocked_ingested {ops : SketchOps Sketch World} {event : Event}
    {aggregator after : Aggregator Sketch World} {fault : Option Fault}
    (ingested : aggregator.ingestLocked ops event = (after, fault)) :
    Ingested ops event aggregator after fault := by
  simp only [ingestLocked] at ingested
  split at ingested
  · rename_i state present
    cases ingested
    exact Ingested.counted state present
  · rename_i absent
    split at ingested
    · rename_i full
      cases ingested
      exact Ingested.shed absent full
    · rename_i room
      have free := Bool.eq_false_iff.mpr room
      split at ingested
      · rename_i fault world factory
        cases ingested
        exact Ingested.failed fault world absent free factory
      · rename_i sketch world factory
        cases ingested
        exact Ingested.opened sketch world absent free factory

/-- What the loop of a batch keeps, if every event keeps it. -/
theorem ingestItems_keeps {ops : SketchOps Sketch World}
    (holds : Aggregator Sketch World → Prop)
    (keeps : ∀ event aggregator, holds aggregator →
      holds (aggregator.ingestLocked ops event).1)
    {event : Item → Event} (items : List Item)
    {aggregator : Aggregator Sketch World} (held : holds aggregator) :
    holds (aggregator.ingestItems ops event items).1 := by
  induction items generalizing aggregator with
  | nil => exact held
  | cons item rest induction =>
    have kept := keeps (event item) aggregator held
    rw [ingestItems]
    split
    · rename_i outcome
      rw [outcome] at kept
      exact induction kept
    · rename_i outcome
      rw [outcome] at kept
      split
      · exact induction kept
      · exact kept

/-- The configuration and the pending windows stay as they are. -/
theorem ingestLocked_frame (ops : SketchOps Sketch World) (event : Event)
    (aggregator : Aggregator Sketch World) :
    (aggregator.ingestLocked ops event).1.config = aggregator.config ∧
      (aggregator.ingestLocked ops event).1.pending =
        aggregator.pending := by
  rcases outcome : aggregator.ingestLocked ops event with ⟨after, fault⟩
  cases ingestLocked_ingested outcome <;> exact ⟨rfl, rfl⟩

theorem ingestItems_frame
    (ops : SketchOps Sketch World) (event : Item → Event)
    (items : List Item) (aggregator : Aggregator Sketch World) :
    (aggregator.ingestItems ops event items).1.config =
        aggregator.config ∧
      (aggregator.ingestItems ops event items).1.pending =
        aggregator.pending := by
  apply ingestItems_keeps fun after =>
    after.config = aggregator.config ∧ after.pending = aggregator.pending
  · rintro event middle ⟨config, pending⟩
    rcases ingestLocked_frame ops event middle with ⟨same, held⟩
    exact ⟨same.trans config, held.trans pending⟩
  · exact ⟨rfl, rfl⟩

end Ironclaw.Aggregate
