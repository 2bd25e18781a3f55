import Ironclaw.Kafka.Offsets
import Ironclaw.Lib.Machine

/-!
# Committed offsets of a consumer group

One consumer after the other works on a topic.  Each resumes from the offsets
that were committed; it may be gone after any step.  The handler, the
dead-letter topic and the commit may fail in every way.

Beside the state of the source stand the places of the records that a handler
took, and the records written to the dead-letter topic.
-/

namespace Ironclaw.Kafka

open Lib Option Consumer

variable {Value : Type}

/-- The broker, one consumer and what was handled. -/
structure Group (Value : Type) where
  broker : Broker Value
  consumer : Consumer Value
  /-- The records that the handler took, by partition and offset. -/
  succeeded : List (Nat × Nat)
  /-- The records in the dead-letter topic. -/
  deadLetters : List (Record Value)

/-- One step of the consumer or around it. -/
inductive Action (Value : Type) where
  | produce (partition : Nat) (value : Value)
  | poll (fetched : Fetched)
  | handle (result : Option Fault)
  | bury (outcome : Outcome)
  | commit (outcome : Outcome)
  | cancel (fault : Fault)
  | replace (settings : Settings) (recorded : Bool)

namespace Group

/-- The handler takes the record, or fails. -/
def handle (result : Option Fault) (group : Group Value) :
    Option (Group Value) :=
  match group.consumer.stage with
  | .delivering record _ _ _ =>
    (group.consumer.handle result).map fun consumer =>
      { group with
        consumer := consumer
        succeeded :=
          if result.isNone then
            group.succeeded ++ [(record.partition, record.offset)]
          else group.succeeded }
  | _ => none

/-- Write the record to the dead-letter topic. -/
def bury (outcome : Outcome) (group : Group Value) :
    Option (Group Value) :=
  match group.consumer.stage with
  | .burying record _ _ _ =>
    (group.consumer.bury outcome).map fun consumer =>
      { group with
        consumer := consumer
        deadLetters :=
          if group.consumer.settings.hasDeadLetter ∧ outcome.reaches then
            group.deadLetters ++ [record]
          else group.deadLetters }
  | _ => none

/-- Commit the offsets of what was handled. -/
def commit (outcome : Outcome) (group : Group Value) :
    Option (Group Value) :=
  match group.consumer.stage with
  | .committing handled _ =>
    (group.consumer.commit outcome).map fun consumer =>
      { group with
        consumer := consumer
        broker :=
          if outcome.reaches then group.broker.commit handled
          else group.broker }
  | _ => none

/-- The group after an action that can be taken. -/
def step (group : Group Value) : Action Value → Option (Group Value)
  | .produce partition value =>
    some { group with broker := group.broker.produce partition value }
  | .poll fetched =>
    (group.consumer.poll fetched group.broker).map fun consumer =>
      { group with consumer := consumer }
  | .handle result => group.handle result
  | .bury outcome => group.bury outcome
  | .commit outcome => group.commit outcome
  | .cancel fault =>
    (group.consumer.cancel fault).map fun consumer =>
      { group with consumer := consumer }
  | .replace settings recorded =>
    some { group with
      consumer := Consumer.join settings recorded group.broker }

/-- The first consumer of a topic. -/
def first
    (log : List (List Value)) (settings : Settings) (recorded : Bool) :
    Group Value where
  broker := ⟨log, fun _ => 0⟩
  consumer := Consumer.join settings recorded ⟨log, fun _ => 0⟩
  succeeded := []
  deadLetters := []

end Group

def groupMachine (Value : Type) : Machine (Group Value) (Action Value) where
  initial group :=
    ∃ log settings recorded, group = Group.first log settings recorded
  step := Group.step

/-! ## Everything below the frontier is finished -/

/-- The record at this place was handled or written to the dead letters. -/
def Group.Finished
    (group : Group Value) (partition offset : Nat) : Prop :=
  ∃ record, group.broker.record? partition offset = some record ∧
    ((partition, offset) ∈ group.succeeded ∨ record ∈ group.deadLetters)

/-- What is below the frontier is finished. -/
structure Group.Sound (group : Group Value) (frontier : Nat → Nat) :
    Prop where
  follows : group.consumer.Follows group.broker frontier
  finished : ∀ partition offset, offset < frontier partition →
    group.Finished partition offset
  committed : ∀ partition,
    group.broker.committed partition ≤ frontier partition

theorem Group.Finished.mono
    {group after : Group Value} {partition offset : Nat}
    (finished : group.Finished partition offset)
    (records : ∀ record, group.broker.record? partition offset = some record →
        after.broker.record? partition offset = some record)
    (succeeded : group.succeeded ⊆ after.succeeded)
    (deadLetters : group.deadLetters ⊆ after.deadLetters) :
    after.Finished partition offset := by
  rcases finished with ⟨record, found, taken | dead⟩
  · exact ⟨record, records record found, Or.inl (succeeded taken)⟩
  · exact ⟨record, records record found, Or.inr (deadLetters dead)⟩

namespace Group.Sound

variable {group after : Group Value} {frontier : Nat → Nat}

section Sound

variable (sound : group.Sound frontier)
include sound

/-- A step that finishes nothing and commits nothing. -/
theorem stay (broker : after.broker = group.broker)
    (succeeded : after.succeeded = group.succeeded)
    (deadLetters : group.deadLetters ⊆ after.deadLetters)
    (follows : after.consumer.Follows after.broker frontier) :
    after.Sound frontier where
  follows := follows
  finished partition offset below := by
    apply (sound.finished partition offset below).mono
    · rw [broker]
      exact fun _ found => found
    · rw [succeeded]
      exact List.Subset.refl _
    · exact deadLetters
  committed := by
    rw [broker]
    exact sound.committed

/-- A step that finishes the record in progress. -/
theorem finish {record : Record Value} {rest : List (Record Value)}
    (continues : group.consumer.stage.continues = true)
    (ahead : group.consumer.stage.ahead = record :: rest)
    (broker : after.broker = group.broker)
    (succeeded : group.succeeded ⊆ after.succeeded)
    (deadLetters : group.deadLetters ⊆ after.deadLetters)
    (done : (record.partition, record.offset) ∈ after.succeeded ∨
      record ∈ after.deadLetters)
    (position : after.consumer.position = group.consumer.position)
    (stage : after.consumer.stage =
      .visit (group.consumer.stage.handled ++ [record]) rest) :
    after.Sound (past record frontier) := by
  rcases sound.follows.next_record continues ahead with ⟨place, found, _⟩
  constructor
  · rw [broker]
    exact sound.follows.finish continues ahead position stage
  · intro partition offset below
    rcases lt_past place below with earlier | ⟨rfl, rfl⟩
    · apply (sound.finished partition offset earlier).mono _ succeeded
        deadLetters
      rw [broker]
      exact fun _ present => present
    · refine ⟨record, ?_, done⟩
      rw [broker]
      exact found
  · intro partition
    rw [broker]
    exact (sound.committed partition).trans (le_past place partition)

theorem handle
    {result : Option Fault} (step : group.handle result = some after) :
    ∃ frontier, after.Sound frontier := by
  rw [Group.handle] at step
  split at step
  · rename_i record attempt rest handled stage
    rcases map_eq_some_iff.mp step with ⟨consumer, moved, rfl⟩
    cases result with
    | none =>
      rcases handle_cases moved with
        ⟨record', _, rest', handled', stage', position,
          ⟨_, visited⟩ | ⟨failed, _⟩⟩
      · rw [stage] at stage'
        cases stage'
        have ahead : group.consumer.stage.ahead = record :: rest := by
          rw [stage]
          rfl
        refine ⟨past record frontier, sound.finish ?_ ahead rfl ?_
          (List.Subset.refl _) ?_ position ?_⟩
        · rw [stage]
          rfl
        · exact List.subset_append_left _ _
        · exact Or.inl (List.mem_append_right _ (List.mem_singleton_self _))
        · rw [stage]
          exact visited
      · exact absurd rfl failed
    | some fault =>
      exact ⟨frontier, sound.stay rfl rfl (List.Subset.refl _)
        (sound.follows.retry moved (by simp))⟩
  · cases step

theorem bury {outcome : Outcome} (step : group.bury outcome = some after) :
    ∃ frontier, after.Sound frontier := by
  rw [Group.bury] at step
  split at step
  · rename_i record last rest handled stage
    rcases map_eq_some_iff.mp step with ⟨consumer, moved, rfl⟩
    rcases bury_cases moved with
      ⟨record', _, rest', handled', stage', position,
        ⟨dead, succeeded, visited⟩ | ⟨fault, ended⟩⟩
    · rw [stage] at stage'
      cases stage'
      have ahead : group.consumer.stage.ahead = record :: rest := by
        rw [stage]
        rfl
      refine ⟨past record frontier, sound.finish ?_ ahead rfl
        (List.Subset.refl _) subset_concatIf ?_ position ?_⟩
      · rw [stage]
        rfl
      · apply Or.inr
        exact mem_concatIf ⟨dead, Outcome.reaches_of_fault succeeded⟩
      · rw [stage]
        exact visited
    · rw [stage] at stage'
      cases stage'
      refine ⟨frontier, sound.stay rfl rfl subset_concatIf ?_⟩
      apply sound.follows.fail fault
      rw [stage]
      exact ended
  · cases step

theorem commit
    {outcome : Outcome} (step : group.commit outcome = some after) :
    after.Sound frontier := by
  rw [Group.commit] at step
  split at step
  · rename_i handled failure stage
    rcases map_eq_some_iff.mp step with ⟨consumer, moved, rfl⟩
    have below : ∀ record ∈ handled,
        record.offset < frontier record.partition := by
      have known := sound.follows.handled
      rw [stage] at known
      exact known
    refine ⟨sound.follows.commit moved, ?_, ?_⟩
    · intro partition offset lower
      apply (sound.finished partition offset lower).mono
      · intro record found
        dsimp only
        split
        · exact found
        · exact found
      · exact List.Subset.refl _
      · exact List.Subset.refl _
    · intro partition
      dsimp only
      split
      · exact @Broker.committed_commit _ _ _
          (fun partition offset => offset ≤ frontier partition)
          below sound.committed partition
      · exact sound.committed partition
  · cases step

theorem step {action : Action Value} (step : group.step action = some after) :
    ∃ frontier, after.Sound frontier := by
  cases action with
  | produce partition value =>
    cases step
    refine ⟨frontier, sound.follows.produce partition value, ?_,
      sound.committed⟩
    intro other offset below
    apply (sound.finished other offset below).mono
    · exact fun _ found => Broker.record?_produce partition value found
    · exact List.Subset.refl _
    · exact List.Subset.refl _
  | poll fetched =>
    rcases map_eq_some_iff.mp step with ⟨consumer, moved, rfl⟩
    exact ⟨frontier, sound.stay rfl rfl (List.Subset.refl _)
      (sound.follows.poll moved)⟩
  | handle result => exact sound.handle step
  | bury outcome => exact sound.bury step
  | commit outcome => exact ⟨frontier, sound.commit step⟩
  | cancel fault =>
    rcases map_eq_some_iff.mp step with ⟨consumer, moved, rfl⟩
    rw [cancel_eq moved]
    exact ⟨frontier, sound.stay rfl rfl (List.Subset.refl _)
      ⟨sound.follows.ahead, sound.follows.present, sound.follows.handled⟩⟩
  | replace settings recorded =>
    cases step
    refine ⟨group.broker.committed,
      follows_join settings recorded, ?_, fun _ => le_rfl⟩
    intro partition offset below
    exact sound.finished partition offset
      (lt_of_lt_of_le below (sound.committed partition))

end Sound

end Group.Sound

/-- Everything below a committed offset was handled or buried. -/
theorem offsets_pass_only_finished_records
    {group : Group Value}
    (reachable : (groupMachine Value).Reachable group)
    (partition offset : Nat)
    (below : offset < group.broker.committed partition) :
    ∃ record, group.broker.record? partition offset = some record ∧
      ((partition, offset) ∈ group.succeeded ∨
        record ∈ group.deadLetters) := by
  have sound : ∃ frontier, group.Sound frontier := by
    apply Machine.Reachable.invariant _ _ reachable
    · rintro _ ⟨log, settings, recorded, rfl⟩
      refine ⟨fun _ => 0, Consumer.follows_join settings recorded, ?_,
        fun _ => le_rfl⟩
      intro partition offset impossible
      exact absurd impossible (Nat.not_lt_zero _)
    · rintro before action after _ ⟨frontier, sound⟩ step
      exact sound.step step
  rcases sound with ⟨frontier, sound⟩
  exact sound.finished partition offset
    (lt_of_lt_of_le below (sound.committed partition))

/-! ### A run -/

/-- Two attempts, and a dead-letter topic. -/
def sampleSettings : Settings := ⟨2, true, by decide, by decide⟩

def errHandler : Fault := .sentinel "handler failed"

/-- The first record is taken at the second attempt, the other is buried. -/
def sampleActions : List (Action Nat) :=
  [.poll (.records [0, 0]), .handle (some errHandler), .handle none,
    .handle (some errHandler), .handle (some errHandler),
    .bury .delivered, .commit .delivered]

def sampleGroup : Group Nat :=
  ((groupMachine Nat).run (Group.first [[10, 20]] sampleSettings true)
    sampleActions).get (by decide)

theorem sampleGroup_reachable : (groupMachine Nat).Reachable sampleGroup := by
  have start : (groupMachine Nat).Reachable
      (Group.first [[10, 20]] sampleSettings true) :=
    Machine.Reachable.start ⟨[[10, 20]], sampleSettings, true, rfl⟩
  exact start.run (some_get _).symm

theorem offsets_pass_only_finished_records_sample :
    1 < sampleGroup.broker.committed 0 ∧
      ∃ record, sampleGroup.broker.record? 0 1 = some record ∧
        ((0, 1) ∈ sampleGroup.succeeded ∨
          record ∈ sampleGroup.deadLetters) := by
  have below : 1 < sampleGroup.broker.committed 0 := by decide
  exact ⟨below, offsets_pass_only_finished_records sampleGroup_reachable
    0 1 below⟩

end Ironclaw.Kafka
