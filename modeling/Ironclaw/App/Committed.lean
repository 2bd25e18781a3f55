import Ironclaw.Aggregate.Conservation
import Ironclaw.App.Owner

/-!
# Committed offsets

The consumer commits the offsets of a fetch as soon as its records have been
handled, whatever the aggregator still holds.  An event of a committed record
is therefore lost if the process dies before it publishes the window of the
event.  Nothing is lost in runs where offsets are committed only while every
window that the aggregator holds has been published.
-/

namespace Ironclaw.App

open Lib Domain Aggregate Ironclaw.Aggregator Kafka Store List Option

variable {Sketch World Value : Type}

/-- Some process has published a window that contains the event. -/
def Owner.Published
    (owner : Owner Sketch World Value) (item : RawEvent) : Prop :=
  ∃ process ∈ owner.processes, process.Publishes item

/--
Offsets are committed only while no window is open and every pending one has
been published, and before the sequence numbers repeat.
-/
def CommitsPublished
    (owner : Owner Sketch World Value) : Turn World Value → Prop
  | .commit outcome => outcome.reaches = true →
    owner.process.service.source.openWindows = ∅ ∧
      (∀ window ∈ GoMap.values owner.process.service.source.pending,
        window ∈ owner.process.acknowledged) ∧
      owner.process.ledger.emitted.length < 2 ^ 64
  | _ => True

theorem Owner.Published.step {deployment : Deployment Sketch World Value}
    {owner after : Owner Sketch World Value} {turn : Turn World Value}
    {item : RawEvent} (published : owner.Published item)
    (step : owner.step deployment turn = some after) :
    after.Published item := by
  rcases published with ⟨process, member, publishes⟩
  cases Owner.turned step with
  | pass | commit | deliver => exact ⟨process, member, publishes⟩
  | move consumer moved =>
    rcases mem_cons.mp member with rfl | older
    · exact ⟨_, mem_cons_self, publishes.step moved⟩
    · exact ⟨process, mem_cons_of_mem _ older, publishes⟩
  | crash => exact ⟨process, mem_cons_of_mem _ member, publishes⟩

/-- A commit adds counted events of the living process, if it adds any. -/
theorem Owner.secured_cases {deployment : Deployment Sketch World Value}
    {owner after : Owner Sketch World Value} {turn : Turn World Value}
    (step : owner.step deployment turn = some after) :
    after.secured = owner.secured ∨
      ∃ outcome handled, turn = .commit outcome ∧ outcome.reaches = true ∧
        after.secured = owner.secured ++ owner.countedIn handled := by
  cases Owner.turned step with
  | pass | move | deliver | crash => exact Or.inl rfl
  | commit outcome handled _ _ reached =>
    exact Or.inr ⟨outcome, handled, rfl, reached, rfl⟩

/--
In every run that commits offsets only while all windows of the aggregator are
published, every event counted of a committed record is in a published window.
-/
theorem committed_events_published
    (deployment : Deployment Sketch World Value)
    {owner : Owner Sketch World Value}
    (reachable :
      (ownerMachine deployment).ReachableUnder CommitsPublished owner) :
    ∀ item ∈ owner.secured, owner.Published item := by
  apply reachable.invariant
  · rintro _ ⟨log, now, world, process, _, rfl⟩ item member
    exact absurd member not_mem_nil
  · intro before turn after earlier published permitted step item member
    have kept : before.Published item → after.Published item :=
      fun known => known.step step
    rcases Owner.secured_cases step
      with same | ⟨outcome, handled, rfl, reached, grown⟩
    · rw [same] at member
      exact kept (published item member)
    · rw [grown] at member
      rcases mem_append.mp member with old | new
      · exact kept (published item old)
      · rcases permitted reached with ⟨noneOpen, held, bound⟩
        rcases processes_accounted earlier.reachable before.process
          mem_cons_self with ⟨seed, accounted⟩
        apply kept
        refine ⟨before.process, mem_cons_self, ?_⟩
        exact accounted.publishes noneOpen held bound
          (mem_filter.mp new).1

/-! ### A run that commits after it has published -/

theorem one_attempt : (1 : Int64) ≤ 1 := by decide

theorem one_not_retried : (1 : Int64) < 1 → false = true := by decide

/-- A deployment with one attempt and no dead-letter topic. -/
def sampleDeployment : Deployment Unit Unit Batch where
  decode := .ok
  ops := blankSketch
  publisher := Publisher.plain
  raw := { sampleConfig with sequenceSeed := 0 }
  settings := ⟨1, false, one_attempt, one_not_retried⟩
  recorded := false

def sampleBatch : Batch := ⟨"device-1", Time.zero, [sampleEvent]⟩

/-- The process that is started at a reading of the clock. -/
def sampleProcess (now : Time) : Process Unit Unit RawEvent :=
  Process.start ⟨{ sampleAggregator with sequence := now.unixNano }, none, 0⟩

theorem boot_sample (now : Time) :
    Owner.boot sampleDeployment now () = some (sampleProcess now) := by
  have accurate : ¬ ((1 : ℚ) / 100 < 0 ∨ (1 : ℚ) ≤ 1 / 100) := by
    norm_num
  simp only [Owner.boot, Aggregate.Aggregator.new, RawConfig.validate,
    sampleDeployment, sampleConfig, defaultRelativeError, if_true, accurate]
  rfl

/-- The first owner of a topic with one record. -/
def sampleOwner : Owner Unit Unit Batch :=
  Owner.first sampleDeployment [[sampleBatch]] (sampleProcess ⟨1000⟩)

theorem sampleOwner_initial :
    (ownerMachine sampleDeployment).initial sampleOwner :=
  ⟨[[sampleBatch]], ⟨1000⟩, (), sampleProcess ⟨1000⟩, boot_sample _, rfl⟩

/-- Whether a turn commits only what has been published. -/
def commitsPublished
    (owner : Owner Unit Unit Batch) : Turn Unit Batch → Bool
  | .commit _ => owner.process.service.source.openWindows.entries = [] ∧
      (∀ window ∈ GoMap.values owner.process.service.source.pending,
        window ∈ owner.process.acknowledged) ∧
      owner.process.ledger.emitted.length < 2 ^ 64
  | _ => true

theorem commitsPublished_permits
    (owner : Owner Unit Unit Batch) (turn : Turn Unit Batch)
    (checked : commitsPublished owner turn = true) :
    CommitsPublished owner turn := by
  cases turn with
  | commit outcome =>
    rcases of_decide_eq_true checked with ⟨noneOpen, held⟩
    exact fun _ => ⟨AList.ext noneOpen, held⟩
  | _ => trivial

/-- The record is counted, its window published, its offset committed. -/
def securedTurns : List (Turn Unit Batch) :=
  [.poll (.records [0]), .handle, .emit .emitAll,
    .emit (.attempt 0 .delivered), .commit .delivered]

def securedOwner : Owner Unit Unit Batch :=
  ((ownerMachine sampleDeployment).runIf commitsPublished sampleOwner
    securedTurns).get (by decide +kernel)

theorem committed_events_published_sample : ∃ owner,
      (ownerMachine sampleDeployment).ReachableUnder CommitsPublished
          owner ∧
        owner.secured = [⟨0, 0, 0, sampleEvent⟩] ∧
          ∀ item ∈ owner.secured, owner.Published item := by
  have reachable : (ownerMachine sampleDeployment).ReachableUnder
      CommitsPublished securedOwner :=
    (Machine.ReachableUnder.start sampleOwner_initial).runIf
      commitsPublished_permits (Option.some_get _).symm
  exact ⟨securedOwner, reachable, by decide +kernel,
    committed_events_published sampleDeployment reachable⟩

/-! ### A run that loses an event -/

/-- The offset is committed before any window is emitted; then a crash. -/
def lostTurns : List (Turn Unit Batch) :=
  [.poll (.records [0]), .handle, .commit .delivered, .crash ⟨2000⟩ ()]

def lostOwner : Owner Unit Unit Batch :=
  ((ownerMachine sampleDeployment).run sampleOwner lostTurns).get
    (by decide +kernel)

theorem lostOwner_reachable :
    (ownerMachine sampleDeployment).Reachable lostOwner :=
  (Machine.Reachable.start sampleOwner_initial).run (some_get _).symm

/--
The offset of the record is committed and the next owner resumes behind it,
while no process has published its event.
-/
theorem committed_event_lost :
    ∃ owner, (ownerMachine sampleDeployment).Reachable owner ∧
      owner.broker.committed 0 = 1 ∧ owner.consumer.position 0 = 1 ∧
        ∃ item ∈ owner.secured, ¬owner.Published item := by
  have silent : ∀ process ∈ lostOwner.processes,
      process.acknowledged = [] := by
    decide +kernel
  refine ⟨lostOwner, lostOwner_reachable, by decide +kernel,
    by decide +kernel, ⟨0, 0, 0, sampleEvent⟩, by decide +kernel, ?_⟩
  rintro ⟨process, member, entry, _, acknowledged, _⟩
  rw [silent process member] at acknowledged
  exact absurd acknowledged not_mem_nil

end Ironclaw.App
