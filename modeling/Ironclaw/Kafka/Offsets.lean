import Ironclaw.Kafka.Consumer
import Mathlib.Data.List.Basic

/-!
# Offsets of a consumer

A fetch continues where the last one ended: within each partition its records
stand one after the other.  The frontier of a consumer is, for each partition,
the offset of the next record to be finished; it moves over a record when the
record was handled or buried, and everything that is handled lies below it.
-/

namespace Ironclaw.Kafka

open Lib List Option Function Stage Consumer Broker

variable {Value : Type}
variable {record : Record Value} {broker : Broker Value}

/-! ## Records that follow one another -/

/-- Records that follow the offsets `start`, and where they end. -/
inductive Consecutive :
    (Nat → Nat) → List (Record Value) → (Nat → Nat) → Prop where
  | nil (start : Nat → Nat) : Consecutive start [] start
  | cons {start : Nat → Nat} {record : Record Value}
      {rest : List (Record Value)} {finish : Nat → Nat}
      (next : record.offset = start record.partition)
      (later : Consecutive
        (Function.update start record.partition (record.offset + 1))
        rest finish) :
      Consecutive start (record :: rest) finish

theorem Broker.record?_eq {partition offset : Nat}
    (found : broker.record? partition offset = some record) :
    record.partition = partition ∧ record.offset = offset := by
  rw [record?] at found
  split at found
  · cases found
  · rcases map_eq_some_iff.mp found with ⟨value, _, rfl⟩
    exact ⟨rfl, rfl⟩

/-- A record keeps its place when others are produced. -/
theorem Broker.record?_produce
    {partition offset : Nat} (target : Nat) (value : Value)
    (found : broker.record? partition offset = some record) :
    (broker.produce target value).record? partition offset =
      some record := by
  rw [record?] at found ⊢
  rw [produce]
  simp only [List.getElem?_modify]
  split at found
  · cases found
  · rename_i records here
    rcases Option.map_eq_some_iff.mp found with ⟨old, present, rfl⟩
    simp only [here, Option.map_eq_map, Option.map_some]
    split
    · rw [List.getElem?_append_left
        (List.getElem?_eq_some_iff.mp present).1, present]
      rfl
    · simp [present]

theorem Broker.fetch_consecutive {position next : Nat → Nat}
    {partitions : List Nat} {records : List (Record Value)}
    (fetched : broker.fetch position partitions = some (records, next)) :
    Consecutive position records next ∧ ∀ record ∈ records,
        broker.record? record.partition record.offset = some record := by
  induction partitions generalizing position records with
  | nil =>
    cases fetched
    exact ⟨.nil _, forall_mem_nil _⟩
  | cons partition rest induction =>
    rw [fetch] at fetched
    split at fetched
    · cases fetched
    · rename_i record found
      rcases map_eq_some_iff.mp fetched
        with ⟨⟨later, after⟩, continued, equal⟩
      cases equal
      rcases record?_eq found with ⟨rfl, place⟩
      rcases induction continued with ⟨consecutive, present⟩
      constructor
      · apply Consecutive.cons place
        rw [place]
        exact consecutive
      · intro other member
        rcases mem_cons.mp member with rfl | inside
        · rw [place]
          exact found
        · exact present other inside

/-- Every committed offset was committed before, or follows a record. -/
theorem Broker.committed_commit
    {records : List (Record Value)} {holds : Nat → Nat → Prop}
    (follows : ∀ record ∈ records, holds record.partition (record.offset + 1))
    (before : ∀ partition, holds partition (broker.committed partition))
    (partition : Nat) :
    holds partition ((broker.commit records).committed partition) := by
  have general : ∀ committed : Nat → Nat,
      (∀ partition, holds partition (committed partition)) →
        holds partition (records.foldl (fun committed record =>
          update committed record.partition (record.offset + 1))
          committed partition) := by
    induction records with
    | nil => exact fun committed known => known partition
    | cons record rest induction =>
      intro committed known
      apply induction
      · exact fun other member => follows other (mem_cons_of_mem _ member)
      · intro each
        dsimp only
        by_cases same : each = record.partition
        · subst same
          rw [update_self]
          exact follows record mem_cons_self
        · rw [update_of_ne same]
          exact known each
  exact general broker.committed before

/-! ## The frontier -/

namespace Stage

/-- The records that were handled and are not committed. -/
def handled : Stage Value → List (Record Value)
  | .delivering _ _ _ handled => handled
  | .burying _ _ _ handled => handled
  | .committing handled _ => handled
  | _ => []

/-- The records of a fetch that are not finished. -/
def ahead : Stage Value → List (Record Value)
  | .delivering record _ rest _ => record :: rest
  | .burying record _ rest _ => record :: rest
  | _ => []

/-- The loop will go on to fetch. -/
def continues : Stage Value → Bool
  | .committing _ (some _) => false
  | .returned _ => false
  | _ => true

end Stage

/-- What a consumer has left to do starts at the frontier. -/
structure Consumer.Follows
    (broker : Broker Value) (frontier : Nat → Nat)
    (consumer : Consumer Value) : Prop where
  ahead : consumer.stage.continues = true →
    Consecutive frontier consumer.stage.ahead consumer.position
  present : ∀ record ∈ consumer.stage.ahead,
    broker.record? record.partition record.offset = some record
  handled : ∀ record ∈ consumer.stage.handled,
    record.offset < frontier record.partition

theorem Stage.ahead_visit (handled records : List (Record Value)) :
    (visit handled records).ahead = records := by
  cases records with
  | nil => cases handled <;> rfl
  | cons record rest => rfl

theorem Stage.handled_visit (handled records : List (Record Value)) :
    (visit handled records).handled = handled := by
  cases records with
  | nil => cases handled <;> rfl
  | cons record rest => rfl

theorem Stage.settle_failed (handled : List (Record Value)) (fault : Fault) :
    (Stage.settle handled (some fault)).continues = false ∧
      (Stage.settle handled (some fault)).ahead = [] ∧
        (settle handled (some fault)).handled = handled := by
  cases handled <;> exact ⟨rfl, rfl, rfl⟩

/-- The frontier after a record. -/
def past (record : Record Value) (frontier : Nat → Nat) : Nat → Nat :=
  Function.update frontier record.partition (record.offset + 1)

theorem le_past {frontier : Nat → Nat}
    (next : record.offset = frontier record.partition) (partition : Nat) :
    frontier partition ≤ past record frontier partition := by
  by_cases same : partition = record.partition
  · subst same
    rw [past, update_self, next]
    exact Nat.le_succ _
  · rw [past, update_of_ne same]

theorem lt_past
    {frontier : Nat → Nat} (next : record.offset = frontier record.partition)
    {partition offset : Nat}
    (below : offset < past record frontier partition) :
    offset < frontier partition ∨
      partition = record.partition ∧ offset = record.offset := by
  by_cases same : partition = record.partition
  · subst same
    rw [past, update_self] at below
    rcases Nat.lt_succ_iff_lt_or_eq.mp below with earlier | equal
    · exact Or.inl (next ▸ earlier)
    · exact Or.inr ⟨rfl, equal⟩
  · rw [past, update_of_ne same] at below
    exact Or.inl below

namespace Consumer

variable {frontier : Nat → Nat}
variable {consumer next : Consumer Value}
variable {result : Option Fault} {outcome : Outcome}

theorem follows_join (settings : Settings) (recorded : Bool) :
    (Consumer.join settings recorded broker).Follows broker
      broker.committed where
  ahead _ := .nil _
  present := forall_mem_nil _
  handled := forall_mem_nil _

theorem Follows.produce (follows : consumer.Follows broker frontier)
    (partition : Nat) (value : Value) :
    consumer.Follows (broker.produce partition value) frontier :=
  { follows with
    present := fun record member =>
      record?_produce partition value (follows.present record member) }

theorem Follows.poll
    {fetched : Fetched} (follows : consumer.Follows broker frontier)
    (step : consumer.poll fetched broker = some next) :
    next.Follows broker frontier := by
  have ended : ∀ result, Follows broker frontier
      { consumer with stage := .returned result } := fun result =>
    ⟨fun impossible => (by cases impossible), forall_mem_nil _,
      forall_mem_nil _⟩
  simp only [Consumer.poll] at step
  split at step
  · cases step
    exact ended _
  · rename_i polling _
    split at step
    · cases step
      exact ended _
    · cases step
      exact ended _
    · rcases map_eq_some_iff.mp step with ⟨⟨records, position⟩, found, rfl⟩
      rcases fetch_consecutive found with ⟨consecutive, present⟩
      have start : frontier = consumer.position := by
        have ahead := follows.ahead (by rw [polling]; rfl)
        rw [polling] at ahead
        cases ahead
        rfl
      constructor
      · intro _
        rw [ahead_visit, start]
        exact consecutive
      · rw [ahead_visit]
        exact present
      · rw [handled_visit]
        exact forall_mem_nil _
  · cases step

theorem Follows.next_record
    {rest : List (Record Value)} (follows : consumer.Follows broker frontier)
    (continues : consumer.stage.continues = true)
    (ahead : consumer.stage.ahead = record :: rest) :
    record.offset = frontier record.partition ∧
      broker.record? record.partition record.offset = some record ∧
        Consecutive (past record frontier) rest consumer.position := by
  have consecutive := follows.ahead continues
  rw [ahead] at consecutive
  cases consecutive with
  | cons next later =>
    refine ⟨next, ?_, later⟩
    apply follows.present
    rw [ahead]
    exact mem_cons_self

/-- The record in progress is finished, and the loop goes on. -/
theorem Follows.finish
    {rest : List (Record Value)} (follows : consumer.Follows broker frontier)
    (continues : consumer.stage.continues = true)
    (ahead : consumer.stage.ahead = record :: rest)
    (position : next.position = consumer.position)
    (stage : next.stage = .visit (consumer.stage.handled ++ [record]) rest) :
    next.Follows broker (past record frontier) := by
  rcases follows.next_record continues ahead with ⟨place, _, later⟩
  constructor
  · intro _
    rw [stage, ahead_visit, position]
    exact later
  · rw [stage, ahead_visit]
    intro other member
    apply follows.present
    rw [ahead]
    exact mem_cons_of_mem _ member
  · rw [stage, handled_visit]
    refine forall_mem_concat (fun other before => lt_of_lt_of_le
      (follows.handled other before) (le_past place other.partition)) ?_
    rw [past, update_self]
    exact Nat.lt_succ_self _

/-- The record in progress failed for good. -/
theorem Follows.fail
    (follows : consumer.Follows broker frontier) (fault : Fault)
    (stage : next.stage = .settle consumer.stage.handled (some fault)) :
    next.Follows broker frontier := by
  rcases settle_failed consumer.stage.handled fault
    with ⟨ended, ahead, handled⟩
  constructor
  · rw [stage, ended]
    intro impossible
    cases impossible
  · rw [stage, ahead]
    exact forall_mem_nil _
  · rw [stage, handled]
    exact follows.handled

/-! ## What one step can do -/

theorem handle_cases (step : consumer.handle result = some next) :
    ∃ record attempt rest handled,
      consumer.stage = .delivering record attempt rest handled ∧
        next.position = consumer.position ∧
        (result = none ∧ next.stage = .visit (handled ++ [record]) rest ∨
          result ≠ none ∧
            ((∃ fault, next.stage = .settle handled (some fault)) ∨
              next.stage = .delivering record (attempt + 1) rest handled ∨
              ∃ fault, next.stage = .burying record fault rest handled)) := by
  rw [handle] at step
  split at step
  · rename_i record attempt rest handled stage
    refine ⟨record, attempt, rest, handled, stage, ?_⟩
    split at step
    · cases step
      exact ⟨rfl, Or.inl ⟨rfl, rfl⟩⟩
    · cases step
      exact ⟨rfl, Or.inr ⟨by simp, Or.inl ⟨_, rfl⟩⟩⟩
    · cases step
      refine ⟨rfl, Or.inr ⟨by simp, Or.inr ?_⟩⟩
      dsimp only
      split
      · exact Or.inl rfl
      · exact Or.inr ⟨_, rfl⟩
  · cases step

theorem bury_cases (step : consumer.bury outcome = some next) :
    ∃ record last rest handled,
      consumer.stage = .burying record last rest handled ∧
        next.position = consumer.position ∧
        (consumer.settings.hasDeadLetter = true ∧ outcome.fault = none ∧
            next.stage = .visit (handled ++ [record]) rest ∨
          ∃ fault, next.stage = .settle handled (some fault)) := by
  rw [bury] at step
  split at step
  · rename_i record last rest handled stage
    refine ⟨record, last, rest, handled, stage, ?_⟩
    split at step
    · rename_i dead
      split at step
      · rename_i succeeded
        cases step
        exact ⟨rfl, Or.inl ⟨dead, succeeded, rfl⟩⟩
      · cases step
        exact ⟨rfl, Or.inr ⟨_, rfl⟩⟩
    · cases step
      exact ⟨rfl, Or.inr ⟨_, rfl⟩⟩
  · cases step

theorem commit_cases (step : consumer.commit outcome = some next) :
    ∃ handled failure, consumer.stage = .committing handled failure ∧
      next.position = consumer.position ∧
        (failure = none ∧ next.stage = .polling ∨
          ∃ result, next.stage = .returned result) := by
  rw [commit] at step
  split at step
  · rename_i handled failure stage
    refine ⟨handled, failure, stage, ?_⟩
    split at step
    · cases step
      cases failure with
      | none => exact ⟨rfl, Or.inl ⟨rfl, rfl⟩⟩
      | some fault => exact ⟨rfl, Or.inr ⟨_, rfl⟩⟩
    · cases step
      exact ⟨rfl, Or.inr ⟨_, rfl⟩⟩
  · cases step

theorem cancel_eq {fault : Fault} (step : consumer.cancel fault = some next) :
    next = { consumer with context := some fault } := by
  rw [cancel] at step
  split at step
  · exact (some.inj step).symm
  · cases step

theorem Follows.commit
    {broker' : Broker Value} (follows : consumer.Follows broker frontier)
    (step : consumer.commit outcome = some next) :
    next.Follows broker' frontier := by
  rcases commit_cases step with ⟨handled, failure, stage, position,
      ⟨rfl, polling⟩ | ⟨result, returned⟩⟩
  · have ahead := follows.ahead (by rw [stage]; rfl)
    rw [stage] at ahead
    constructor
    · intro _
      rw [polling, position]
      exact ahead
    · rw [polling]
      exact forall_mem_nil _
    · rw [polling]
      exact forall_mem_nil _
  · constructor
    · rw [returned]
      intro impossible
      cases impossible
    · rw [returned]
      exact forall_mem_nil _
    · rw [returned]
      exact forall_mem_nil _

/-- The loop goes on with the same records before and behind it. -/
theorem Follows.stay (follows : consumer.Follows broker frontier)
    (position : next.position = consumer.position)
    (continues : consumer.stage.continues = true)
    (ahead : next.stage.ahead = consumer.stage.ahead)
    (handled : next.stage.handled = consumer.stage.handled) :
    next.Follows broker frontier := by
  constructor
  · rw [ahead, position]
    exact fun _ => follows.ahead continues
  · rw [ahead]
    exact follows.present
  · rw [handled]
    exact follows.handled

/-- The handling of a record failed: the record stays the next one. -/
theorem Follows.retry (follows : consumer.Follows broker frontier)
    (step : consumer.handle result = some next) (failed : result ≠ none) :
    next.Follows broker frontier := by
  rcases handle_cases step with
    ⟨record, attempt, rest, handled, stage, position,
      ⟨succeeded, _⟩ | ⟨_, ⟨fault, ended⟩ | again | ⟨fault, again⟩⟩⟩
  · exact absurd succeeded failed
  · apply follows.fail fault
    rw [ended, stage]
    rfl
  all_goals
    exact follows.stay position (by rw [stage]; rfl)
      (by rw [again, stage]; rfl) (by rw [again, stage]; rfl)

end Consumer

end Ironclaw.Kafka
