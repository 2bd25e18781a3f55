import Ironclaw.App.Committed

/-!
# Replay after a crash

A new owner re-reads the records behind the committed offsets and counts them
in windows of its own.  The identities of these windows contain a sequence
number seeded from the clock, so the store does not recognise them: an event
that was published before the crash is counted twice.

The store counts an event at most once for each process from whose windows it
was applied, and exactly once for each of them if no two windows of all the
processes share an identity.
-/

namespace Ironclaw.App

open Lib Domain Aggregate Ironclaw.Aggregator Kafka Store List Process

variable {Sketch World Value : Type}
variable {deployment : Deployment Sketch World Value}
variable {owner : Owner Sketch World Value} {item : RawEvent}
variable {process : Process Sketch World RawEvent} {turn : Turn World Value}

/-! ## The events of the topic -/

/-- The events that stand in a record. -/
def Deployment.eventsOf
    (deployment : Deployment Sketch World Value)
    (record : Record Value) : List RawEvent :=
  match deployment.decode record.value with
  | .error _ => []
  | .ok batch => eventsIn record batch

/-- Every event of the topic, each once. -/
def Owner.rawEvents
    (deployment : Deployment Sketch World Value)
    (owner : Owner Sketch World Value) : List RawEvent :=
  (owner.broker.log.mapIdx fun partition values =>
    (values.mapIdx fun offset value =>
      deployment.eventsOf ⟨partition, offset, value⟩).flatten).flatten

/-- The event stands in the topic. -/
def Owner.Stands
    (deployment : Deployment Sketch World Value)
    (owner : Owner Sketch World Value) (item : RawEvent) : Prop :=
  ∃ record, owner.broker.record? item.partition item.offset = some record ∧
      item ∈ deployment.eventsOf record

theorem Owner.Stands.mem (stands : owner.Stands deployment item) :
    item ∈ owner.rawEvents deployment := by
  rcases stands with ⟨record, found, inside⟩
  rw [Broker.record?] at found
  split at found
  · cases found
  · rename_i values here
    rcases Option.map_eq_some_iff.mp found with ⟨value, present, rfl⟩
    rcases List.getElem?_eq_some_iff.mp here with ⟨partitionBound, rfl⟩
    rcases List.getElem?_eq_some_iff.mp present with ⟨bound, rfl⟩
    apply mem_flatten.mpr
    refine ⟨_, mem_mapIdx.mpr ⟨_, partitionBound, rfl⟩, ?_⟩
    apply mem_flatten.mpr
    exact ⟨_, mem_mapIdx.mpr ⟨_, bound, rfl⟩, inside⟩

theorem Owner.Stands.produce (stands : owner.Stands deployment item)
    (partition : Nat) (value : Value) :
    { owner with broker := owner.broker.produce partition value }.Stands
      deployment item := by
  rcases stands with ⟨record, found, inside⟩
  exact ⟨record, Broker.record?_produce partition value found, inside⟩

theorem eventsIn_place {record : Record Value} {batch : Batch}
    (member : item ∈ eventsIn record batch) :
    item.partition = record.partition ∧ item.offset = record.offset := by
  rcases mem_mapIdx.mp member with ⟨index, bound, rfl⟩
  exact ⟨rfl, rfl⟩

theorem eventsIn_nodup (record : Record Value) (batch : Batch) :
    (eventsIn record batch).Nodup := by
  apply Nodup.of_map RawEvent.index
  have indices : (eventsIn record batch).map RawEvent.index =
      List.range batch.events.length := by
    apply ext_getElem
    · simp [eventsIn]
    · intro position _ _
      simp [eventsIn]
  rw [indices]
  exact nodup_range

/-! ## Where the owner stands -/

theorem accepted_of_boot {now : Time} {world : World}
    (booted : Owner.boot deployment now world = some process) :
    process.ledger.accepted = [] := by
  rw [Owner.boot] at booted
  split at booted
  · cases booted
  · cases booted
    rfl

/-- The living process has worked up to `frontier`; none counts twice. -/
structure Owner.Replays
    (deployment : Deployment Sketch World Value)
    (frontier : Nat → Nat) (owner : Owner Sketch World Value) : Prop where
  follows : owner.consumer.Follows owner.broker frontier
  counted : ∀ item ∈ owner.process.ledger.accepted,
    item.offset < frontier item.partition
  known : ∀ process ∈ owner.processes, process.ledger.accepted.Nodup ∧
    ∀ item ∈ process.ledger.accepted, owner.Stands deployment item

namespace Owner.Replays

variable {after : Owner Sketch World Value}
variable {frontier : Nat → Nat} {consumer : Consumer Value}

section Replays

variable (replays : owner.Replays deployment frontier)
include replays

/-- The consumer and the process move without finishing a record. -/
theorem stay (follows : consumer.Follows owner.broker frontier)
    (accepted : process.ledger.accepted = owner.process.ledger.accepted) :
    { owner with
      consumer := consumer
      process := process }.Replays deployment frontier where
  follows := follows
  counted := by
    rw [accepted]
    exact replays.counted
  known := by
    refine forall_mem_cons.mpr ?_
    rw [accepted]
    exact forall_mem_cons.mp replays.known

/-- The record in progress is finished, with what the process counted of it. -/
theorem finish {record : Record Value} {rest : List (Record Value)}
    {items : List RawEvent}
    (continues : owner.consumer.stage.continues = true)
    (ahead : owner.consumer.stage.ahead = record :: rest)
    (position : consumer.position = owner.consumer.position)
    (stage : consumer.stage =
      .visit (owner.consumer.stage.handled ++ [record]) rest)
    (accepted : process.ledger.accepted =
      owner.process.ledger.accepted ++ items)
    (events : items.Sublist (deployment.eventsOf record)) :
    { owner with
      consumer := consumer
      process := process }.Replays deployment
        (Kafka.past record frontier) := by
  rcases replays.follows.next_record continues ahead with ⟨place, found, _⟩
  have placed : ∀ item ∈ items,
      item.partition = record.partition ∧ item.offset = record.offset := by
    intro item member
    have inside := events.subset member
    rw [Deployment.eventsOf] at inside
    split at inside
    · exact absurd inside not_mem_nil
    · exact eventsIn_place inside
  rcases forall_mem_cons.mp replays.known with ⟨⟨distinct, known⟩, past⟩
  constructor
  · exact replays.follows.finish continues ahead position stage
  · dsimp only
    rw [accepted]
    refine forall_mem_append.mpr ⟨?_, ?_⟩
    · intro item before
      exact lt_of_lt_of_le (replays.counted item before)
        (le_past place item.partition)
    · intro item now
      rcases placed item now with ⟨partition, offset⟩
      rw [partition, offset, Kafka.past, Function.update_self]
      exact Nat.lt_succ_self _
  · refine forall_mem_cons.mpr ⟨?_, past⟩
    rw [accepted, nodup_append]
    refine ⟨⟨distinct, ?_, ?_⟩, forall_mem_append.mpr ⟨known, ?_⟩⟩
    · apply events.nodup
      rw [Deployment.eventsOf]
      split
      · exact nodup_nil
      · exact eventsIn_nodup _ _
    · rintro item before _ now rfl
      have upper := replays.counted item before
      rcases placed item now with ⟨partition, offset⟩
      rw [partition, offset, place] at upper
      exact absurd upper (lt_irrefl _)
    · intro item now
      rcases placed item now with ⟨partition, offset⟩
      refine ⟨record, ?_, events.subset now⟩
      rw [partition, offset]
      exact found

theorem produce (partition : Nat) (value : Value) :
    { owner with
      broker := owner.broker.produce partition value }.Replays deployment
        frontier :=
  { replays with
    follows := replays.follows.produce partition value
    known := fun process member => ⟨(replays.known process member).1,
      fun item inside => ((replays.known process member).2 item
        inside).produce partition value⟩ }

theorem handle (reliable : deployment.ops.Reliable)
    (step : owner.handle deployment = some after) :
    ∃ frontier', after.Replays deployment frontier' := by
  rw [Owner.handle] at step
  split at step
  · rename_i record attempt rest handled stage
    split at step
    · rcases Option.map_eq_some_iff.mp step with ⟨consumer, moved, rfl⟩
      refine ⟨frontier, replays.stay ?_ rfl⟩
      exact replays.follows.retry moved (by simp)
    · rename_i batch decoded
      rcases Option.map_eq_some_iff.mp step with ⟨consumer, moved, rfl⟩
      by_cases succeeded : (owner.process.service.handleItems
          deployment.ops RawEvent.event owner.consumer.context
          (eventsIn record batch)).2.2 = none
      · rcases Consumer.handle_cases moved with
          ⟨other, _, _, _, same, position, ⟨_, visited⟩ | ⟨failed, _⟩⟩
        · rw [stage] at same
          cases same
          have ahead : owner.consumer.stage.ahead = record :: rest := by
            rw [stage]
            rfl
          refine ⟨_, replays.finish (by rw [stage]; rfl) ahead position
            ?_ rfl ?_⟩
          · rw [visited, stage]
            rfl
          · rw [Deployment.eventsOf, decoded]
            exact Service.handleItems_sublist _ _ _ _ _
        · exact absurd succeeded failed
      · refine ⟨frontier, replays.stay ?_ ?_⟩
        · exact replays.follows.retry moved succeeded
        · simp only [Process.handle, Service.handleItems_failed reliable
            _ _ _ _ succeeded, Ledger.count_nil]
  · cases step

theorem bury {outcome : Outcome}
    (moved : owner.consumer.bury outcome = some consumer) :
    ∃ frontier', { owner with consumer := consumer }.Replays deployment
      frontier' := by
  rcases Consumer.bury_cases moved with
    ⟨record, last, rest, handled, stage, position,
      ⟨_, _, visited⟩ | ⟨fault, failed⟩⟩
  · have ahead : owner.consumer.stage.ahead = record :: rest := by
      rw [stage]
      rfl
    refine ⟨_, replays.finish (by rw [stage]; rfl) ahead position
      ?_ (append_nil _).symm (nil_sublist _)⟩
    rw [visited, stage]
    rfl
  · refine ⟨frontier, replays.stay ?_ rfl⟩
    apply replays.follows.fail fault
    rw [failed, stage]
    rfl

theorem commit
    {outcome : Outcome} (step : owner.commit outcome = some after) :
    after.Replays deployment frontier := by
  rw [Owner.commit] at step
  split at step
  · rcases Option.map_eq_some_iff.mp step with ⟨consumer, moved, rfl⟩
    split
    · exact { replays with follows := replays.follows.commit moved }
    · exact replays.stay (replays.follows.commit moved) rfl
  · cases step

/-- The next process resumes at the committed offsets. -/
theorem crash {now : Time} {world : World}
    (step : owner.crash deployment now world = some after) :
    after.Replays deployment owner.broker.committed := by
  rcases Option.map_eq_some_iff.mp step with ⟨process, booted, rfl⟩
  have empty := accepted_of_boot booted
  constructor
  · exact Consumer.follows_join _ _
  · rw [empty]
    exact forall_mem_nil _
  · refine forall_mem_cons.mpr ⟨?_, replays.known⟩
    rw [empty]
    exact ⟨nodup_nil, forall_mem_nil _⟩

theorem step (reliable : deployment.ops.Reliable)
    (step : owner.step deployment turn = some after) :
    ∃ frontier', after.Replays deployment frontier' := by
  cases turn with
  | produce partition value =>
    cases step
    exact ⟨frontier, replays.produce partition value⟩
  | poll fetched =>
    rcases Option.map_eq_some_iff.mp step with ⟨consumer, moved, rfl⟩
    exact ⟨frontier, replays.stay (replays.follows.poll moved) rfl⟩
  | handle => exact replays.handle reliable step
  | bury outcome =>
    rcases Option.map_eq_some_iff.mp step with ⟨consumer, moved, rfl⟩
    exact replays.bury moved
  | commit outcome => exact ⟨frontier, replays.commit step⟩
  | cancel fault =>
    rcases Option.map_eq_some_iff.mp step with ⟨consumer, moved, rfl⟩
    rw [Consumer.cancel_eq moved]
    exact ⟨frontier, replays.stay ⟨replays.follows.ahead,
      replays.follows.present, replays.follows.handled⟩ rfl⟩
  | emit call =>
    rcases Option.map_eq_some_iff.mp step with ⟨process, moved, rfl⟩
    refine ⟨frontier, replays.stay replays.follows ?_⟩
    apply accepted_step moved
    intro context items same
    cases call <;> cases same
  | deliver index =>
    rcases Option.map_eq_some_iff.mp step with ⟨window, _, rfl⟩
    exact ⟨frontier, { replays with }⟩
  | crash now world => exact ⟨_, replays.crash step⟩

end Replays

end Owner.Replays

theorem replays_of_reachable (reliable : deployment.ops.Reliable)
    (reachable : (ownerMachine deployment).Reachable owner) :
    ∃ frontier, owner.Replays deployment frontier := by
  apply reachable.invariant
  · rintro _ ⟨log, now, world, process, booted, rfl⟩
    have empty := accepted_of_boot booted
    refine ⟨fun _ => 0, Consumer.follows_join _ _, ?_, ?_⟩
    · rw [Owner.first, empty]
      exact forall_mem_nil _
    · refine forall_mem_singleton.mpr ?_
      rw [Owner.first, empty]
      exact ⟨nodup_nil, forall_mem_nil _⟩
  · rintro before turn after _ ⟨frontier, replays⟩ step
    exact replays.step reliable step

/-! ## The store -/

/-- The store has received windows of the window topic, and nothing else. -/
structure Owner.Fed (owner : Owner Sketch World Value) : Prop where
  store_eq : owner.store =
    Memory.replay (owner.delivered.map Call.applyWindow)
  delivered_sent : owner.delivered ⊆ owner.sent

theorem Owner.sent_subset {after : Owner Sketch World Value}
    (step : owner.step deployment turn = some after) :
    owner.sent ⊆ after.sent := by
  intro window member
  rcases mem_flatMap.mp member with ⟨process, known, sent⟩
  apply mem_flatMap.mpr
  cases Owner.turned step with
  | pass | commit | deliver => exact ⟨process, known, sent⟩
  | move consumer moved =>
    rcases mem_cons.mp known with rfl | older
    · exact ⟨_, mem_cons_self, Process.sent_subset moved sent⟩
    · exact ⟨process, mem_cons_of_mem _ older, sent⟩
  | crash => exact ⟨process, mem_cons_of_mem _ known, sent⟩

theorem fed_of_reachable
    (reachable : (ownerMachine deployment).Reachable owner) : owner.Fed := by
  apply reachable.invariant
  · rintro _ ⟨log, now, world, process, _, rfl⟩
    exact ⟨rfl, nil_subset _⟩
  · intro before turn after _ fed step
    have grows := Owner.sent_subset step
    cases Owner.turned step with
    | pass | move | commit | crash =>
      exact ⟨fed.store_eq, List.Subset.trans fed.delivered_sent grows⟩
    | deliver sent =>
      constructor
      · rw [map_append, map_singleton, Memory.replay_concat, ← fed.store_eq]
        rfl
      · exact forall_mem_concat (fun _ old => grows (fed.delivered_sent old))
          (grows sent)

/-- The emissions of a process that the store was given for a device. -/
def Owner.appliedEntries
    (key : String) (owner : Owner Sketch World Value)
    (process : Process Sketch World RawEvent) :
    List (AggregateWindow × List RawEvent) :=
  process.ledger.emitted.filter fun entry =>
    entry.1 ∈ owner.delivered ∧ keyOf entry.1 = key

/-- The events of a device that were applied from windows of a process. -/
def Owner.applied
    (key : String) (owner : Owner Sketch World Value)
    (process : Process Sketch World RawEvent) : List RawEvent :=
  (owner.appliedEntries key process).flatMap Prod.snd

/-- No two windows that the processes emitted share an identity. -/
def Owner.IdentitiesDistinct (owner : Owner Sketch World Value) : Prop :=
  ((owner.processes.flatMap fun process => process.ledger.windows).map
    AggregateWindow.identity).Nodup

/-- The distinct emissions that a device has received. -/
def Owner.received
    (key : String) (owner : Owner Sketch World Value) :
    List AggregateWindow :=
  firstBy AggregateWindow.identity ∅
    (owner.delivered.filter fun window => keyOf window = key)

/-- The raw events of one device, each once. -/
def Owner.rawEventsOf
    (deployment : Deployment Sketch World Value) (key : String)
    (owner : Owner Sketch World Value) : List RawEvent :=
  ((owner.rawEvents deployment).filter fun item =>
    deviceKey item.event.userID item.event.deviceID = key).dedup

section Applied

variable {key : String}
variable {seed : Int64}

theorem Owner.appliedEntries_sublist :
    (owner.appliedEntries key process).Sublist process.ledger.emitted :=
  filter_sublist

/-- What was applied from a process is what it counted, each event once. -/
theorem Owner.Replays.applied
    {frontier : Nat → Nat} (replays : owner.Replays deployment frontier)
    (accounted :
      process.Accounted RawEvent.event deployment.publisher seed)
    (member : process ∈ owner.processes) :
    (owner.applied key process).Nodup ∧
      owner.applied key process ⊆ owner.rawEventsOf deployment key := by
  have counted : (owner.applied key process).Subperm
      process.ledger.accepted :=
    ((Owner.appliedEntries_sublist.flatMap Prod.snd).trans
      (sublist_append_right _ _)).subperm.trans
        accounted.tracks.accepted_perm.symm.subperm
  constructor
  · rcases counted with ⟨chosen, same, inside⟩
    exact same.nodup (inside.nodup (replays.known process member).1)
  · intro item inside
    have stands :=
      (replays.known process member).2 item (counted.subset inside)
    rcases mem_flatMap.mp inside with ⟨entry, given, within⟩
    rcases mem_filter.mp given with ⟨emitted, mine⟩
    have named := congrArg WindowKey.correlation
      (accounted.tracks.emitted_key entry emitted item within)
    apply mem_dedup.mpr
    refine mem_filter.mpr ⟨stands.mem, decide_eq_true ?_⟩
    rw [← (of_decide_eq_true mine).2, keyOf]
    exact congrArg (fun key => deviceKey key.userID key.deviceID) named

/-- Every window that the store was given is an emission of some process. -/
theorem Owner.received_subset
    (reachable : (ownerMachine deployment).Reachable owner) :
    owner.received key ⊆
      (owner.processes.flatMap (owner.appliedEntries key)).map Prod.fst := by
  intro window member
  have given := mem_filter.mp ((firstBy_sublist _ _).subset member)
  rcases mem_flatMap.mp ((fed_of_reachable reachable).delivered_sent given.1)
    with ⟨process, known, sent⟩
  rcases processes_accounted reachable process known with ⟨seed, accounted⟩
  rcases mem_map.mp (accounted.sent_emitted window sent)
    with ⟨entry, emitted, rfl⟩
  apply mem_map_of_mem
  refine mem_flatMap.mpr ⟨process, known, mem_filter.mpr ⟨emitted, ?_⟩⟩
  exact decide_eq_true ⟨given.1, of_decide_eq_true given.2⟩

/-- With distinct identities the store counts every such emission. -/
theorem Owner.received_perm
    (reachable : (ownerMachine deployment).Reachable owner)
    (distinct : owner.IdentitiesDistinct) :
    (owner.received key).Perm
      ((owner.processes.flatMap (owner.appliedEntries key)).map
        Prod.fst) := by
  have fewer : ((owner.processes.flatMap (owner.appliedEntries key)).map
      Prod.fst).Sublist
        (owner.processes.flatMap fun process => process.ledger.windows) := by
    rw [map_flatMap]
    exact Sublist.flatMap_right _ fun process _ =>
      Owner.appliedEntries_sublist.map Prod.fst
  have named := (fewer.map AggregateWindow.identity).nodup distinct
  apply (perm_ext_iff_of_nodup (.of_map _ (firstBy_nodup _ _))
    (.of_map _ named)).mpr
  intro window
  refine ⟨fun member => received_subset reachable member, ?_⟩
  intro member
  rcases mem_map.mp member with ⟨entry, inside, rfl⟩
  rcases mem_flatMap.mp inside with ⟨process, _, given⟩
  have mine := of_decide_eq_true (mem_filter.mp given).2
  have listed : entry.1 ∈
      owner.delivered.filter fun window => keyOf window = key :=
    mem_filter.mpr ⟨mine.1, decide_eq_true mine.2⟩
  rcases exists_mem_firstBy listed
    (Finset.notMem_empty entry.1.identity)
    with ⟨kept, keptMember, same⟩
  have found := received_subset reachable keptMember
  rw [← inj_on_of_nodup_map named found member same]
  exact keptMember

theorem Owner.sum_tally_applied
    (reachable : (ownerMachine deployment).Reachable owner)
    {entries : List (AggregateWindow × List RawEvent)}
    (inside : entries ⊆
      owner.processes.flatMap (owner.appliedEntries key))
    (same : (owner.received key).Perm (entries.map Prod.fst)) :
    (owner.store.deviceTally key).count =
      Int64.ofNat (entries.flatMap Prod.snd).length := by
  have reports : ∀ entry ∈ entries,
      entry.1.tally = tallyOf RawEvent.event entry.2 := by
    intro entry member
    rcases mem_flatMap.mp (inside member) with ⟨process, known, given⟩
    rcases processes_accounted reachable process known with ⟨seed, accounted⟩
    exact accounted.tracks.emitted_tally entry (mem_filter.mp given).1
  rw [(fed_of_reachable reachable).store_eq, deviceTally_replay_windows]
  have sums := (same.map AggregateWindow.tally).sum_eq
  rw [Tracks.sum_tally_emitted reports, tallyOf] at sums
  exact (congrArg Tally.count sums).trans (sum_tally_count _ _)

end Applied

/-- The record is counted, published and stored once by each process. -/
def replayedTurns : List (Turn Unit Batch) :=
  [.poll (.records [0]), .handle, .emit .emitAll,
    .emit (.attempt 0 .delivered), .deliver 0, .crash ⟨2000⟩ (),
    .poll (.records [0]), .handle, .emit .emitAll,
    .emit (.attempt 0 .delivered), .deliver 0]

def replayedOwner : Owner Unit Unit Batch :=
  ((ownerMachine sampleDeployment).run sampleOwner replayedTurns).get
    (by decide +kernel)

theorem replayedOwner_reachable :
    (ownerMachine sampleDeployment).Reachable replayedOwner :=
  (Machine.Reachable.start sampleOwner_initial).run (Option.some_get _).symm

theorem blankSketch_reliable : blankSketch.Reliable where
  newSketch world := ⟨(), world, rfl⟩
  quantile _ _ world _ _ := ⟨0, world, rfl⟩

end Ironclaw.App
