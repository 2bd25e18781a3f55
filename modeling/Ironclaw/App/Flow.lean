import Ironclaw.Aggregate.Ceiling
import Ironclaw.App.Runtime
import Ironclaw.Bus.Progress
import Ironclaw.Pipeline.Sending
import Ironclaw.Store.Total

/-!
# Batches and windows on their way

The components of the runtime, two by two.  `Fleet` ties the agents to the bus
of batches: a call of `Send` that has not been answered is that of one agent,
and the batches of the others are those that the agents count as sent.
`Intake` ties this bus to the aggregator: every event of a batch that was
handled was counted or shed.  `Output` ties the aggregator to the bus of
windows and to the store, which has applied what this bus delivered.
-/

namespace Ironclaw.App

open Lib Domain Aggregate Ironclaw.Aggregator Pipeline Store List Slots
open App.Runtime Bus

variable {bus : Bus.Settings}
variable {result : Option Fault} {index : Nat} {batch : Batch}
variable {ops : SketchOps Sketch Unit}

/-! ## Agents -/

namespace Agent

variable {agent : Agent}

/-- What an agent does unseen by the bus. -/
structure Keeps (agent after : Agent) : Prop where
  sound : agent.batcher.Sound → after.batcher.Sound
  sent : after.batcher.sent = agent.batcher.sent
  sending : ∀ batch, agent.batcher.sender = .sending batch →
    after.batcher.sender = .sending batch
  returned : agent.returned = true → after.returned = true
  call : after.call = agent.call

theorem returned_iff (agent : Agent) : agent.returned = true ↔
      ∃ result, agent.batcher.collector = .returned result := by
  rw [returned]
  constructor
  · intro ended
    split at ended
    · next result stage => exact ⟨result, stage⟩
    · cases ended
  · rintro ⟨result, stage⟩
    rw [stage]

theorem keeps_source (agent : Agent) (source : SyntheticSource) :
    Keeps agent { agent with source := source } :=
  ⟨fun sound => sound, rfl, fun _ held => held, fun ended => ended, rfl⟩

section Sound

variable (sound : agent.batcher.Sound)
include sound

theorem keeps_carry
    {after : Agent} {source : SyntheticSource} {action : Pipeline.Action}
    (other : action.isSettle = false)
    (step : agent.carry source (agent.batcher.step action) = some after) :
    Keeps agent after := by
  rcases Option.map_eq_some_iff.mp step with ⟨batcher, stepped, rfl⟩
  have kept := sound.keeps stepped other
  refine ⟨fun _ => sound.step stepped, kept.sent, kept.sending, ?_, rfl⟩
  rw [returned_iff, returned_iff]
  rintro ⟨result, ended⟩
  exact ⟨result, kept.returned result ended⟩

theorem keeps_act {after : Agent} {action : Action}
    (step : agent.act action = some after) : Keeps agent after := by
  cases action with
  | launch =>
    simp only [act] at step
    split at step
    · rename_i fault _
      exact @keeps_carry _ sound _ _ (.run (.refused fault)) rfl step
    · exact @keeps_carry _ sound _ _ (.run .started) rfl step
  | offer | wake | halt =>
    rcases Option.map_eq_some_iff.mp step with ⟨source, _, rfl⟩
    exact keeps_source agent source
  | receive now =>
    simp only [act] at step
    split at step
    · cases step
    · rename_i event source _
      exact @keeps_carry _ sound _ _ (.receive event now) rfl step
  | exhaust now =>
    simp only [act] at step
    split at step
    · exact @keeps_carry _ sound _ _ (.exhaust now) rfl step
    · cases step
  | tick now => exact @keeps_carry _ sound _ _ (.tick now) rfl step
  | enqueue => exact @keeps_carry _ sound _ _ .enqueue rfl step
  | record => exact @keeps_carry _ sound _ _ .record rfl step
  | close => exact @keeps_carry _ sound _ _ .close rfl step
  | wait => exact @keeps_carry _ sound _ _ .wait rfl step
  | take => exact @keeps_carry _ sound _ _ .take rfl step

theorem settle_cases
    {after : Agent} (step : agent.settle result = some after) :
    ∃ batch, agent.batcher.sender = .sending batch ∧
      after.batcher.Sound ∧ after.call = none ∧
      after.returned = agent.returned ∧
      after.batcher.sent = agent.batcher.sent ++
        if result.isNone then [batch] else [] := by
  rcases Option.map_eq_some_iff.mp step with ⟨batcher, settled, rfl⟩
  rcases Batcher.settle_cases settled with ⟨batch, held, _, stage, sent⟩
  refine ⟨batch, held, sound.settle settled, rfl, ?_, sent⟩
  rw [returned, returned, stage]

theorem not_sending_of_returned
    (ended : agent.returned = true) (batch : Batch) :
    agent.batcher.sender ≠ .sending batch := by
  intro held
  rcases (returned_iff agent).mp ended with ⟨result, stage⟩
  have quiet := sound.quiet (by rw [stage]; rfl)
  rw [held] at quiet
  cases quiet.2

end Sound

end Agent

/-! ## Steps of a bus on its own -/

/-- A step that neither the callers of a bus nor its handler see. -/
structure Works {Value : Type} (channel after : Bus bus Value) : Prop where
  sound : after.Sound
  smooth : after.Smooth
  values : after.values = channel.values
  handled : after.handled = channel.handled
  posted : ∀ {awaited : Nat → Prop} {sent : Multiset Value},
    Bus.Posted awaited sent channel → Bus.Posted awaited sent after
  closed : channel.closer = .done → after.closer = .done
  ended : channel.Ended → after.Ended

section Works

variable {Value : Type} {channel after : Bus bus Value}
variable {action : Bus.Action bus Value}

theorem works_join (sound : channel.Sound) (smooth : channel.Smooth)
    {partition : Fin bus.partitions}
    (step : Runtime.joinOnce partition channel = some after) :
    Works channel after := by
  rw [joinOnce] at step
  split at step
  · cases step
  · rename_i unserved
    cases step
    refine ⟨sound.join partition, smooth.join partition, rfl,
      handled_join partition, fun posted => posted.of_calls rfl,
      fun closed => closed, ?_⟩
    intro ended
    rcases ended.served partition with ⟨consumer, member, serves⟩
    exact absurd (any_eq_true.mpr
      ⟨consumer, member, decide_eq_true serves⟩) unserved

theorem works_progress (sound : channel.Sound) (smooth : channel.Smooth)
    (internal : action.isInternal = true)
    (step : channel.step action = some after) : Works channel after := by
  have progress := progress smooth internal step
  exact ⟨sound.step step, progress.smooth smooth, progress.values,
    progress.handled, fun posted => posted.progress progress,
    progress.done,
    fun ended => ended.of_consumers (progress.consumers_of_ended ended)⟩

theorem move_cases (step : Runtime.move action channel = some after) :
    (∃ partition, Runtime.joinOnce partition channel = some after) ∨
      (action.isInternal = true ∧ channel.step action = some after) := by
  cases action with
  | join partition => exact Or.inl ⟨partition, step⟩
  | send | expire | close | cancel | quit | handle => cases step
  | _ => exact Or.inr ⟨rfl, step⟩

section Sound

variable (sound : channel.Sound) (smooth : channel.Smooth)
include sound smooth

theorem works_move (step : Runtime.move action channel = some after) :
    Works channel after := by
  rcases move_cases step with ⟨partition, joined⟩ | ⟨internal, moved⟩
  · exact works_join sound smooth joined
  · exact works_progress sound smooth internal moved

theorem works_close (step : channel.close = some after) :
    Works channel after := by
  rcases frame_close step with ⟨calls, consumers, _, _⟩
  refine ⟨sound.close step, smooth.close step,
    congrArg (map Bus.SendCall.value) calls, handled_close step,
    fun posted => posted.of_calls calls, ?_,
    fun ended => ended.of_consumers consumers⟩
  intro closed
  rw [close, closed] at step
  cases step

theorem works_expire
    {id : Nat} {fault : Fault} (step : channel.expire id fault = some after) :
    Works channel after := by
  have expired := sound.step
    (show channel.step (.expire id fault) = some after from step)
  rw [Bus.expire] at step
  split at step
  · rename_i key value found
    cases step
    exact ⟨expired, smooth.frame rfl rfl, Bus.values_set found rfl, rfl,
      fun posted => posted.advance found rfl rfl, fun closed => closed,
      fun ended => ended.of_consumers rfl⟩
  · cases step

end Sound

theorem unclosed_move (smooth : channel.Smooth)
    (step : Runtime.move action channel = some after)
    (unclosed : channel.Unclosed) : after.Unclosed := by
  rcases move_cases step with ⟨partition, joined⟩ | ⟨internal, moved⟩
  · rw [joinOnce] at joined
    split at joined
    · cases joined
    · cases joined
      exact { unclosed with }
  · exact (progress smooth internal moved).unclosed unclosed

theorem call_of_resultOf {call : Option Nat}
    (returned : call.bind (Runtime.resultOf channel) = some result) :
    ∃ id key value, call = some id ∧
      channel.calls[id]? = some ⟨key, value, .returned result⟩ := by
  rcases Option.bind_eq_some_iff.mp returned with ⟨id, waits, answered⟩
  rw [resultOf] at answered
  split at answered
  · rename_i key value result found
    cases answered
    exact ⟨id, key, value, waits, found⟩
  · cases answered

theorem attempting_cases {value : Value}
    (attempts : Runtime.attempting channel index = some value) :
    ∃ consumer parcel, channel.consumers[index]? = some consumer ∧
      consumer.stage.attempting = some parcel ∧ parcel.value = value := by
  rw [attempting] at attempts
  split at attempts
  · rename_i parcel attempt found
    exact ⟨_, parcel, found, rfl, Option.some.inj attempts⟩
  · cases attempts

theorem not_attempting_of_ended
    (ended : channel.Ended) (index : Nat) (value : Value) :
    attempting channel index ≠ some value := by
  intro attempts
  rcases attempting_cases attempts with ⟨consumer, parcel, found, calling, _⟩
  have running := Bus.Stage.running_of_parcel
    (Bus.Stage.parcel_of_attempting calling)
  rw [ended.returned consumer (mem_of_getElem? found)] at running
  cases running

end Works

/-! ## The agents and the bus of batches -/

def Agent.Awaits (agent : Agent) (id : Nat) : Prop :=
  agent.call = some id

/-- The batches that were taken from the agents. -/
def sentBy (agents : List Agent) : Multiset Batch :=
  Slots.total (fun _ agent => (agent.batcher.sent : Multiset Batch)) agents

/--
The agents keep their books, and each call of `Send` that has not been
answered is that of one agent.  What the channels took by the answered calls
is what the agents count as sent.
-/
structure Fleet
    (agents : List Agent) (batches : Bus bus Batch)
    (awaited : Nat → Prop) : Prop where
  sound : ∀ (index : Nat) (agent : Agent),
    agents[index]? = some agent → agent.batcher.Sound
  held : Slots.Held agents Agent.Awaits awaited
  linked : ∀ (index id : Nat) (agent : Agent),
    agents[index]? = some agent → agent.Awaits id →
      ∃ batch, agent.batcher.sender = .sending batch ∧
        batches.values[id]? = some batch
  posted : Bus.Posted awaited (sentBy agents) batches

namespace Fleet

variable {agents : List Agent} {batches after : Bus bus Batch}
variable {awaited : Nat → Prop} {agent next : Agent}

section Fleet

variable (fleet : Fleet agents batches awaited)
include fleet

/-- A step of one agent that the bus does not see. -/
theorem keep (found : agents[index]? = some agent) (kept : agent.Keeps next) :
    Fleet (agents.set index next) batches awaited where
  sound position other present := by
    rcases of_set present with ⟨_, rfl⟩ | ⟨_, there⟩
    · exact kept.sound (fleet.sound index agent found)
    · exact fleet.sound position other there
  held := by
    apply fleet.held.set_same found
    intro id
    rw [Agent.Awaits, kept.call]
    rfl
  linked position id other present waits := by
    rcases of_set present with ⟨_, rfl⟩ | ⟨_, there⟩
    · rw [Agent.Awaits, kept.call] at waits
      rcases fleet.linked index id agent found waits with
        ⟨batch, sending, carried⟩
      exact ⟨batch, kept.sending batch sending, carried⟩
    · exact fleet.linked position id other there waits
  posted := by
    have same : sentBy (agents.set index next) = sentBy agents := by
      apply total_set_same _ found
      rw [kept.sent]
    rw [same]
    exact fleet.posted

theorem move (works : Works batches after) : Fleet agents after awaited :=
  { fleet with
    linked := by
      rw [works.values]
      exact fleet.linked
    posted := works.posted fleet.posted }

theorem handle (step : batches.handle index none = some after) :
    Fleet agents after awaited := by
  rcases handle_cases step with ⟨_, _, _, _, _, _, rfl⟩
  exact { fleet with posted := fleet.posted.of_calls rfl }

/-- An agent without a call starts one. -/
theorem send (found : agents[index]? = some agent)
    (sending : agent.batcher.sender = .sending batch)
    (free : agent.call = none) (key : String) :
    Fleet (agents.set index { agent with call := some batches.calls.length })
      (batches.send key batch)
      (fun id => id = batches.calls.length ∨ awaited id) where
  sound position other present := by
    rcases of_set present with ⟨_, rfl⟩ | ⟨_, there⟩
    · exact fleet.sound index agent found
    · exact fleet.sound position other there
  held := by
    have idle : ∀ id, ¬agent.Awaits id := by
      intro id waits
      cases free.symm.trans waits
    apply fleet.held.set found
    · rintro id ⟨⟩
      exact Or.inr fun earlier => lt_irrefl _ (fleet.posted.bounded _ earlier)
    · intro id
      constructor
      · rintro (rfl | earlier)
        · exact Or.inl rfl
        · exact Or.inr ⟨earlier, idle id⟩
      · rintro (started | ⟨earlier, _⟩)
        · exact Or.inl (Option.some.inj started).symm
        · exact Or.inr earlier
  linked position id other present waits := by
    rw [values_send]
    rcases of_set present with ⟨_, rfl⟩ | ⟨_, there⟩
    · cases waits
      refine ⟨batch, sending, ?_⟩
      have length : batches.calls.length = batches.values.length :=
        (length_map _).symm
      rw [length, getElem?_concat_length]
    · rcases fleet.linked position id other there waits with
        ⟨held, holding, carried⟩
      exact ⟨held, holding, concat_iff.mpr (.inl carried)⟩
  posted := by
    have same : sentBy (agents.set index
        { agent with call := some batches.calls.length }) =
          sentBy agents :=
      total_set_same _ found rfl
    rw [same]
    exact fleet.posted.send key batch fun _ => Iff.rfl

/-- An agent counts a batch that the ingest refuses as failed. -/
theorem refuse (found : agents[index]? = some agent) {fault : Fault}
    (free : agent.call = none)
    (step : agent.settle (some fault) = some next) :
    Fleet (agents.set index next) batches awaited := by
  rcases Agent.settle_cases (fleet.sound index agent found) step with
    ⟨batch, _, sound, idle, _, sent⟩
  constructor
  · intro position other present
    rcases of_set present with ⟨_, rfl⟩ | ⟨_, there⟩
    · exact sound
    · exact fleet.sound position other there
  · apply fleet.held.set_same found
    intro id
    rw [Agent.Awaits, Agent.Awaits, idle, free]
  · intro position id other present waits
    rcases of_set present with ⟨_, rfl⟩ | ⟨_, there⟩
    · cases idle.symm.trans waits
    · exact fleet.linked position id other there waits
  · have same : sentBy (agents.set index next) = sentBy agents := by
      apply total_set_same _ found
      rw [sent]
      exact congrArg _ (append_nil _)
    rw [same]
    exact fleet.posted

/-- An agent gets the answer of its call. -/
theorem answer (found : agents[index]? = some agent) {id : Nat} {key : String}
    {value : Batch} (waits : agent.call = some id)
    (returned : batches.calls[id]? = some ⟨key, value, .returned result⟩)
    (step : agent.settle result = some next) :
    Fleet (agents.set index next) batches
      (fun other => awaited other ∧ other ≠ id) := by
  rcases Agent.settle_cases (fleet.sound index agent found) step with
    ⟨batch, sending, sound, idle, _, sent⟩
  have waiting : awaited id :=
    (fleet.held.taken id).mpr ⟨index, agent, found, waits⟩
  have carried : value = batch := by
    rcases fleet.linked index id agent found waits with
      ⟨other, holding, there⟩
    rw [values, getElem?_map, returned] at there
    rw [sending] at holding
    cases holding
    exact Option.some.inj there
  constructor
  · intro position other present
    rcases of_set present with ⟨_, rfl⟩ | ⟨_, there⟩
    · exact sound
    · exact fleet.sound position other there
  · apply fleet.held.set found
    · intro other holds
      cases idle.symm.trans holds
    · intro other
      have own : agent.Awaits other ↔ other = id := by
        rw [Agent.Awaits, waits, Option.some.injEq]
        exact eq_comm
      have gives : ¬next.Awaits other := by
        intro holds
        cases idle.symm.trans holds
      rw [own]
      constructor
      · exact Or.inr
      · rintro (holds | kept)
        · exact absurd holds gives
        · exact kept
  · intro position other slot present holds
    rcases of_set present with ⟨_, rfl⟩ | ⟨_, there⟩
    · cases idle.symm.trans holds
    · exact fleet.linked position other slot there holds
  · have posted := fleet.posted.answer returned waiting fun _ => Iff.rfl
    have gained : sentBy (agents.set index next) =
        sentBy agents + if result.isNone then {value} else 0 := by
      have exchanged := total_set
        (fun _ agent => (agent.batcher.sent : Multiset Batch)) next found
      simp only [sent, ← Multiset.coe_add] at exchanged
      rw [add_comm (agent.batcher.sent : Multiset Batch),
        ← add_assoc] at exchanged
      have counted := add_right_cancel exchanged
      rw [sentBy, counted, carried]
      cases result with
      | none | some => rfl
    rw [gained]
    exact posted

end Fleet

end Fleet

/-! ## The bus of batches and the aggregator -/

/-- The sketches of an accuracy between 0 and 1 do not fail. -/
theorem sketches_reliable
    (formulas : Formulas) {accuracy : ℚ} (positive : 0 < accuracy)
    (small : accuracy < 1) : (sketches formulas accuracy).Reliable where
  newSketch world := by
    have fits : ¬(accuracy ≤ 0 ∨ 1 ≤ accuracy) := by
      rintro (low | high)
      · exact absurd positive (not_lt.mpr low)
      · exact absurd small (not_lt.mpr high)
    simp only [sketches, Sketch.new, if_neg fits]
    exact ⟨_, world, rfl⟩
  quantile rank sketch world nonneg atMost := by
    have fits : ¬(rank < 0 ∨ 1 < rank) := by
      rintro (low | high)
      · exact absurd low (not_lt.mpr nonneg)
      · exact absurd high (not_lt.mpr atMost)
    simp only [sketches, Sketch.quantile, if_neg fits]
    repeat' split
    all_goals exact ⟨_, world, rfl⟩

/-- The number of events in some batches. -/
def parcelEvents (parcels : Multiset (Bus.Parcel Batch)) : Nat :=
  (parcels.map fun parcel => parcel.value.events.length).sum

theorem parcelEvents_add (left right : Multiset (Bus.Parcel Batch)) :
    parcelEvents (left + right) = parcelEvents left + parcelEvents right := by
  rw [parcelEvents, Multiset.map_add, Multiset.sum_add]
  rfl

theorem parcelEvents_singleton (parcel : Bus.Parcel Batch) :
    parcelEvents {parcel} = parcel.value.events.length := by
  rw [parcelEvents, Multiset.map_singleton, Multiset.sum_singleton]

/-- A valid batch is counted and shed, event by event, without an error. -/
theorem handleItems_valid
    (reliable : ops.Reliable) (service : Service Sketch Unit)
    (valid : batch.validate = none) :
    (service.handleItems ops id none batch.events).2.2 = none ∧ ∃ lost,
        batch.events.length =
          (service.handleItems ops id none batch.events).2.1.length + lost ∧
        (service.handleItems ops id none batch.events).1.source.shed =
          service.source.shed + Int64.ofNat lost := by
  rcases service.handleItems_live ops id batch.events with ⟨source, outcome⟩
  have checked : (batch.events.map id).findSome? Event.validate = none := by
    rw [← Option.isNone_iff_eq_none, validate_findSome, all_eq_true]
    intro event member
    rw [(((Batch.validate_eq_none_iff batch).mp valid).2 event member).1]
    rfl
  rw [outcome, source, Aggregate.Aggregator.ingestBatchItems, checked]
  exact ⟨ingestItems_reliable reliable id batch.events _,
    ingestItems_shed reliable.newSketch id batch.events _⟩

/--
The loops hand each batch out once, and the handler counts or sheds each of
its events.
-/
structure Intake
    (batches : Bus bus Batch) (process : Process Sketch Unit Event) :
    Prop where
  sound : batches.Sound
  smooth : batches.Smooth
  valid : ∀ batch ∈ batches.values, batch.validate = none
  counted : ∃ lost, process.service.source.shed = Int64.ofNat lost ∧
      process.ledger.accepted.length + lost = parcelEvents batches.handled

namespace Intake

variable {batches after : Bus bus Batch}
variable {process next : Process Sketch Unit Event}

section Intake

variable (intake : Intake batches process)
include intake

theorem move (works : Works batches after) : Intake after process :=
  { works with
    valid := by
      rw [works.values]
      exact intake.valid
    counted := by
      rw [works.handled]
      exact intake.counted }

theorem send (key : String) (valid : batch.validate = none) :
    Intake (batches.send key batch) process where
  sound := intake.sound.send key batch
  smooth := intake.smooth.frame rfl rfl
  valid other member := by
    rw [values_send] at member
    rcases mem_append.mp member with earlier | last
    · exact intake.valid other earlier
    · rw [mem_singleton.mp last]
      exact valid
  counted := intake.counted

theorem emit (accepted : next.ledger.accepted = process.ledger.accepted)
    (shed : next.service.source.shed = process.service.source.shed) :
    Intake batches next :=
  { intake with
    counted := by
      rw [accepted, shed]
      exact intake.counted }

theorem valid_of_attempting
    (attempts : Runtime.attempting batches index = some batch) :
    batch.validate = none := by
  rcases attempting_cases attempts with
    ⟨consumer, parcel, found, calling, rfl⟩
  rcases intake.sound.call_of_attempting (mem_of_getElem? found)
    calling with ⟨call, member, same⟩
  apply intake.valid
  rw [← same]
  exact mem_map_of_mem member

end Intake

theorem handleBatch_succeeds
    (reliable : ops.Reliable) (intake : Intake batches process)
    (attempts : Runtime.attempting batches index = some batch) :
    (process.service.handleBatch ops none batch).2 = none :=
  (handleItems_valid reliable process.service
    (intake.valid_of_attempting attempts)).1

/-- The handler takes the batch of a loop. -/
theorem handle (reliable : ops.Reliable) (intake : Intake batches process)
    (attempts : Runtime.attempting batches index = some batch)
    (step : batches.handle index none = some after) :
    Intake after (process.handle ops id none batch.events) := by
  rcases handleItems_valid reliable process.service
    (intake.valid_of_attempting attempts) with ⟨_, lost, events, shed⟩
  rcases attempting_cases attempts with
    ⟨consumer, parcel, found, calling, carried⟩
  have values : after.values = batches.values := by
    rcases handle_cases step with ⟨_, _, _, _, _, _, rfl⟩
    rfl
  have sound : after.Sound := intake.sound.handle step
  refine ⟨sound, intake.smooth.handle step, ?_, ?_⟩
  · rw [values]
    exact intake.valid
  · rcases intake.counted with ⟨earlier, before, balance⟩
    refine ⟨earlier + lost, ?_, ?_⟩
    · rw [Int64.ofNat_add, ← before]
      exact shed
    · rw [handled_handle step found calling, parcelEvents_add,
        parcelEvents_singleton, carried, events, ← balance, Process.handle,
        Ledger.count]
      simp only [length_append]
      omega

end Intake

/-! ## The bus of windows and the store -/

/--
One publication is in progress at most, and a call of `Send` on the bus of
windows is that of its next window.  What the channels took by the answered
calls is what the aggregator counts as sent, and the store has applied what
the loops handed out.
-/
structure Output
    (process : Process Sketch Unit Event) (call : Option Nat)
    (windows : Bus bus AggregateWindow) (store : Memory) : Prop where
  sound : windows.Sound
  smooth : windows.Smooth
  linked : ∀ id, call = some id → ∃ publishing window rest,
    process.emits = [publishing] ∧ publishing.remaining = window :: rest ∧
      windows.values[id]? = some window
  posted : Bus.Posted (fun id => call = some id)
    (process.sent : Multiset AggregateWindow) windows
  applied : ∃ order : List AggregateWindow,
    store = Memory.replay (order.map Call.applyWindow) ∧
      (order : Multiset AggregateWindow) =
        windows.handled.map Bus.Parcel.value

theorem applyWindow_succeeds (store : Memory) (window : AggregateWindow) :
    (store.applyWindow none window).2 = none := by
  simp only [Memory.applyWindow]
  split
  · rfl
  · rfl

namespace Output

variable {process next : Process Sketch Unit Event} {call : Option Nat}
variable {windows after : Bus bus AggregateWindow} {store : Memory}

/-- A step of the bus that the aggregator and the store do not see. -/
theorem move (output : Output process call windows store)
    (works : Works windows after) : Output process call after store where
  sound := works.sound
  smooth := works.smooth
  linked := by
    rw [works.values]
    exact output.linked
  posted := works.posted output.posted
  applied := by
    rw [works.handled]
    exact output.applied

/-- A step of the aggregator that is no publication. -/
theorem keep (output : Output process call windows store)
    (emits : next.emits = process.emits) (sent : next.sent = process.sent) :
    Output next call windows store :=
  { output with
    linked := by
      rw [emits]
      exact output.linked
    posted := by
      rw [sent]
      exact output.posted }

theorem idle (output : Output process none windows store)
    (sent : next.sent = process.sent) :
    Output next none windows store :=
  { output with
    linked := by
      intro id waits
      cases waits
    posted := by
      rw [sent]
      exact output.posted }

/-- `PublishWindow` is called for the next window. -/
theorem publish
    (output : Output process none windows store) {publishing : Publishing}
    {window : AggregateWindow} {rest : List AggregateWindow}
    (emits : process.emits = [publishing])
    (first : publishing.remaining = window :: rest) (key : String) :
    Output process (some windows.calls.length) (windows.send key window)
      store where
  sound := output.sound.send key window
  smooth := output.smooth.frame rfl rfl
  linked id waits := by
    cases waits
    refine ⟨publishing, window, rest, emits, first, ?_⟩
    have length : windows.calls.length = windows.values.length :=
      (length_map _).symm
    rw [values_send, length, getElem?_concat_length]
  posted := by
    apply output.posted.send key window
    intro id
    rw [Option.some.injEq]
    constructor
    · exact fun same => Or.inl same.symm
    · rintro (same | impossible)
      · exact same.symm
      · cases impossible
  applied := output.applied

/-- `PublishWindow` returns. -/
theorem published
    (output : Output process call windows store) {id : Nat} {key : String}
    {value : AggregateWindow} (waits : call = some id)
    (returned : windows.calls[id]? = some ⟨key, value, .returned result⟩)
    (single : ∀ publishing ∈ process.emits, publishing.target = 0)
    (step : process.attempt Publisher.plain 0 (Runtime.outcomeOf result) =
      some next) :
    Output next none windows store := by
  rcases output.linked id waits with
    ⟨publishing, window, rest, emits, first, carried⟩
  have same : value = window := by
    rw [values, getElem?_map, returned] at carried
    exact Option.some.inj carried
  have target : publishing.target = 0 := by
    apply single
    rw [emits]
    exact mem_singleton_self publishing
  have sent : next.sent =
      process.sent ++ if result.isNone then [value] else [] := by
    rcases Process.attempt_cases step with
      ⟨other, head, tail, present, here, rfl⟩
    rw [emits] at present
    cases present
    rw [first] at here
    cases here
    simp only [target, same]
    cases result with
    | none => rfl
    | some fault => exact (append_nil _).symm
  constructor
  · exact output.sound
  · exact output.smooth
  · intro other none
    cases none
  · have posted := @Bus.Posted.answer _ _ _ _ _
      (fun other => (none : Option Nat) = some other) _ _ output.posted _ _
      returned waits (by
        intro other
        constructor
        · intro impossible
          cases impossible
        · rintro ⟨here, different⟩
          rw [waits] at here
          exact absurd (Option.some.inj here).symm different)
    rw [sent, ← Multiset.coe_add]
    cases result with
    | none | some => exact posted
  · exact output.applied

/-- The store applies the window of a loop. -/
theorem apply
    (output : Output process call windows store) {window : AggregateWindow}
    (attempts : Runtime.attempting windows index = some window)
    (step : windows.handle index (store.applyWindow none window).2 =
      some after) :
    Output process call after (store.applyWindow none window).1 := by
  rw [applyWindow_succeeds] at step
  rcases attempting_cases attempts with
    ⟨consumer, parcel, found, calling, carried⟩
  have calls : after.calls = windows.calls := by
    rcases handle_cases step with ⟨_, _, _, _, _, _, rfl⟩
    rfl
  rcases output.applied with ⟨order, replayed, same⟩
  constructor
  · exact output.sound.handle step
  · exact output.smooth.handle step
  · rw [values, calls]
    exact output.linked
  · exact output.posted.of_calls calls
  · refine ⟨order ++ [window], ?_, ?_⟩
    · rw [map_append, map_singleton, Memory.replay_concat, ← replayed]
      rfl
    · rw [handled_handle step found calling, Multiset.map_add,
        Multiset.map_singleton, carried, ← same]
      rfl

end Output

end Ironclaw.App
