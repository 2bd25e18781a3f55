import Ironclaw.Aggregate.Conservation
import Ironclaw.Aggregator.Process
import Ironclaw.Store.History

/-!
# Exactly-once effect of the pipeline

An aggregator process publishes windows to the hot store, which receives what
was sent in any order and any number of times.  The counters of a device
never exceed its accepted events, and reach them once nothing is open or
pending and every published window has been received.
-/

namespace Ironclaw.App

open Lib Domain Aggregate Ironclaw.Aggregator Store List

variable {Sketch World : Type}
variable {publisher : Publisher} {userID : String}

/-! ## Devices and their keys -/

/-- The events of one device. -/
def eventsOf
    (userID deviceID : String) (events : List Event) : List Event :=
  events.filter fun event =>
    event.userID = userID ∧ event.deviceID = deviceID

/-! ## The machine -/

/-- A process and the store, with the history of deliveries. -/
structure Delivery (Sketch World : Type) where
  process : Process Sketch World Event
  store : Memory
  delivered : List AggregateWindow

/-- A move of the process, or a delivery to the store. -/
inductive Step where
  | move (move : Move Event)
  | deliver (index : Nat)

namespace Delivery

def step
    (ops : SketchOps Sketch World) (publisher : Publisher)
    (delivery : Delivery Sketch World) :
    Step → Option (Delivery Sketch World)
  | .move move =>
    (delivery.process.step ops id publisher move).map fun process =>
      { delivery with process := process }
  | .deliver index =>
    delivery.process.sent[index]?.map fun window =>
      { delivery with
        store := (delivery.store.applyWindow none window).1
        delivered := delivery.delivered ++ [window] }

end Delivery

/-- A new aggregator behind its service, and an empty store. -/
def deliveryMachine
    (ops : SketchOps Sketch World) (publisher : Publisher) :
    Machine (Delivery Sketch World) Step where
  initial delivery := ∃ raw now world source metrics,
      Aggregate.Aggregator.new raw now world = .ok source ∧ delivery =
          ⟨Process.start ⟨source, metrics, 0⟩, Memory.new, []⟩
  step := Delivery.step ops publisher

/-- What every reachable state satisfies. -/
structure Delivery.Sound
    (publisher : Publisher) (delivery : Delivery Sketch World) : Prop where
  accounted : ∃ seed, delivery.process.Accounted id publisher seed
  store_eq : delivery.store =
    Memory.replay (delivery.delivered.map Call.applyWindow)
  delivered_sent : ∀ window ∈ delivery.delivered,
    window ∈ delivery.process.sent

variable {delivery : Delivery Sketch World}

theorem Delivery.Sound.step
    {ops : SketchOps Sketch World} {next : Delivery Sketch World}
    {step : Step} (sound : delivery.Sound publisher)
    (stepped : delivery.step ops publisher step = some next) :
    next.Sound publisher := by
  cases step with
  | move move =>
    obtain ⟨process, moved, rfl⟩ := Option.map_eq_some_iff.mp stepped
    obtain ⟨seed, accounted⟩ := sound.accounted
    refine ⟨⟨seed, accounted.step moved⟩, sound.store_eq, ?_⟩
    intro window member
    exact Process.sent_subset moved (sound.delivered_sent window member)
  | deliver index =>
    obtain ⟨window, sent, rfl⟩ := Option.map_eq_some_iff.mp stepped
    refine ⟨sound.accounted, ?_, ?_⟩
    · rw [map_append, map_singleton, Memory.replay_concat, ← sound.store_eq]
      rfl
    · exact forall_mem_concat sound.delivered_sent (mem_of_getElem? sent)

theorem delivery_sound {ops : SketchOps Sketch World}
    (reachable : (deliveryMachine ops publisher).Reachable delivery) :
    delivery.Sound publisher := by
  apply reachable.invariant
  · rintro _ ⟨raw, now, world, source, metrics, built, rfl⟩
    obtain ⟨opened, pending⟩ := new_empty built
    exact ⟨⟨_, Process.accounted_start id publisher opened pending⟩, rfl,
      by simp⟩
  · intro before step after _ sound stepped
    exact sound.step stepped

/-! ## The counters of a device -/

/-- The distinct emissions that a device has received. -/
def Delivery.received
    (key : String) (delivery : Delivery Sketch World) :
    List AggregateWindow :=
  firstBy AggregateWindow.identity ∅
    (delivery.delivered.filter fun window => keyOf window = key)

namespace Delivery.Sound

variable {key : String}

theorem deviceTally_eq (sound : delivery.Sound publisher) :
    delivery.store.deviceTally key =
      ((delivery.received key).map AggregateWindow.tally).sum := by
  rw [sound.store_eq, deviceTally_replay_windows]
  rfl

theorem mem_of_received
    {window : AggregateWindow} (member : window ∈ delivery.received key) :
    window ∈ delivery.delivered ∧ keyOf window = key := by
  have kept := (firstBy_sublist _ _).subset member
  simpa using kept

theorem received_nodup : (delivery.received key).Nodup :=
  Nodup.of_map AggregateWindow.identity (firstBy_nodup _ _)

theorem received_subset (sound : delivery.Sound publisher) :
    delivery.received key ⊆ delivery.process.ledger.windows := by
  intro window member
  obtain ⟨seed, accounted⟩ := sound.accounted
  exact accounted.sent_emitted window
    (sound.delivered_sent window (mem_of_received member).1)

end Delivery.Sound

theorem eventsOf_eq
    (deviceID : String) {events : List Event} (plain : Plain userID)
    (users : ∀ event ∈ events, Plain event.userID) :
    eventsOf userID deviceID events = events.filter fun event =>
        deviceKey event.correlationKey.userID event.correlationKey.deviceID =
          deviceKey userID deviceID := by
  apply filter_congr
  intro event member
  rw [decide_eq_decide]
  constructor
  · rintro ⟨sameUser, sameDevice⟩
    simp only [Event.correlationKey, sameUser, sameDevice]
  · intro same
    exact deviceKey_injective (users event member) plain same

/-- A device has counted some of its accepted events, each once. -/
theorem Delivery.Sound.exists_counted (deviceID : String)
    (sound : delivery.Sound publisher) (plain : Plain userID)
    (users : ∀ event ∈ delivery.process.ledger.accepted,
      Plain event.userID) :
    ∃ events, events.Subperm
          (eventsOf userID deviceID delivery.process.ledger.accepted) ∧
        delivery.store.deviceTally (deviceKey userID deviceID) =
          tallyOf id events := by
  obtain ⟨seed, accounted⟩ := sound.accounted
  obtain ⟨events, accepted, keyed, tally⟩ := accounted.tracks.exists_counted
      (delivery.received (deviceKey userID deviceID))
      received_nodup sound.received_subset
  refine ⟨events, ?_, sound.deviceTally_eq.trans tally⟩
  have mine : (events.filter fun event =>
      deviceKey event.correlationKey.userID event.correlationKey.deviceID =
        deviceKey userID deviceID) = events := by
    rw [filter_eq_self]
    intro event member
    obtain ⟨window, received, same⟩ := keyed event member
    rw [decide_eq_true_eq, show event.correlationKey = window.key from same]
    exact (mem_of_received received).2
  rw [eventsOf_eq deviceID plain users, ← mine]
  exact accepted.filter _

/-- Everything emitted has reached the store, if nothing is held back. -/
theorem Delivery.Sound.deviceTally_complete (deviceID : String)
    (sound : delivery.Sound publisher) (plain : Plain userID)
    (users : ∀ event ∈ delivery.process.ledger.accepted,
      Plain event.userID)
    (emissions : delivery.process.ledger.emitted.length < 2 ^ 64)
    (noneOpen : delivery.process.service.source.openWindows = ∅)
    (nonePending : delivery.process.service.source.pending = ∅)
    (allDelivered : ∀ window ∈ delivery.process.acknowledged,
      window ∈ delivery.delivered) :
    delivery.store.deviceTally (deviceKey userID deviceID) = tallyOf id
        (eventsOf userID deviceID delivery.process.ledger.accepted) := by
  obtain ⟨seed, accounted⟩ := sound.accounted
  have tracks := accounted.tracks
  -- Every emission was removed by a commit, hence acknowledged.
  have arrived : ∀ window ∈ delivery.process.ledger.windows,
      window ∈ delivery.delivered := by
    intro window member
    have held := (tracks.conserved emissions).mem_iff.mp member
    rw [nonePending, GoMap.values_empty, nil_append] at held
    exact allDelivered window
      (accounted.removed_acknowledged emissions window held)
  have same : (delivery.received (deviceKey userID deviceID)).Perm
      (delivery.process.ledger.windows.filter fun window =>
        deviceKey window.key.userID window.key.deviceID =
          deviceKey userID deviceID) := by
    rw [perm_ext_iff_of_nodup received_nodup
      ((tracks.windows_nodup emissions).filter _)]
    intro window
    rw [mem_filter, decide_eq_true_eq]
    constructor
    · intro member
      exact ⟨sound.received_subset member, (mem_of_received member).2⟩
    · rintro ⟨member, mine⟩
      have delivered : window ∈ delivery.delivered.filter fun window =>
          keyOf window = deviceKey userID deviceID := by
        rw [mem_filter, decide_eq_true_eq]
        exact ⟨arrived window member, mine⟩
      obtain ⟨kept, keptMember, identity⟩ := exists_mem_firstBy delivered
          (Finset.notMem_empty window.identity)
      have equal := tracks.eq_of_identity emissions
        (sound.received_subset keptMember) member identity
      exact equal ▸ keptMember
  have total := tracks.tally_accepted_filter fun key =>
    deviceKey key.userID key.deviceID = deviceKey userID deviceID
  rw [tracks.opened_eq_nil noneOpen, filter_nil] at total
  rw [sound.deviceTally_eq, (same.map AggregateWindow.tally).sum_eq,
    eventsOf_eq deviceID plain users]
  simpa [tallyOf] using total.symm

/--
Exactly-once effect.  Over every interleaving of batches, emits, calls of the
publisher's targets and deliveries, the counters of a device never exceed its
accepted events.  They equal them (as 64-bit counters, and as numbers below
`2^63`) when nothing is open or pending and every window whose publication
succeeded was delivered.
-/
theorem exactly_once
    (ops : SketchOps Sketch World) (publisher : Publisher)
    {delivery : Delivery Sketch World}
    (reachable : (deliveryMachine ops publisher).Reachable delivery)
    (users : ∀ event ∈ delivery.process.ledger.accepted,
      Plain event.userID)
    (userID deviceID : String) (plain : Plain userID) :
    let tally := delivery.store.deviceTally (deviceKey userID deviceID)
    let events :=
      eventsOf userID deviceID delivery.process.ledger.accepted
    tally.count.toInt ≤ events.length ∧
      tally.errorCount.toInt ≤ (events.countP Event.failed : Nat) ∧
      (delivery.process.ledger.emitted.length < 2 ^ 64 →
        delivery.process.service.source.openWindows = ∅ →
        delivery.process.service.source.pending = ∅ →
        (∀ window ∈ delivery.process.acknowledged,
          window ∈ delivery.delivered) →
        tally.count = Int64.ofNat events.length ∧
          tally.errorCount = Int64.ofNat (events.countP Event.failed) ∧
          (events.length < 2 ^ 63 → tally.count.toInt = events.length ∧
              tally.errorCount.toInt =
                (events.countP Event.failed : Nat))) := by
  intro tally events
  have sound := delivery_sound reachable
  obtain ⟨counted, some, sum⟩ := sound.exists_counted deviceID plain users
  have count : tally.count = Int64.ofNat counted.length := by
    rw [show tally = tallyOf id counted from sum]
    exact sum_tally_count id counted
  have errorCount :
      tally.errorCount = Int64.ofNat (counted.countP Event.failed) := by
    rw [show tally = tallyOf id counted from sum]
    exact sum_tally_errorCount id counted
  refine ⟨?_, ?_, ?_⟩
  · have fewer : counted.length ≤ events.length := some.length_le
    have bound := Word.toInt_ofNat_le counted.length
    rw [count]
    omega
  · have fewer : counted.countP Event.failed ≤
        events.countP Event.failed :=
      some.countP_le Event.failed
    have bound := Word.toInt_ofNat_le (counted.countP Event.failed)
    rw [errorCount]
    omega
  · intro emissions noneOpen nonePending allDelivered
    have complete := sound.deviceTally_complete deviceID plain users
      emissions noneOpen nonePending allDelivered
    have allCount : tally.count = Int64.ofNat events.length := by
      rw [show tally = tallyOf id events from complete]
      exact sum_tally_count id events
    have allErrors :
        tally.errorCount = Int64.ofNat (events.countP Event.failed) := by
      rw [show tally = tallyOf id events from complete]
      exact sum_tally_errorCount id events
    refine ⟨allCount, allErrors, ?_⟩
    intro small
    have failures : events.countP Event.failed ≤ events.length :=
      countP_le_length
    rw [allCount, allErrors]
    exact ⟨Int64.toInt_ofNat_of_lt small, Int64.toInt_ofNat_of_lt (by omega)⟩

/-- The sample aggregator behind its service, and an empty store. -/
def sampleDelivery : Delivery Unit Unit :=
  ⟨Process.start ⟨sampleAggregator, none, 0⟩, Memory.new, []⟩

/-- One event, published ambiguously, then again, and delivered twice. -/
def sampleSteps : List Step :=
  [.move (.handle none [sampleEvent]), .move .emitAll,
    .move (.attempt 0 (.ambiguous (.sentinel "timeout"))),
    .move (.commit 0),
    .deliver 0,
    .move .emitAll,
    .move (.attempt 0 .delivered),
    .move (.commit 0),
    .deliver 1]

theorem sampleDelivery_reachable :
    (deliveryMachine blankSketch Publisher.plain).Reachable
      sampleDelivery :=
  Machine.Reachable.start
    ⟨sampleConfig, Time.zero, (), sampleAggregator, none, new_sample, rfl⟩

theorem exactly_once_sample : ∃ delivery,
      (deliveryMachine blankSketch Publisher.plain).run sampleDelivery
          sampleSteps = some delivery ∧
        (delivery.store.deviceTally
          (deviceKey "user-1" "device-1")).count.toInt = 1 := by
  have run : ∃ delivery,
      (deliveryMachine blankSketch Publisher.plain).run sampleDelivery
          sampleSteps = some delivery ∧
        delivery.process.ledger.accepted = [sampleEvent] ∧
        delivery.process.ledger.emitted.length = 1 ∧
        delivery.process.service.source.openWindows = ∅ ∧
        delivery.process.service.source.pending = ∅ ∧
        delivery.process.acknowledged ⊆ delivery.delivered :=
    ⟨_, rfl, rfl, rfl, rfl, rfl, fun _ member => mem_cons_of_mem _ member⟩
  obtain ⟨delivery, ran, accepted, emitted, noneOpen, nonePending, all⟩ := run
  have users : ∀ event ∈ delivery.process.ledger.accepted,
      Plain event.userID := by
    rw [accepted]
    decide
  obtain ⟨-, -, complete⟩ := exactly_once blankSketch Publisher.plain
    (sampleDelivery_reachable.run ran) users "user-1" "device-1" (by decide)
  obtain ⟨-, -, exact⟩ := complete (by rw [emitted]; decide) noneOpen
    nonePending fun window member => all member
  rw [accepted] at exact
  exact ⟨delivery, ran, (exact (by decide)).1⟩

end Ironclaw.App
