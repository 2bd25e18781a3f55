import Ironclaw.App.Flow

/-!
# Laps of the runtime

One event on its way from its source to the store, with the runtime at rest
before and after it.  The bus, the agent and the aggregator are followed alone
first; a run of a component is a run of the runtime.
-/

namespace Ironclaw.App

open Lib Domain Aggregate Ironclaw.Aggregator Pipeline Store List Function
open AList App.Runtime

variable {event : Event} {index : Nat}

/-! ## A bus with one partition -/

/-- One partition, whose channel holds one value. -/
def narrowBus : Bus.Settings := ⟨⟨1, 1, 3⟩, by decide⟩

theorem partition_eq (left right : Fin narrowBus.partitions) :
    left = right := by
  have single : narrowBus.partitions = 1 := by decide
  apply Fin.ext
  omega

/-- Steps that a bus takes on its own. -/
def movesOf {Value : Type} (actions : List (Bus.Action narrowBus Value))
    (channel : Bus narrowBus Value) : Option (Bus narrowBus Value) :=
  actions.foldlM (fun channel action => Runtime.move action channel) channel

section Channel

variable {Value : Type} {channel : Bus narrowBus Value}

/-- An open bus whose loop waits, with what its channel holds. -/
structure Waits
    (parcels : List (Bus.Parcel Value)) (channel : Bus narrowBus Value) :
    Prop where
  channels : ∀ partition, channel.channels partition = parcels
  consumers : ∃ partition,
    channel.consumers = [⟨partition, none, .selecting false⟩]
  closer : channel.closer = .idle
  closed : channel.closed = false
  inflight : channel.inflight = 0

/-- The steps of one call of `Send` that is not refused. -/
def sendMoves (id : Nat) : List (Bus.Action narrowBus Value) :=
  [.check id, .enter id, .push id, .count id, .leave id]

theorem Waits.send (waits : Waits [] channel) (key : String) (value : Value) :
    ∃ after,
      movesOf (sendMoves channel.calls.length) (channel.send key value) =
          some after ∧
        Runtime.resultOf after channel.calls.length = some none ∧
        Waits [⟨channel.calls.length, value⟩] after := by
  have room : 0 < narrowBus.capacity := by decide
  have sent : movesOf (sendMoves channel.calls.length)
      (channel.send key value) =
      some { channel with
        channels := update channel.channels
          (narrowBus.partitionFor key) [⟨channel.calls.length, value⟩]
        calls := channel.calls ++ [⟨key, value, .returned none⟩]
        published := channel.published + 1 } := by
    simp [movesOf, sendMoves, move, Bus.send, Bus.step, Bus.check,
      Bus.enter, Bus.push, Bus.count, Bus.leave, waits.channels, room,
      waits.closer, waits.closed, waits.inflight, Bus.Closer.holdsLock,
      Bus.Closer.wake]
  refine ⟨_, sent, ?_, ?_⟩
  · simp [resultOf]
  · refine { waits with channels := ?_ }
    intro partition
    rw [partition_eq partition (narrowBus.partitionFor key)]
    exact update_self _ _ _

/-- The loop takes the value and calls its handler. -/
theorem Waits.receive
    {parcel : Bus.Parcel Value} (waits : Waits [parcel] channel) :
    ∃ calling handled after,
      movesOf [.receive 0, .deliver 0] channel = some calling ∧
        Runtime.attempting calling 0 = some parcel.value ∧
        calling.handle 0 none = some handled ∧
        movesOf [.deliver 0] handled = some after ∧ Waits [] after := by
  rcases waits.consumers with ⟨partition, waiting⟩
  have attempts : (1 : Int64) ≤ narrowBus.maxAttempts := by decide
  have called : movesOf [.receive 0, .deliver 0] channel = some { channel with
        channels := update channel.channels partition []
        consumers :=
          [⟨partition, none, .delivering false parcel (.calling 1)⟩]
        handed := channel.handed ++ [parcel] } := by
    simp [movesOf, move, Bus.step, Bus.receive, Bus.deliver,
      waits.channels, waiting, attempts]
  refine ⟨_, _, _, called, rfl, rfl, rfl, ?_, ⟨partition, rfl⟩,
    waits.closer, waits.closed, waits.inflight⟩
  intro other
  rw [partition_eq other partition]
  exact update_self _ _ _

/-- A bus that is closed ends its loop. -/
theorem Waits.close (waits : Waits [] channel) : ∃ closed after,
      (List.replicate 6 ()).foldlM (fun channel _ => Bus.close channel)
          channel = some closed ∧ closed.closer = .done ∧
        movesOf [.shut 0, .finish 0] closed = some after ∧
        ended after = true := by
  rcases waits.consumers with ⟨partition, waiting⟩
  have closed : (replicate 6 ()).foldlM
      (fun channel _ => Bus.close channel) channel =
      some { channel with
        closer := .done
        closed := true
        closing := true
        shutdown := true } := by
    simp [replicate, Bus.close, waits.closer, waits.inflight]
  refine ⟨_, { channel with
    consumers := [⟨partition, none, .returned none⟩]
    closer := .done
    closed := true
    closing := true
    shutdown := true }, closed, rfl, ?_, ?_⟩
  · simp [movesOf, move, Bus.step, Bus.shut, Bus.finish, waiting,
      waits.channels]
  · simpa [ended, Bus.Stage.isReturned] using partition_eq partition

end Channel

/-! ## The agents -/

/-- Three devices with as many events as a source can have. -/
def longConfig : Config where
  devices := 3
  eventsPerDevice := 9223372036854775807
  eventInterval := 0
  batchSize := 1
  batchInterval := 1
  windowSize := 1
  partitions := 1
  queueCapacity := 1
  relativeAccuracy := 0
  emitOpenWindows := true
  maxOpenWindows := 0

/-- The time at which all events are observed. -/
def lapTime : Time := ⟨1700000000000000000⟩

def lapDraw : Draw := ⟨lapTime, 0, 0, false⟩

def lapEvent (index produced : Nat) : Event :=
  (Agent.sourceConfig longConfig index).next produced lapDraw

/-- A batch of one event. -/
def lapBatch (index produced : Nat) : Batch where
  deviceID := "device-" ++ Agent.padded index
  createdAt := lapTime
  events := [lapEvent index produced]

theorem append_ne_empty
    {start : String} (nonempty : start ≠ "") (rest : String) :
    start ++ rest ≠ "" := by
  intro empty
  exact nonempty (String.append_eq_empty_iff.mp empty).1

theorem validate_lapEvent (index produced : Nat) :
    (lapEvent index produced).validate = none := by
  have device : (lapEvent index produced).deviceID ≠ "" :=
    append_ne_empty (by decide) _
  have user : (lapEvent index produced).userID ≠ "" :=
    append_ne_empty (by decide) _
  rw [Event.validate, if_neg device, if_neg user]
  rfl

theorem validate_lapBatch (index produced : Nat) :
    (lapBatch index produced).validate = none := by
  rw [Batch.validate_eq_none_iff]
  refine ⟨append_ne_empty (by decide) _, ?_⟩
  intro event member
  rw [mem_singleton.mp member]
  exact ⟨validate_lapEvent index produced, rfl⟩

theorem check_lapBatch (index produced : Nat) :
    Ingest.Service.check ("device-" ++ Agent.padded index)
      (lapBatch index produced) = none := by
  have device : "device-" ++ Agent.padded index ≠ "" :=
    append_ne_empty (by decide) _
  have identified : (lapBatch index produced).verifyIdentity
      ("device-" ++ Agent.padded index) = none := by
    rw [Batch.verifyIdentity_eq_none_iff]
    refine ⟨rfl, ?_⟩
    intro event member
    rw [mem_singleton.mp member]
    rfl
  rw [Ingest.Service.check, if_neg device, identified]
  exact validate_lapBatch index produced

/-- An event fills a batch, which goes through the queue to the sender. -/
theorem Batcher.pass_single
    {settings : Pipeline.Settings} {batcher : Batcher settings}
    (single : settings.maxEvents = 1)
    (taken : Batcher.accepts settings event = true) (now : Time)
    (collector : batcher.collector = .selecting [])
    (queue : batcher.queue = []) (sender : batcher.sender = .ranging) :
    ∃ flushed enqueued recorded after,
      batcher.receive event now = some flushed ∧
        flushed.enqueue = some enqueued ∧
        enqueued.record = some recorded ∧ recorded.take = some after ∧
        after.collector = .selecting [] ∧ after.queue = [] ∧
        after.sender = .sending ⟨settings.deviceID, now, [event]⟩ := by
  have room : 0 < settings.queueDepth := settings.bounds.2.2
  let batch : Batch := ⟨settings.deviceID, now, [event]⟩
  have received : batcher.receive event now = some { batcher.accept event with
        collector := .enqueueing batch .resume
        flushed := batcher.flushed ++ [batch] } := by
    simp [Batcher.receive, collector, taken, single, Batcher.flush,
      Batcher.accept, batch]
  have pushed : ∀ flushed : Batcher settings,
      flushed.collector = .enqueueing batch .resume → flushed.queue = [] →
        flushed.enqueue = some { flushed with
          queue := [batch]
          collector := .recording ⟨true, []⟩ .resume } := by
    intro flushed enqueueing empty
    simp [Batcher.enqueue, Batcher.push, enqueueing, empty, room]
  have handed : ∀ recorded : Batcher settings,
      recorded.sender = .ranging → recorded.queue = [batch] →
        recorded.take = some { recorded with
          queue := []
          sender := .sending batch
          handed := recorded.handed ++ [batch] } := by
    intro recorded ranging full
    simp [Batcher.take, ranging, full]
  exact ⟨_, _, _, _, received, pushed _ rfl queue, rfl,
    handed _ sender rfl, rfl, rfl, rfl⟩

namespace Agent

/-- An agent that waits for its source, with what its sender does. -/
structure Stands
    (index produced : Nat) (closed : Bool) (sender : Sender)
    (agent : Agent) : Prop where
  source : agent.source =
    ⟨sourceConfig longConfig index, closed, produced, .looping⟩
  settings : agent.settings.config = batcherConfig longConfig index
  collector : agent.batcher.collector = .selecting []
  queue : agent.batcher.queue = []
  sender : agent.batcher.sender = sender

variable {agent : Agent} {produced : Nat}

/-- The next event makes a batch, which the sender takes. -/
theorem Stands.collect (stands : agent.Stands index produced false .ranging)
    (left : produced < 9223372036854775807) :
    ∃ after, [Action.offer lapDraw, .receive lapTime, .enqueue, .record,
          .take].foldlM act agent = some after ∧
        after.Stands index (produced + 1) false
          (.sending (lapBatch index produced)) ∧ after.call = agent.call := by
  rcases agent with ⟨⟨config, valid⟩, source, batcher, call⟩
  rcases stands with ⟨rfl, rfl, collector, queue, sender⟩
  have more : (produced : Int) <
      (sourceConfig longConfig index).eventCount.toInt := by
    have count : (sourceConfig longConfig index).eventCount.toInt =
      9223372036854775807 := rfl
    omega
  have taken : Batcher.accepts ⟨batcherConfig longConfig index, valid⟩
      (lapEvent index produced) = true := by
    rw [Batcher.accepts, validate_lapEvent]
    exact beq_self_eq_true _
  rcases Batcher.pass_single rfl taken lapTime collector queue sender with
    ⟨flushed, enqueued, recorded, after, received, pushed, counted, handed,
      waits, empty, sending⟩
  have offered : SyntheticSource.offer lapDraw
      ⟨sourceConfig longConfig index, false, produced, .looping⟩ =
      some ⟨sourceConfig longConfig index, false, produced,
        .offering (lapEvent index produced)⟩ := by
    simp only [SyntheticSource.offer, if_pos more]
    rfl
  refine ⟨⟨_, ⟨sourceConfig longConfig index, false, produced + 1,
    .looping⟩, after, call⟩, ?_, ⟨rfl, rfl, waits, empty, sending⟩, rfl⟩
  simp [act, carry, offered, SyntheticSource.hand, received, pushed,
    counted, handed]
  rfl

/-- The transport has taken the batch. -/
theorem Stands.settle {batch : Batch}
    (stands : agent.Stands index produced false (.sending batch)) :
    ∃ after, agent.settle none = some after ∧
      after.Stands index produced false .ranging ∧ after.call = none := by
  have settled : agent.batcher.settle none = some { agent.batcher with
      sender := .ranging
      sent := agent.batcher.sent ++ [batch]
      stats := { agent.batcher.stats with
        batchesSent := agent.batcher.stats.batchesSent + 1 } } := by
    simp [Batcher.settle, stands.sender]
  exact ⟨_, congrArg (Option.map _) settled,
    { stands with sender := rfl }, rfl⟩

/-- An agent whose source is closed returns. -/
theorem Stands.finish (stands : agent.Stands index produced true .ranging) :
    ∃ after, [Action.offer lapDraw, .exhaust lapTime, .close, .take,
          .wait].foldlM act agent = some after ∧ after.returned = true := by
  have ended : ∃ source, agent.source.offer lapDraw = some source ∧
      source.stage = .ended := by
    rw [stands.source]
    simp only [SyntheticSource.offer]
    split
    · exact ⟨_, rfl, rfl⟩
    · exact ⟨_, rfl, rfl⟩
  rcases ended with ⟨source, offered, stage⟩
  refine ⟨⟨agent.settings, source, { agent.batcher with
    collector := .returned none
    sender := .done }, agent.call⟩, ?_, rfl⟩
  simp [act, carry, offered, stage, Batcher.exhaust, stands.collector,
    Batcher.flush, Batcher.proceed, Batcher.close, Batcher.take,
    stands.sender, stands.queue, Collector.closed, Batcher.wait]

theorem new_long (index : Nat) :
    ∃ agent after, new longConfig index = .ok agent ∧
      agent.act .launch = some after ∧
        after.Stands index 0 false .ranging ∧ after.call = none := by
  have device : (sourceConfig longConfig index).deviceID ≠ "" :=
    append_ne_empty (by decide) _
  have user : (sourceConfig longConfig index).userID ≠ "" :=
    append_ne_empty (by decide) _
  have source : SyntheticSource.new (sourceConfig longConfig index) =
      .ok ⟨sourceConfig longConfig index, false, 0, .idle⟩ := by
    have valid : (sourceConfig longConfig index).validate = none := by
      rw [SyntheticConfig.validate, if_neg device, if_neg user]
      rfl
    rw [SyntheticSource.new, valid]
  have named : (batcherConfig longConfig index).deviceID ≠ "" := device
  have valid : (batcherConfig longConfig index).validate = none := by
    rw [BatcherConfig.validate, if_neg named]
    rfl
  have made : new longConfig index = .ok
      ⟨⟨batcherConfig longConfig index, valid⟩,
        ⟨sourceConfig longConfig index, false, 0, .idle⟩, Batcher.new _,
        none⟩ := by
    simp only [new, source]
    split
    · rename_i fault refused
      rw [valid] at refused
      cases refused
    · rfl
  exact ⟨_, _, made, rfl, ⟨rfl, rfl, rfl, rfl, rfl⟩, rfl⟩

/-- The agents that a runtime starts with. -/
theorem build_long (count : Nat) :
    ∃ agents, build longConfig count = .ok agents ∧ agents.length = count ∧
        ∀ (index : Nat) (agent : Agent), agents[index]? = some agent →
          ∃ after, agent.act .launch = some after ∧
            after.Stands index 0 false .ranging ∧ after.call = none := by
  induction count with
  | zero =>
    refine ⟨[], rfl, rfl, ?_⟩
    intro index agent found
    cases found
  | succ count induction =>
    rcases induction with ⟨agents, built, length, earlier⟩
    rcases new_long count with ⟨last, after, made, launched, stands, free⟩
    refine ⟨agents ++ [last], ?_, ?_, ?_⟩
    · rw [build, built, made]
    · rw [length_append, length, length_singleton]
    · intro index agent found
      rcases Slots.concat_iff.mp found with there | ⟨rfl, rfl⟩
      · exact earlier index agent there
      · rw [length]
        exact ⟨after, launched, stands, free⟩

end Agent

/-! ## The aggregator -/

section Process

variable {ops : SketchOps Sketch Unit}
variable {source : Aggregate.Aggregator Sketch Unit}
variable {process : Process Sketch Unit Event}

theorem ingestLocked_single
    (reliable : ops.Reliable) (opened : source.openWindows = ∅)
    (unlimited : source.config.maxOpenWindows = 0) (event : Event) :
    ∃ state : WindowState Sketch, state.count = 1 ∧
      source.ingestLocked ops event = ({ source with
          openWindows := singleton
            (windowKeyOf source.config event) state }, none) := by
  rcases reliable.newSketch source.world with ⟨sketch, world, made⟩
  have room : source.ceilingReached = false := by
    simp [Aggregate.Aggregator.ceilingReached, unlimited]
  refine ⟨(WindowState.fresh sketch).countEvent ops event, rfl, ?_⟩
  simp only [Aggregate.Aggregator.ingestLocked, opened, lookup_empty,
    room, made]
  rfl

/-- A collect emits the one window. -/
theorem collect_single
    (reliable : ops.Reliable) {key : WindowKey} {state : WindowState Sketch}
    (opened : source.openWindows = AList.singleton key state)
    (pending : source.pending = ∅) :
    ∃ window : AggregateWindow, source.collect ops (fun _ => true) =
          ({ source with
            openWindows := ∅
            pending := singleton window.identity window
            sequence := source.sequence + 1 }, [window], none) ∧
        source.newlyEmitted ops (fun _ => true) = [window] ∧
        window.key = key.correlation ∧ window.windowID = key.windowID ∧
        window.sequence = source.sequence + 1 ∧
        window.count = state.count := by
  have selected : (source.selectedKeys fun _ => true) = [key] := by
    simp [Aggregate.Aggregator.selectedKeys, opened]
  have present : source.openWindows.lookup key = some state := by
    rw [opened]
    exact dlookup_cons_eq _ _ _
  rcases reliable.quantile (95 / 100) state.sketch source.world
    (by norm_num) (by norm_num) with ⟨p95, middle, first⟩
  rcases reliable.quantile (99 / 100) state.sketch middle
    (by norm_num) (by norm_num) with ⟨p99, world, second⟩
  have erased : (singleton key state :
      GoMap WindowKey (WindowState Sketch)).erase key = ∅ :=
    GoMap.erase_insert_of_notMem (notMem_empty key)
  let window := emission ops source.config key (source.sequence + 1) state
    p95 p99
  have turn : source.collectSelected ops
      (source.selectedKeys fun _ => true) = ({ source with
            openWindows := ∅
            pending := singleton window.identity window
            sequence := source.sequence + 1 }, [window], none) := by
    rw [selected, Aggregate.Aggregator.collectSelected, present]
    simp only [first, second, Aggregate.Aggregator.collectSelected,
      Aggregate.Aggregator.emit, opened, pending, erased]
    rfl
  refine ⟨window, ?_, ?_, rfl, rfl, rfl, rfl⟩
  · rw [Aggregate.Aggregator.collect, turn]
    simp [Aggregate.Aggregator.pendingInOrder, pending]
  · rw [Aggregate.Aggregator.newlyEmitted, turn]

/-- An aggregator of the long runs, when it holds no window. -/
structure Rests (process : Process Sketch Unit Event) : Prop where
  openWindows : process.service.source.openWindows = ∅
  pending : process.service.source.pending = ∅
  emits : process.emits = []
  unlimited : process.service.source.config.maxOpenWindows = 0
  windowSize : process.service.source.config.windowSize = 1

/-- What the count and the emission of one event change. -/
structure Laps
    (before : Process Sketch Unit Event) (event : Event)
    (window : AggregateWindow) (after : Process Sketch Unit Event) :
    Prop where
  rests : Rests after
  accepted : after.ledger.accepted.length = before.ledger.accepted.length + 1
  emitted : after.ledger.emitted.length = before.ledger.emitted.length + 1
  sequence : after.service.source.sequence =
    before.service.source.sequence + 1
  key : window.key = event.correlationKey
  windowID : window.windowID = event.observedAt.unixNano / 1
  number : window.sequence = after.service.source.sequence
  count : window.count = 1

/-- One valid event is counted in a window of its own. -/
theorem Rests.handle (rests : Rests process) (reliable : ops.Reliable)
    (valid : event.validate = none) :
    ∃ state : WindowState Sketch, state.count = 1 ∧
      (process.handle ops id none [event]).service.source =
        { process.service.source with
          openWindows := singleton
            (windowKeyOf process.service.source.config event) state } ∧
      (process.handle ops id none [event]).ledger =
        process.ledger.count [event] := by
  rcases ingestLocked_single reliable rests.openWindows rests.unlimited
    event with ⟨state, single, ingested⟩
  have whole : process.service.source.ingestBatchItems ops id [event] =
      ({ process.service.source with
        openWindows := singleton
          (windowKeyOf process.service.source.config event) state },
        [event], none) := by
    simp [Aggregate.Aggregator.ingestBatchItems, valid,
      Aggregate.Aggregator.ingestItems, ingested]
  have live := process.service.handleItems_live ops id [event]
  rw [whole] at live
  refine ⟨state, single, live.1, ?_⟩
  rw [Process.handle, live.2]

/-- The window is emitted, published and committed. -/
theorem Rests.lap (rests : Rests process) (reliable : ops.Reliable)
    (valid : event.validate = none) :
    ∃ window collected attempted after,
      (process.handle ops id none [event]).step ops id Publisher.plain
          .emitAll = some collected ∧
        collected.emits = [Publishing.start [window]] ∧
        collected.attempt Publisher.plain 0 .delivered = some attempted ∧
        attempted.commit 0 = some after ∧
        Laps process event window after := by
  rcases rests.handle reliable valid with ⟨state, single, opened, counted⟩
  have kept : (process.handle ops id none [event]).emits = [] := rests.emits
  generalize process.handle ops id none [event] = handled
    at opened counted kept ⊢
  have one : handled.service.source.openWindows =
      singleton (windowKeyOf process.service.source.config event)
        state := by
    rw [opened]
  have none : handled.service.source.pending = ∅ := by
    rw [opened]
    exact rests.pending
  rcases collect_single reliable one none with
    ⟨window, collected, emitted, key, windowID, number, count⟩
  let publishing := (Publishing.start [window]).returned window [] .none
  have emits : (handled.collect ops id fun _ => true).emits =
      [Publishing.start [window]] := by
    simp [Process.collect, collected, kept]
  have attempted : (handled.collect ops id fun _ => true).attempt
      Publisher.plain 0 .delivered =
      some { handled.collect ops id (fun _ => true) with
        emits := [publishing]
        sent := handled.sent ++ [window]
        acknowledged := handled.acknowledged ++ [window] } := by
    simp only [Process.attempt, emits]
    rfl
  have erased : (singleton window.identity window :
      GoMap String AggregateWindow).erase window.identity = ∅ :=
    GoMap.erase_insert_of_notMem (notMem_empty _)
  have finished : ((handled.collect ops id
      fun _ => true).service.finish publishing).source =
      { handled.service.source with
        openWindows := ∅
        pending := ∅
        sequence := handled.service.source.sequence + 1 } := by
    have published : publishing.published = [window] := rfl
    rw [Service.source_finish, published]
    simp only [Process.collect, collected, Aggregate.Aggregator.commit,
      foldl_cons, foldl_nil, erased]
  have config : handled.service.source.config =
      process.service.source.config := by
    rw [opened]
  have sequence : handled.service.source.sequence =
      process.service.source.sequence := by
    rw [opened]
  have ledger : (handled.collect ops id fun _ => true).ledger =
      (process.ledger.count [event]).emitAll
        (fun item => windowKeyOf process.service.source.config item)
        [window] := by
    simp only [Process.collect, emitted, counted, config]
    rfl
  have same := (congrArg Aggregate.Aggregator.config finished).trans config
  refine ⟨window, _, _, _, rfl, emits, attempted, rfl, ?_⟩
  constructor
  · constructor
    · exact congrArg Aggregate.Aggregator.openWindows finished
    · exact congrArg Aggregate.Aggregator.pending finished
    · rfl
    · exact (congrArg Aggregate.Config.maxOpenWindows same).trans
        rests.unlimited
    · exact (congrArg Aggregate.Config.windowSize same).trans rests.windowSize
  · change (handled.collect ops id fun _ => true).ledger.accepted.length = _
    rw [ledger, Ledger.accepted_emitAll]
    exact length_append
  · change (handled.collect ops id fun _ => true).ledger.emitted.length = _
    rw [ledger, Ledger.emitted_length_emitAll]
    rfl
  · exact (congrArg Aggregate.Aggregator.sequence finished).trans
      (congrArg (fun number => number + 1) sequence)
  · exact key
  · rw [windowID, windowKeyOf, windowIDAt, rests.windowSize]
  · exact number.trans (congrArg Aggregate.Aggregator.sequence finished).symm
  · rw [count, single]

/-- An emission that finds no window. -/
theorem Rests.emit_nothing (rests : Rests process) : ∃ collected after,
      process.step ops id Publisher.plain .emitAll = some collected ∧
        collected.commit 0 = some after ∧ after.emits = [] ∧
        after.ledger.accepted = process.ledger.accepted ∧
        after.ledger.emitted = process.ledger.emitted := by
  have selected :
      (process.service.source.selectedKeys fun _ => true) = [] := by
    simp [Aggregate.Aggregator.selectedKeys, rests.openWindows]
  have nothing : process.service.source.collect ops (fun _ => true) =
      (process.service.source, [], none) := by
    simp [Aggregate.Aggregator.collect, selected,
      Aggregate.Aggregator.collectSelected,
      Aggregate.Aggregator.pendingInOrder, rests.pending]
  have emitted :
      process.service.source.newlyEmitted ops (fun _ => true) = [] := by
    rw [Aggregate.Aggregator.newlyEmitted, selected]
    rfl
  have collected : process.collect ops id (fun _ => true) =
      { process with emits := [Publishing.start []] } := by
    simp only [Process.collect, nothing, emitted, rests.emits]
    rfl
  exact ⟨_, _, congrArg some collected, rfl, rfl, rfl, rfl⟩

end Process

/-! ## Runs -/

/-- The runtime of the long runs. -/
abbrev longMachine (formulas : Formulas) :
    Machine (Runtime narrowBus) (Runtime.Action narrowBus) :=
  runtimeMachine formulas longConfig narrowBus

abbrev Reached (formulas : Formulas) (runtime : Runtime narrowBus) : Prop :=
  (longMachine formulas).Reachable runtime

theorem long_reliable (formulas : Formulas) :
    (sketches formulas longConfig.accuracy).Reliable := by
  have accuracy : longConfig.accuracy = 1 / 100 := if_pos rfl
  rw [accuracy]
  exact sketches_reliable formulas (by norm_num) (by norm_num)

section Runs

variable {formulas : Formulas} {runtime : Runtime narrowBus}

theorem reachable_step
    {after : Runtime narrowBus} (action : Runtime.Action narrowBus)
    (reachable : Reached formulas runtime)
    (step : runtime.step (sketches formulas longConfig.accuracy)
      longConfig.emitOpenWindows action = some after) :
    Reached formulas after :=
  reachable.next step

theorem reachable_agent (reachable : Reached formulas runtime)
    {agent after : Agent} {actions : List Agent.Action}
    (found : runtime.agents[index]? = some agent)
    (ran : actions.foldlM Agent.act agent = some after) :
    Reached formulas
      { runtime with agents := runtime.agents.set index after } := by
  rcases List.getElem?_eq_some_iff.mp found with ⟨inside, here⟩
  refine @Machine.Reachable.lift _ _ _ _ _ _
    (fun agent => { runtime with agents := runtime.agents.set index agent })
    (Runtime.Action.agent index) ?_ _ _ _ ran ?_
  · intro part action next acted
    simp [runtimeMachine, Runtime.step, Runtime.agent, inside, acted]
  · rw [← here, set_getElem_self]
    exact reachable

theorem reachable_batches {actions : List (Bus.Action narrowBus Batch)}
    {batches : Bus narrowBus Batch}
    (ran : movesOf actions runtime.batches = some batches)
    (reachable : Reached formulas runtime) :
    Reached formulas { runtime with batches := batches } :=
  @Machine.Reachable.lift _ _ _ _ _ _
    (fun batches => { runtime with batches := batches }) Runtime.Action.batches
    (fun _ _ _ moved => congrArg (Option.map _) moved) _ _ _ ran reachable

theorem reachable_windows
    {actions : List (Bus.Action narrowBus AggregateWindow)}
    {windows : Bus narrowBus AggregateWindow}
    (ran : movesOf actions runtime.windows = some windows)
    (reachable : Reached formulas runtime) :
    Reached formulas { runtime with windows := windows } :=
  @Machine.Reachable.lift _ _ _ _ _ _
    (fun windows => { runtime with windows := windows }) Runtime.Action.windows
    (fun _ _ _ moved => congrArg (Option.map _) moved) _ _ _ ran reachable

theorem reachable_commands {actions : List (Bus.Action narrowBus Command)}
    {commands : Bus narrowBus Command}
    (ran : movesOf actions runtime.commands = some commands)
    (reachable : Reached formulas runtime) :
    Reached formulas { runtime with commands := commands } :=
  @Machine.Reachable.lift _ _ _ _ _ _
    (fun commands => { runtime with commands := commands })
    Runtime.Action.commands
    (fun _ _ _ moved => congrArg (Option.map _) moved) _ _ _ ran reachable

section Reachable

variable (reachable : Reached formulas runtime)
include reachable

/-- An event of a device comes to the channel of the aggregator. -/
theorem send_lap {produced : Nat} {agent : Agent}
    (found : runtime.agents[index]? = some agent)
    (stands : agent.Stands index produced false .ranging)
    (free : agent.call = none) (left : produced < 9223372036854775807)
    (waits : Waits [] runtime.batches) :
    ∃ after batches id, Reached formulas { runtime with
          agents := runtime.agents.set index after
          batches := batches } ∧
        after.Stands index (produced + 1) false .ranging ∧
        after.call = none ∧
        Waits [⟨id, lapBatch index produced⟩] batches := by
  have inside := (List.getElem?_eq_some_iff.mp found).1
  rcases stands.collect left with ⟨sending, acted, held, same⟩
  have collected := reachable_agent reachable found acted
  have called : Reached formulas { runtime with
      agents := runtime.agents.set index
        { sending with call := some runtime.batches.calls.length }
      batches := runtime.batches.send (lapBatch index produced).deviceID
        (lapBatch index produced) } := by
    refine reachable_step (.send index) collected ?_
    have checked : Ingest.Service.check sending.source.config.deviceID
        (lapBatch index produced) = none := by
      rw [held.source]
      exact check_lapBatch index produced
    simp [step, send, inside, held.sender, same.trans free, checked]
  rcases waits.send (lapBatch index produced).deviceID
    (lapBatch index produced) with ⟨batches, ran, result, loaded⟩
  have posted := reachable_batches ran called
  have held : Agent.Stands index (produced + 1) false
      (.sending (lapBatch index produced))
      { sending with call := some runtime.batches.calls.length } :=
    { held with }
  rcases held.settle with ⟨after, settled, stands, free⟩
  refine ⟨after, batches, _, ?_, stands, free, loaded⟩
  refine reachable_step (.answer index) posted ?_
  simp [step, answer, inside, result, settled]

/-- The aggregator counts the event. -/
theorem count_lap {produced number : Nat}
    (waits : Waits [⟨number, lapBatch index produced⟩] runtime.batches) :
    ∃ batches, Reached formulas { runtime with
          batches := batches
          process := runtime.process.handle
            (sketches formulas longConfig.accuracy) id none
            [lapEvent index produced] } ∧
        Waits [] batches := by
  rcases waits.receive with
    ⟨calling, handled, after, received, attempts, answered, ended, quiet⟩
  have called := reachable_batches received reachable
  have succeeds := (handleItems_valid (long_reliable formulas)
    runtime.process.service (validate_lapBatch index produced)).1
  have counted : Reached formulas { runtime with
      batches := handled
      process := runtime.process.handle
        (sketches formulas longConfig.accuracy) id none
        [lapEvent index produced] } := by
    refine reachable_step (.handleBatch 0) called ?_
    simp only [step, handleBatch, attempts,
      Service.handleBatch, succeeds, answered]
    rfl
  exact ⟨after, reachable_batches ended counted, quiet⟩

/-- The emit loop publishes the window of the event. -/
theorem emit_lap {before : Process Sketch Unit Event} {produced : Nat}
    (rests : Rests before)
    (handled : runtime.process = before.handle
      (sketches formulas longConfig.accuracy) id none
      [lapEvent index produced])
    (emitter : runtime.emitter = .waiting) (free : runtime.call = none)
    (waits : Waits [] runtime.windows) :
    ∃ process windows window id, Reached formulas { runtime with
          process := process
          windows := windows } ∧
        Laps before (lapEvent index produced) window process ∧
        Waits [⟨id, window⟩] windows := by
  rcases rests.lap (long_reliable formulas)
    (validate_lapEvent index produced) with
    ⟨window, collected, attempted, process, emitted, emits, published,
      committed, laps⟩
  rw [← handled] at emitted
  have emitting : Reached formulas { runtime with
      process := collected
      emitter := .publishing } := by
    refine reachable_step (.emit lapTime) reachable ?_
    have always : longConfig.emitOpenWindows = true := rfl
    simp [step, emit, emitter, always, emitted]
  have called : Reached formulas { runtime with
      process := collected
      emitter := .publishing
      windows := runtime.windows.send window.key.shardTag window
      call := some runtime.windows.calls.length } := by
    refine reachable_step .publish emitting ?_
    simp [step, publish, emits, free, Publishing.start]
  rcases waits.send window.key.shardTag window with
    ⟨windows, ran, result, loaded⟩
  have posted := reachable_windows ran called
  have answered : Reached formulas { runtime with
      process := attempted
      emitter := .publishing
      windows := windows
      call := none } := by
    refine reachable_step .published posted ?_
    simp [Runtime.step, Runtime.published, result,
      Runtime.outcomeOf, published]
  have settled : Reached formulas { runtime with
      process := process
      emitter := .publishing
      windows := windows
      call := none } := by
    refine reachable_step .commit answered ?_
    simp [step, commit, committed]
  refine ⟨process, windows, window, _, ?_, laps, loaded⟩
  refine reachable_step .resume settled ?_
  simp [step, resume, laps.rests.emits, emitter, free]

/-- The store applies the window. -/
theorem apply_lap {window : AggregateWindow} {id : Nat}
    (waits : Waits [⟨id, window⟩] runtime.windows) :
    ∃ windows, Reached formulas { runtime with
          windows := windows
          store := (runtime.store.applyWindow none window).1 } ∧
        Waits [] windows := by
  rcases waits.receive with
    ⟨calling, handled, after, received, attempts, answered, ended, quiet⟩
  have called := reachable_windows received reachable
  have applied : Reached formulas { runtime with
      windows := handled
      store := (runtime.store.applyWindow none window).1 } := by
    refine reachable_step (.handleWindow 0) called ?_
    simp only [step, handleWindow, attempts, applyWindow_succeeds, answered]
    rfl
  exact ⟨after, reachable_windows ended applied, quiet⟩

end Reachable

end Runs

/-! ## Laps -/

/--
A runtime whose agents have passed on some events each, and whose store has
applied the windows of all of them.
-/
structure Runtime.Lapped
    (produced : Nat → Nat) (applied : List AggregateWindow)
    (runtime : Runtime narrowBus) : Prop where
  devices : runtime.agents.length = 3
  agents : ∀ (index : Nat) (agent : Agent),
    runtime.agents[index]? = some agent →
      agent.Stands index (produced index) false .ranging ∧ agent.call = none
  batches : Waits [] runtime.batches
  process : Rests runtime.process
  emitter : runtime.emitter = .waiting
  call : runtime.call = none
  windows : Waits [] runtime.windows
  commands : Waits [] runtime.commands
  shutdown : runtime.shutdown = .running
  store : runtime.store = Memory.replay (applied.map Call.applyWindow)
  counted : ∀ window ∈ applied, window.count = 1
  accepted : runtime.process.ledger.accepted.length = applied.length
  emitted : runtime.process.ledger.emitted.length = applied.length
  sequence : runtime.process.service.source.sequence =
    lapTime.unixNano + Int64.ofNat applied.length

namespace Runtime.Lapped

variable {formulas : Formulas} {runtime : Runtime narrowBus}
variable {produced : Nat → Nat} {applied : List AggregateWindow}

/-- One more event of a device. -/
theorem lap (lapped : runtime.Lapped produced applied)
    (reachable : Reached formulas runtime)
    (device : index < 3) (left : produced index < 9223372036854775807) :
    ∃ after window, Reached formulas after ∧ after.Lapped
          (Function.update produced index (produced index + 1))
          (applied ++ [window]) ∧
        window.key = (lapEvent index (produced index)).correlationKey ∧
        window.windowID = lapTime.unixNano / 1 ∧ window.sequence =
          lapTime.unixNano + Int64.ofNat (applied.length + 1) := by
  have inside : index < runtime.agents.length := by
    rw [lapped.devices]
    exact device
  have found := getElem?_eq_getElem inside
  rcases lapped.agents index _ found with ⟨stands, free⟩
  rcases send_lap reachable found stands free left lapped.batches with
    ⟨agent, loaded, number, sent, standing, unbound, holds⟩
  rcases count_lap sent holds with ⟨batches, counted, emptied⟩
  rcases emit_lap counted lapped.process rfl lapped.emitter lapped.call
    lapped.windows with ⟨process, full, window, call, emitted, laps, filled⟩
  rcases apply_lap emitted filled with ⟨windows, stored, drained⟩
  have sequence : process.service.source.sequence =
      lapTime.unixNano + Int64.ofNat (applied.length + 1) := by
    rw [laps.sequence, lapped.sequence, Word.ofNat_succ, add_assoc]
  refine ⟨_, window, stored, ?_, laps.key, laps.windowID,
    laps.number.trans sequence⟩
  refine ⟨length_set.trans lapped.devices, ?_, emptied, laps.rests,
    lapped.emitter, lapped.call, drained, lapped.commands, lapped.shutdown,
    ?_, ?_, ?_, ?_, ?_⟩
  · intro position other present
    rcases Slots.of_set present with ⟨rfl, rfl⟩ | ⟨different, there⟩
    · rw [update_self]
      exact ⟨standing, unbound⟩
    · rw [update_of_ne different]
      exact lapped.agents position other there
  · rw [map_append, map_singleton, Memory.replay_concat, ← lapped.store]
    rfl
  · exact forall_mem_concat lapped.counted laps.count
  · rw [length_append]
    exact laps.accepted.trans (congrArg (fun n => n + 1) lapped.accepted)
  · rw [length_append]
    exact laps.emitted.trans (congrArg (fun n => n + 1) lapped.emitted)
  · rw [length_append]
    exact sequence

/-- A number of events of a device, one after the other. -/
theorem laps (lapped : runtime.Lapped produced applied)
    (reachable : Reached formulas runtime) (device : index < 3)
    (count : Nat) (left : produced index + count ≤ 9223372036854775807) :
    ∃ after added, Reached formulas after ∧ after.Lapped
          (Function.update produced index (produced index + count))
          (applied ++ added) ∧ added.length = count := by
  induction count with
  | zero =>
    refine ⟨runtime, [], reachable, ?_, rfl⟩
    rw [Nat.add_zero, update_eq_self, append_nil]
    exact lapped
  | succ count induction =>
    rcases induction (Nat.le_of_succ_le left) with
      ⟨middle, added, reached, halfway, length⟩
    have more : update produced index (produced index + count)
        index < 9223372036854775807 := by
      rw [update_self]
      exact left
    rcases halfway.lap reached device more with
      ⟨after, window, last, ended, _⟩
    rw [update_idem, update_self, append_assoc] at ended
    refine ⟨after, added ++ [window], last, ended, ?_⟩
    rw [length_append, length]
    rfl

end Runtime.Lapped

end Ironclaw.App
