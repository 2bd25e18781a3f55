import Ironclaw.Aggregate.Accuracy
import Ironclaw.App.LongRun
import Ironclaw.App.Shutdown
import Mathlib.Algebra.Order.BigOperators.Group.List

/-!
# A lossless shutdown

When `Stop` has returned, the aggregator was given every batch that an agent
counts as sent, every event it accepted was emitted, and the store was given
every window that was emitted.  Below `2^64` emissions the identities of the
windows are distinct, so the store has counted each of them once.
-/

namespace Ironclaw.App

open Bus

open Lib Domain Aggregate Ironclaw.Aggregator Pipeline Store List Int64 Agent

variable {bus : Bus.Settings}
variable {config : Config} {agent : Agent}

/-! ## The start -/

theorem accuracy_of_validate {raw : RawConfig} {accepted : Aggregate.Config}
    (checked : raw.validate = .ok accepted) :
    0 ≤ raw.relativeAccuracy ∧ raw.relativeAccuracy < 1 := by
  rw [RawConfig.validate] at checked
  split at checked
  · split at checked
    · cases checked
    · rename_i inside
      rw [not_or, not_lt, not_le] at inside
      exact inside
  · cases checked

/-- A new aggregator has checked the accuracy of its sketches. -/
theorem accuracy_bounds
    {now : Time} {source : Aggregate.Aggregator Sketch Unit}
    (built : Aggregate.Aggregator.new config.aggregator now () = .ok source) :
    0 < config.accuracy ∧ config.accuracy < 1 := by
  have bounds : 0 ≤ config.accuracy ∧ config.accuracy < 1 := by
    rw [Aggregate.Aggregator.new] at built
    split at built
    · cases built
    · next accepted checked => exact accuracy_of_validate checked
  have nonzero : config.accuracy ≠ 0 := by
    rw [Config.accuracy]
    split
    · exact one_div_ne_zero (by norm_num)
    · assumption
  exact ⟨lt_of_le_of_ne bounds.1 nonzero.symm, bounds.2⟩

/-- An agent that has not started. -/
structure Agent.Idle (agent : Agent) : Prop where
  sound : agent.batcher.Sound
  sent : agent.batcher.sent = []
  call : agent.call = none

theorem Agent.idle_of_new
    {index : Nat} (built : new config index = .ok agent) : agent.Idle := by
  rw [new] at built
  split at built
  · cases built
  · split at built
    · cases built
    · cases built
      exact ⟨Batcher.sound_new _, rfl, rfl⟩

theorem Agent.idle_of_build {count : Nat} {agents : List Agent}
    (built : Agent.build config count = .ok agents) :
    ∀ agent ∈ agents, agent.Idle := by
  induction count generalizing agents with
  | zero =>
    cases built
    intro agent member
    cases member
  | succ index induction =>
    rw [build] at built
    split at built
    · cases built
    · rename_i earlier before
      split at built
      · cases built
      · rename_i last created
        cases built
        exact forall_mem_concat (induction before) (idle_of_new created)

theorem fleet_new
    {agents : List Agent} (idle : ∀ agent ∈ agents, agent.Idle) :
    Fleet agents (new bus Batch) (fun _ => False) := by
  have free : ∀ (index id : Nat) (agent : Agent),
      agents[index]? = some agent → ¬agent.Awaits id := by
    intro index id agent found waits
    cases (idle agent (mem_of_getElem? found)).call.symm.trans waits
  constructor
  · intro index agent found
    exact (idle agent (mem_of_getElem? found)).sound
  · constructor
    · intro id
      constructor
      · exact False.elim
      · rintro ⟨index, agent, found, waits⟩
        exact free index id agent found waits
    · intro id first _ left _ found _ waits
      exact absurd waits (free first id left found)
  · intro index id agent found waits
    exact absurd waits (free index id agent found)
  · have nothing : sentBy agents = 0 := by
      apply Slots.total_eq_zero
      intro index agent found
      rw [(idle agent (mem_of_getElem? found)).sent]
      rfl
    rw [nothing]
    exact posted_new

/-- A new runtime has nothing to account for. -/
theorem Runtime.sound_new {now : Time} {runtime : Runtime bus}
    (built : Runtime.new config now = .ok ⟨bus, runtime⟩) :
    (∃ seed, runtime.Sound seed) ∧
      0 < config.accuracy ∧ config.accuracy < 1 := by
  rw [Runtime.new] at built
  split at built
  · cases built
  · split at built
    · cases built
    · split at built
      · cases built
      · rename_i source opened
        split at built
        · cases built
        · rename_i agents started
          cases built
          refine ⟨⟨source.sequence, ?_⟩, accuracy_bounds opened⟩
          rcases new_empty opened with ⟨noneOpen, nonePending⟩
          exact {
            fleet := ⟨_, fleet_new (idle_of_build started)⟩
            intake := {
              sound := Bus.sound_new
              smooth := Bus.smooth_new
              valid := by
                intro batch member
                cases member
              counted := ⟨0, shed_new opened, rfl⟩ }
            output := {
              sound := Bus.sound_new
              smooth := Bus.smooth_new
              linked := by
                intro id waits
                cases waits
              posted := by
                constructor
                · intro id waits
                  cases waits
                · intro id call found
                  cases found
                · rfl
              applied := ⟨[], rfl, rfl⟩ }
            accounted := @Process.accounted_start Sketch Unit Event id
                Publisher.plain ⟨source, some ∅, 0⟩ noneOpen nonePending
            upstream := {
              agents := fun late => absurd late (Nat.not_succ_le_zero 2)
              closed := fun late => absurd late (Nat.not_succ_le_zero 3)
              ended := fun late => absurd late (Nat.not_succ_le_zero 4) }
            emitting := {
              stopped late := absurd late (Nat.not_succ_le_zero 6)
              idle := fun _ _ => rfl
              single := Nat.zero_le 1
              clear := by
                intro publishing member
                cases member
              collected late := absurd late (Nat.not_succ_le_zero 7)
              pending := by rintro ⟨⟩
              published late := absurd late (Nat.not_succ_le_zero 8) }
            downstream := {
              unclosed _ := unclosed_new
              closed late := absurd late (Nat.not_succ_le_zero 9)
              ended late := absurd late (Nat.not_succ_le_zero 10) } }

theorem Runtime.sound_of_reachable
    {formulas : Formulas} {runtime : Runtime bus}
    (reachable : (runtimeMachine formulas config bus).Reachable runtime) :
    ∃ seed, runtime.Sound seed := by
  have checked : (∃ seed, runtime.Sound seed) ∧
      0 < config.accuracy ∧ config.accuracy < 1 := by
    refine @Machine.Reachable.invariant _ _ _
      (fun runtime => (∃ seed, runtime.Sound seed) ∧
        0 < config.accuracy ∧ config.accuracy < 1) _ ?_ ?_ reachable
    · rintro initial ⟨now, built⟩
      exact Runtime.sound_new built
    · rintro before action after _ ⟨⟨seed, sound⟩, positive, small⟩ step
      exact ⟨⟨seed, sound.step (sketches_reliable formulas positive small)
        step⟩, positive, small⟩
  exact checked.1

/-! ## When Stop returns -/

/-- The events in the batches that an agent counts as sent. -/
def Agent.sentEvents (agent : Agent) : Nat :=
  (contents agent.batcher.sent).length

theorem events_sentBy (agents : List Agent) :
    ((sentBy agents).map fun batch => batch.events.length).sum =
      (agents.map sentEvents).sum := by
  induction agents using List.reverseRecOn with
  | nil => rfl
  | append_singleton earlier agent induction =>
    rw [sentBy, Slots.total_append, Multiset.map_add, Multiset.sum_add,
      map_append, sum_append, map_singleton,
      sum_singleton]
    change ((sentBy earlier).map _).sum + _ = _
    rw [induction, Multiset.map_coe, Multiset.sum_coe,
      sentEvents, contents, length_flatMap]

namespace Runtime.Sound

variable {runtime : Runtime bus} {seed : Int64}

section Sound

variable (sound : runtime.Sound seed)
include sound

/-- The aggregator was given the events of the batches that were sent. -/
theorem events_handled (late : 5 ≤ runtime.shutdown.rank) :
    parcelEvents runtime.batches.handled =
      (runtime.agents.map sentEvents).sum := by
  rcases sound.fleet with ⟨awaited, fleet⟩
  have free : ∀ id, ¬awaited id := by
    intro id waits
    rcases (fleet.held.taken id).mp waits with ⟨index, agent, found, awaits⟩
    rcases fleet.linked index id agent found awaits with ⟨batch, sending, _⟩
    exact not_sending_of_returned (fleet.sound index agent found)
      (sound.upstream.agents (le_trans (by decide) late) index agent found)
      batch sending
  have handled := sound.intake.smooth.handled_eq sound.intake.sound
    (fleet.posted.idle free)
    (sound.upstream.closed (le_trans (by decide) late))
    (sound.upstream.ended late)
  rw [handled, parcelEvents, ← events_sentBy, ← fleet.posted.accepted_eq free,
    Multiset.map_map]
  rfl

/-- The store was given the windows that were sent. -/
theorem windows_applied (late : 11 ≤ runtime.shutdown.rank) :
    ∃ order : List AggregateWindow,
      runtime.store = Memory.replay (order.map Call.applyWindow) ∧
        order.Perm runtime.process.sent := by
  have quiet : runtime.process.emits = [] :=
    sound.emitting.emits_eq_nil (le_trans (by decide) late) (by
      intro last
      rw [last] at late
      exact absurd late (by decide))
  have free : ∀ id, runtime.call ≠ some id := by
    intro id waits
    rcases sound.output.linked id waits with ⟨_, _, _, busy, _⟩
    rw [quiet] at busy
    cases busy
  have handled := sound.output.smooth.handled_eq sound.output.sound
    (sound.output.posted.idle free)
    (sound.downstream.closed (le_trans (by decide) late))
    (sound.downstream.ended late)
  rcases sound.output.applied with ⟨order, applied, given⟩
  refine ⟨order, applied, Multiset.coe_eq_coe.mp ?_⟩
  rw [given, handled, sound.output.posted.accepted_eq free]

/-- The store was given every window that was emitted. -/
theorem windows_kept (late : 11 ≤ runtime.shutdown.rank)
    (emissions : runtime.process.ledger.emitted.length < 2 ^ 64) :
    ∃ order : List AggregateWindow,
      runtime.store = Memory.replay (order.map Call.applyWindow) ∧
        (∀ window, window ∈ order ↔ window ∈ runtime.process.ledger.windows) ∧
        (firstBy labelOf ∅ order).Perm runtime.process.ledger.windows := by
  have accounted := sound.accounted
  have tracks := accounted.tracks
  rcases sound.windows_applied late with ⟨order, applied, given⟩
  have nonePending := sound.emitting.published (le_trans (by decide) late)
  have same : ∀ window,
      window ∈ order ↔ window ∈ runtime.process.ledger.windows := by
    intro window
    rw [given.mem_iff]
    constructor
    · exact accounted.sent_emitted window
    · intro emitted
      rw [(tracks.conserved emissions).mem_iff, nonePending,
        GoMap.values_empty, nil_append] at emitted
      exact accounted.acknowledged_sent window
        (accounted.removed_acknowledged emissions window emitted)
  refine ⟨order, applied, same, firstBy_perm_of_distinct ?_ same⟩
  apply (tracks.windows_nodup emissions).map_on
  intro left leftMember right rightMember equal
  exact tracks.eq_of_identity emissions leftMember rightMember equal

theorem accepted_perm (late : 8 ≤ runtime.shutdown.rank) :
    runtime.process.ledger.accepted.Perm
      (runtime.process.ledger.emitted.flatMap Prod.snd) := by
  have tracks := sound.accounted.tracks
  have perm := tracks.accepted_perm
  rw [tracks.opened_eq_nil (sound.emitting.collected late),
    nil_append] at perm
  exact perm

theorem total_eq (late : 11 ≤ runtime.shutdown.rank)
    (emissions : runtime.process.ledger.emitted.length < 2 ^ 64) :
    runtime.store.total = tallyOf id runtime.process.ledger.accepted := by
  rcases sound.windows_kept late emissions with ⟨order, applied, _, kept⟩
  rw [applied, total_replay_windows, (kept.map _).sum_eq, Ledger.windows,
    Tracks.sum_tally_emitted sound.accounted.tracks.emitted_tally,
    tallyOf_perm id (sound.accepted_perm (le_trans (by decide) late))]

/-- Below `2^63` events the counters of the devices do not wrap. -/
theorem events_eq (late : 11 ≤ runtime.shutdown.rank)
    (emissions : runtime.process.ledger.emitted.length < 2 ^ 64)
    (small : runtime.process.ledger.accepted.length < 2 ^ 63) :
    runtime.store.events = runtime.process.ledger.accepted.length := by
  rcases sound.windows_kept late emissions with ⟨order, applied, same, kept⟩
  have length : (runtime.process.ledger.emitted.map fun entry =>
      entry.2.length).sum = runtime.process.ledger.accepted.length := by
    rw [(sound.accepted_perm (le_trans (by decide) late)).length_eq,
      length_flatMap]
  have faithful : ∀ entry ∈ runtime.process.ledger.emitted,
      entry.1.count.toInt = entry.2.length := by
    intro entry member
    have count := congrArg Tally.count
      (sound.accounted.tracks.emitted_tally entry member)
    have part : entry.2.length < 2 ^ 63 := by
      apply lt_of_le_of_lt _ small
      rw [← length]
      apply single_le_sum (fun _ _ => Nat.zero_le _)
      exact mem_map.mpr ⟨entry, member, rfl⟩
    rw [show entry.1.count = ofNat entry.2.length from
      count.trans (sum_tally_count id entry.2),
      toInt_ofNat_of_lt part]
  have sum : ((firstBy labelOf ∅ order).map fun window =>
      window.count.toInt).sum = runtime.process.ledger.accepted.length := by
    rw [(kept.map _).sum_eq, ← length, Ledger.windows, map_map,
      Nat.cast_list_sum, map_map]
    congr 1
    exact map_congr_left faithful
  have counts : ∀ window ∈ order, 0 ≤ window.count.toInt := by
    intro window member
    rcases mem_map.mp ((same window).mp member) with ⟨entry, emitted, rfl⟩
    rw [faithful entry emitted]
    exact Int.natCast_nonneg _
  rw [applied, (events_replay_windows counts (by omega)).2, sum]

end Sound

end Runtime.Sound

/--
What the batcher of an agent has to account for: the events it accepted, but
for those it dropped and those of the batches whose `Send` failed.
-/
def Agent.owed (agent : Agent) : Int64 :=
  agent.batcher.stats.eventsAccepted - agent.batcher.stats.eventsDropped -
    Int64.ofNat (contents agent.batcher.failed).length

theorem Agent.owed_eq
    (sound : agent.batcher.Sound) (returned : agent.returned = true) :
    agent.owed = ofNat agent.sentEvents := by
  rcases (returned_iff agent).mp returned with ⟨result, stage⟩
  have counted := sound.books.counted
  rw [owed, counted.accepted, counted.eventsDropped,
    sound.length_accepted stage, Int64.ofNat_add, Int64.ofNat_add,
    Int64.add_sub_cancel, Int64.add_sub_cancel]
  rfl

/-- The same as a number, where the counters do not wrap. -/
def Agent.owedEvents (agent : Agent) : Int :=
  agent.batcher.stats.eventsAccepted.toInt -
      agent.batcher.stats.eventsDropped.toInt -
    (contents agent.batcher.failed).length

theorem Agent.owedEvents_eq
    (sound : agent.batcher.Sound) (returned : agent.returned = true)
    (small : agent.batcher.accepted.length < 2 ^ 63) :
    agent.owedEvents = agent.sentEvents := by
  rcases (returned_iff agent).mp returned with ⟨result, stage⟩
  have counted := sound.books.counted
  have total := sound.length_accepted stage
  have dropped : (contents agent.batcher.dropped).length < 2 ^ 63 := by
    omega
  rw [owedEvents, counted.accepted, counted.eventsDropped,
    toInt_ofNat_of_lt small, toInt_ofNat_of_lt dropped, total,
    sentEvents]
  omega

namespace Runtime.Sound

variable {runtime : Runtime bus} {seed : Int64}

section Sound

variable (sound : runtime.Sound seed) (late : 5 ≤ runtime.shutdown.rank)
include sound late

theorem agents_returned :
    ∀ agent ∈ runtime.agents,
      agent.batcher.Sound ∧ agent.returned = true := by
  intro agent member
  rcases sound.fleet with ⟨awaited, fleet⟩
  rcases mem_iff_getElem?.mp member with ⟨index, found⟩
  exact ⟨fleet.sound index agent found,
    sound.upstream.agents (le_trans (by decide) late) index agent found⟩

/-- What the batchers have to account for was shed or accepted. -/
theorem owed_eq :
    (runtime.agents.map Agent.owed).sum -
        runtime.process.service.source.shed =
      ofNat runtime.process.ledger.accepted.length := by
  rcases sound.intake.counted with ⟨lost, shed, balance⟩
  rw [sound.events_handled late] at balance
  have owed : (runtime.agents.map owed).sum =
      ofNat (runtime.agents.map sentEvents).sum := by
    rw [← Word.sum_map_ofNat]
    congr 1
    apply map_congr_left
    intro agent member
    rcases sound.agents_returned late agent member with ⟨books, returned⟩
    exact Agent.owed_eq books returned
  rw [owed, ← balance, Int64.ofNat_add, shed, Int64.add_sub_cancel]

/-- The same of the numbers that the counters stand for. -/
theorem owedEvents_eq
    (small : (runtime.agents.map fun agent =>
      agent.batcher.accepted.length).sum < 2 ^ 63) :
    (runtime.agents.map Agent.owedEvents).sum -
          runtime.process.service.source.shed.toInt =
        runtime.process.ledger.accepted.length ∧
      runtime.process.ledger.accepted.length < 2 ^ 63 := by
  rcases sound.intake.counted with ⟨lost, shed, balance⟩
  rw [sound.events_handled late] at balance
  have fewer : (runtime.agents.map sentEvents).sum ≤
      (runtime.agents.map fun agent =>
        agent.batcher.accepted.length).sum := by
    apply sum_le_sum
    intro agent member
    rcases sound.agents_returned late agent member with ⟨books, returned⟩
    rcases (returned_iff agent).mp returned with ⟨result, stage⟩
    have total := books.length_accepted stage
    rw [sentEvents]
    omega
  have owed : (runtime.agents.map owedEvents).sum =
      ((runtime.agents.map sentEvents).sum : Nat) := by
    rw [Nat.cast_list_sum, map_map]
    congr 1
    apply map_congr_left
    intro agent member
    rcases sound.agents_returned late agent member with ⟨books, returned⟩
    apply Agent.owedEvents_eq books returned
    apply lt_of_le_of_lt _ small
    apply single_le_sum (fun _ _ => Nat.zero_le _)
    exact mem_map.mpr ⟨agent, member, rfl⟩
  rw [owed, shed, toInt_ofNat_of_lt (by omega), ← balance]
  omega

end Sound

end Runtime.Sound

/--
A shutdown loses nothing.  In every run in which `Stop` has returned, whatever
the agents, the consumers, the emit loop and the store did before and while it
ran, the counters of all devices add up to what the batchers have to account
for, without what the aggregator shed.  This holds of the 64-bit counters as
long as fewer than `2^64` windows were emitted, and of the numbers they stand
for when the batchers also accepted fewer than `2^63` events.
-/
theorem lossless_shutdown
    {formulas : Formulas} {config : Config} {runtime : Runtime bus}
    (reachable : (runtimeMachine formulas config bus).Reachable runtime)
    (returned : runtime.shutdown = .returned)
    (emissions : runtime.process.ledger.emitted.length < 2 ^ 64) :
    runtime.store.total.count = (runtime.agents.map Agent.owed).sum -
          runtime.process.service.source.shed ∧
      ((runtime.agents.map fun agent =>
            agent.batcher.accepted.length).sum < 2 ^ 63 →
        runtime.store.events = (runtime.agents.map Agent.owedEvents).sum -
            runtime.process.service.source.shed.toInt) := by
  rcases Runtime.sound_of_reachable reachable with ⟨seed, sound⟩
  have late : 11 ≤ runtime.shutdown.rank := by
    rw [returned]
    decide
  constructor
  · rw [sound.owed_eq (le_trans (by decide) late),
      sound.total_eq late emissions]
    exact sum_tally_count id _
  · intro small
    rcases sound.owedEvents_eq (le_trans (by decide) late) small with
      ⟨owed, fits⟩
    rw [owed, sound.events_eq late emissions fits]

/-- Windows of one event each count as many events as identities. -/
theorem count_replay_single {windows : List AggregateWindow}
    (single : ∀ window ∈ windows, window.count = 1) :
    (Memory.replay (windows.map Call.applyWindow)).total.count =
      ofNat (firstBy labelOf ∅ windows).length := by
  have ones : ((firstBy labelOf ∅ windows).map
      AggregateWindow.tally).map Tally.count =
        (firstBy labelOf ∅ windows).map fun _ => ofNat 1 := by
    rw [map_map]
    apply map_congr_left
    intro window member
    exact single window ((firstBy_sublist ∅ windows).subset member)
  rw [total_replay_windows, Tally.sum_count, ones, Word.sum_map_ofNat]
  simp

/-- One event on its way to the store, and then the shutdown. -/
theorem lossless_shutdown_single_event : ∃ runtime : Runtime narrowBus,
      (runtimeMachine logarithmic longConfig narrowBus).Reachable runtime ∧
        runtime.shutdown = .returned ∧ runtime.store.total.count = 1 ∧
        runtime.store.total.count = (runtime.agents.map Agent.owed).sum -
            runtime.process.service.source.shed := by
  rcases exists_lapped logarithmic with ⟨start, reachable, lapped⟩
  rcases lapped.lap reachable (by decide : 0 < 3) (by decide) with
    ⟨stored, window, reachable, lapped, _⟩
  rcases lapped.stop reachable with
    ⟨runtime, reachable, returned, store, _, emitted⟩
  have emissions : runtime.process.ledger.emitted.length < 2 ^ 64 := by
    rw [emitted, lapped.emitted]
    exact Nat.one_lt_two_pow (by decide)
  refine ⟨runtime, reachable, returned, ?_,
    (lossless_shutdown reachable returned emissions).1⟩
  rw [store, lapped.store, count_replay_single lapped.counted]
  rfl

/--
Without the bound a window can be lost.  After `2^64` emissions the sequence
numbers come up again; when they do for a window of the same device, process
and time, the store takes it for one it has applied.
-/
theorem shutdown_loses_repeated_identity :
    ¬∀ (formulas : Formulas) (config : Config) (bus : Bus.Settings)
      (runtime : Runtime bus),
      (runtimeMachine formulas config bus).Reachable runtime →
        runtime.shutdown = .returned → runtime.store.total.count =
            (runtime.agents.map Agent.owed).sum -
              runtime.process.service.source.shed := by
  intro lossless
  rcases exists_overrun logarithmic with
    ⟨full, first, second, middle, last, reachable, ⟨produced, lapped⟩,
      length, different, same⟩
  rcases lapped.stop reachable with
    ⟨runtime, reachable, returned, store, accepted, _⟩
  have equal := lossless logarithmic longConfig narrowBus runtime reachable
    returned
  rcases Runtime.sound_of_reachable reachable with ⟨seed, sound⟩
  have late : 5 ≤ runtime.shutdown.rank := by
    rw [returned]
    decide
  rw [sound.owed_eq late, store, lapped.store,
    count_replay_single lapped.counted, accepted, lapped.accepted] at equal
  have repeated : labelOf last ∈
      ∅ ∪ keysOf labelOf (first :: second :: middle) := by
    rw [Finset.empty_union, mem_keysOf]
    exact ⟨first, mem_cons_self, same.symm⟩
  have kept : firstBy labelOf ∅ (first :: second :: middle) =
      first :: second ::
        firstBy labelOf {labelOf second, labelOf first} middle := by
    simp [firstBy, different]
  have total : (first :: second :: middle ++ [last]).length =
      18446744073709551617 := by
    simp [length]
  rw [firstBy_concat, if_pos repeated, kept, total, length_cons,
    Word.ofNat_succ] at equal
  have fewer : (firstBy labelOf {labelOf second, labelOf first}
      middle).length + 1 < 2 ^ 64 := by
    have bound := (@firstBy_sublist _ _ _ labelOf
      {labelOf second, labelOf first} middle).length_le
    omega
  have shifted := congrArg (fun number => number - 1) equal
  simp only [length_cons, Int64.add_sub_cancel] at shifted
  have zero := (Word.ofNat_eq_zero_iff fewer).mp shifted
  cases zero

end Ironclaw.App
