import Ironclaw.App.Flow

/-!
# The order of a shutdown

`Stop` waits for each stage of the runtime before it closes the next one.  What
it has waited for is known from then on: no agent sends any more, the consumer
groups have returned, nothing is open or pending after the last emission.
`Runtime.Sound` joins this with what the components hand to each other, and
every step of the runtime keeps it.
-/

namespace Ironclaw.App

open Lib Domain Aggregate Ironclaw.Aggregator Pipeline Store List Process
open App.Runtime

variable {bus : Bus.Settings}

/-! ## The order of the stages -/

/-- What `shutdown` has waited for on the way to the aggregator. -/
structure Upstream
    (stage : Shutdown) (agents : List Agent) (batches : Bus bus Batch) :
    Prop where
  agents : 3 ≤ stage.rank → ∀ (index : Nat) (agent : Agent),
    agents[index]? = some agent → agent.returned = true
  closed : 4 ≤ stage.rank → batches.closer = .done
  ended : 5 ≤ stage.rank → batches.Ended

/-- What it has waited for on the way to the store. -/
structure Downstream
    (stage : Shutdown) (windows : Bus bus AggregateWindow) : Prop where
  unclosed : stage.rank ≤ 8 → windows.Unclosed
  closed : 10 ≤ stage.rank → windows.closer = .done
  ended : 11 ≤ stage.rank → windows.Ended

/--
The emit loop and `shutdown` emit one after the other.  The last emission
takes every open window, and publishes every window that is pending.
-/
structure Emitting
    (stage : Shutdown) (emitter : Emitter)
    (process : Process Sketch Unit Event) : Prop where
  stopped : 7 ≤ stage.rank → emitter = .returned
  idle : emitter ≠ .publishing → stage ≠ .publishing → process.emits = []
  single : process.emits.length ≤ 1
  clear : ∀ publishing ∈ process.emits,
    publishing.target = 0 ∧ publishing.firstErr = none
  collected : 8 ≤ stage.rank → process.service.source.openWindows = ∅
  pending : stage = .publishing → ∀ identity window,
    process.service.source.pending.lookup identity = some window →
      ∃ publishing ∈ process.emits,
        window ∈ publishing.published ++ publishing.remaining
  published : 9 ≤ stage.rank → process.service.source.pending = ∅

section Upstream

variable {stage : Shutdown} {agents : List Agent}
variable {batches after : Bus bus Batch}
variable (upstream : Upstream stage agents batches)
include upstream

theorem Upstream.agent
    {index : Nat} {agent next : Agent} (found : agents[index]? = some agent)
    (kept : agent.returned = true → next.returned = true) :
    Upstream stage (agents.set index next) batches :=
  { upstream with
    agents := by
      intro reached position other present
      rcases Slots.of_set present with ⟨_, rfl⟩ | ⟨_, there⟩
      · exact kept (upstream.agents reached index agent found)
      · exact upstream.agents reached position other there }

theorem Upstream.move (works : Works batches after) :
    Upstream stage agents after where
  agents := upstream.agents
  closed reached := works.closed (upstream.closed reached)
  ended reached := works.ended (upstream.ended reached)

theorem Upstream.send (key : String) (batch : Batch) :
    Upstream stage agents (batches.send key batch) :=
  { upstream with
    ended := fun reached => (upstream.ended reached).of_consumers rfl }

theorem Upstream.handle {index : Nat} {batch : Batch}
    (attempts : Runtime.attempting batches index = some batch)
    (step : batches.handle index none = some after) :
    Upstream stage agents after where
  agents := upstream.agents
  closed reached := by
    rcases Bus.handle_cases step with ⟨_, _, _, _, _, _, rfl⟩
    exact upstream.closed reached
  ended reached := absurd attempts
      (not_attempting_of_ended (upstream.ended reached) index batch)

/-- The next stage waits for the same. -/
theorem Upstream.enter
    {next : Shutdown} (same : next.rank ≤ 2 ∨ 5 ≤ stage.rank) :
    Upstream next agents batches := by
  rcases same with early | late
  · constructor <;>
      exact fun reached => absurd (reached.trans early) (by decide)
  · constructor
    · exact fun _ => upstream.agents (le_trans (by decide) late)
    · exact fun _ => upstream.closed (le_trans (by decide) late)
    · exact fun _ => upstream.ended late

end Upstream

section Downstream

variable {stage : Shutdown} {windows after : Bus bus AggregateWindow}

theorem downstream_closing (windows : Bus bus AggregateWindow) :
    Downstream .closingWindows windows where
  unclosed early := absurd early (by decide)
  closed reached := absurd reached (by decide)
  ended reached := absurd reached (by decide)

variable (downstream : Downstream stage windows)
include downstream

theorem Downstream.move (smooth : windows.Smooth) (sound : windows.Sound)
    {action : Bus.Action bus AggregateWindow}
    (step : Runtime.move action windows = some after) :
    Downstream stage after where
  unclosed early := unclosed_move smooth step (downstream.unclosed early)
  closed reached :=
    (works_move sound smooth step).closed (downstream.closed reached)
  ended reached :=
    (works_move sound smooth step).ended (downstream.ended reached)

theorem Downstream.send (key : String) (window : AggregateWindow) :
    Downstream stage (windows.send key window) where
  unclosed early := (downstream.unclosed early).send key window
  closed := downstream.closed
  ended reached := (downstream.ended reached).of_consumers rfl

theorem Downstream.handle {index : Nat} {window : AggregateWindow}
    (attempts : Runtime.attempting windows index = some window)
    (step : windows.handle index none = some after) :
    Downstream stage after := by
  rcases Bus.handle_cases step with ⟨_, _, _, _, _, _, rfl⟩
  constructor
  · intro early
    exact { downstream.unclosed early with }
  · exact downstream.closed
  · intro reached
    exact absurd attempts
      (not_attempting_of_ended (downstream.ended reached) index window)

/-- The next stage waits for the same. -/
theorem Downstream.enter {next : Shutdown}
    (same : stage.rank ≤ next.rank ∧ (next.rank ≤ 8 ∨ 11 ≤ stage.rank)) :
    Downstream next windows := by
  rcases same with ⟨order, early | late⟩
  · constructor
    · exact fun _ => downstream.unclosed (order.trans early)
    · exact fun reached => absurd (reached.trans early) (by decide)
    · exact fun reached => absurd (reached.trans early) (by decide)
  · constructor
    · exact fun early => absurd (late.trans (order.trans early)) (by decide)
    · exact fun _ => downstream.closed (le_trans (by decide) late)
    · exact fun _ => downstream.ended late

end Downstream

section Emitting

variable {stage : Shutdown} {emitter : Emitter}
variable {process next : Process Sketch Unit Event}
variable {ops : SketchOps Sketch Unit}

theorem emits_collect (reliable : ops.Reliable) (included : WindowKey → Bool)
    (idle : process.emits = []) :
    (process.collect ops id included).emits = [Publishing.start
        (process.service.source.collect ops included).2.1] := by
  have succeeds : (process.service.source.collect ops included).2.2 =
      none := by
    rw [collect_reliable reliable]
  simp only [collect, succeeds, idle]
  rfl

theorem start_single {windows : List AggregateWindow}
    (started : process.emits = [Publishing.start windows]) :
    process.emits.length ≤ 1 ∧ ∀ publishing ∈ process.emits,
      publishing.target = 0 ∧ publishing.firstErr = none := by
  rw [started]
  exact ⟨le_refl 1, forall_mem_singleton.mpr ⟨rfl, rfl⟩⟩

namespace Emitting

theorem emits_eq_nil
    (emitting : Emitting stage emitter process) (late : 7 ≤ stage.rank)
    (other : stage ≠ .publishing) : process.emits = [] := by
  apply emitting.idle _ other
  rw [emitting.stopped late]
  rintro ⟨⟩

/-- A tick of the emit loop. -/
theorem tick
    (emitting : Emitting stage .waiting process) (reliable : ops.Reliable)
    (included : WindowKey → Bool) :
    Emitting stage .publishing (process.collect ops id included) := by
  have early : ¬7 ≤ stage.rank := by
    intro reached
    cases emitting.stopped reached
  have other : stage ≠ .publishing := by
    rintro rfl
    exact early (by decide)
  have idle : process.emits = [] := emitting.idle (by rintro ⟨⟩) other
  have started := emits_collect reliable included idle
  constructor
  · exact fun reached => absurd reached early
  · exact fun running => absurd rfl running
  · exact (start_single started).1
  · exact (start_single started).2
  · exact fun reached => absurd (Nat.le_of_succ_le reached) early
  · exact fun last => absurd last other
  · exact fun reached =>
      absurd (Nat.le_of_succ_le (Nat.le_of_succ_le reached)) early

/-- The last emission starts. -/
theorem finish (emitting : Emitting .emitting emitter process)
    (reliable : ops.Reliable) :
    Emitting .publishing emitter (process.collect ops id fun _ => true) := by
  have started := emits_collect reliable (fun _ => true)
    (emitting.emits_eq_nil (le_refl 7) (by rintro ⟨⟩))
  constructor
  · exact fun _ => emitting.stopped (le_refl 7)
  · exact fun _ other => absurd rfl other
  · exact (start_single started).1
  · exact (start_single started).2
  · exact fun _ => open_collectAll reliable process.service.source
  · intro _ identity window present
    rw [started]
    exact ⟨_, mem_singleton_self _,
      pending_collect reliable _ process.service.source present⟩
  · exact fun reached => absurd reached (by decide)

section Kept

variable (emitting : Emitting stage emitter process)
include emitting

/-- The next stage finds the aggregator as it was. -/
theorem enter {next : Shutdown}
    (same : next.rank ≤ 6 ∧ stage.rank ≤ 6 ∨ 9 ≤ next.rank ∧ 9 ≤ stage.rank) :
    Emitting next emitter process := by
  have other : stage ≠ .publishing := by
    rintro rfl
    simp [Shutdown.rank] at same
  have elsewhere : next ≠ .publishing := by
    rintro rfl
    simp [Shutdown.rank] at same
  have reaches : ∀ rank, 7 ≤ rank → rank ≤ 9 → rank ≤ next.rank →
      rank ≤ stage.rank := by
    omega
  exact { emitting with
    stopped := fun reached =>
      emitting.stopped (reaches 7 (by decide) (by decide) reached)
    idle := fun running _ => emitting.idle running other
    collected := fun reached =>
      emitting.collected (reaches 8 (by decide) (by decide) reached)
    pending := fun last => absurd last elsewhere
    published := fun reached =>
      emitting.published (reaches 9 (by decide) (by decide) reached) }

/-- Batches are handled before the aggregator is flushed. -/
theorem handle (early : stage.rank < 8) (emits : next.emits = process.emits) :
    Emitting stage emitter next where
  stopped := emitting.stopped
  idle := by
    rw [emits]
    exact emitting.idle
  single := by
    rw [emits]
    exact emitting.single
  clear := by
    rw [emits]
    exact emitting.clear
  collected reached := absurd early (not_lt.mpr reached)
  pending last := by
    rw [last] at early
    exact absurd early (lt_irrefl 8)
  published reached := absurd early (not_lt.mpr (Nat.le_of_succ_le reached))

/-- The publication in progress is the only one. -/
theorem eq_singleton {publishing : Publishing}
    (present : process.emits[0]? = some publishing) :
    process.emits = [publishing] := by
  have length := emitting.single
  cases emits : process.emits with
  | nil =>
    rw [emits] at present
    cases present
  | cons head tail =>
    rw [emits] at present length
    cases present
    rw [length_eq_zero_iff.mp (Nat.le_zero.mp
      (Nat.le_of_succ_le_succ length))]

/-- The first window of a publication is published. -/
theorem attempt
    {result : Option Fault} (delivered : stage = .publishing → result = none)
    (step : process.attempt Publisher.plain 0 (Runtime.outcomeOf result) =
      some next) :
    Emitting stage emitter next := by
  rcases attempt_cases step with
    ⟨publishing, window, rest, present, first, rfl⟩
  have single := emitting.eq_singleton present
  have clear := emitting.clear publishing (mem_of_getElem? present)
  have after : publishing.attempt Publisher.plain.targets
      (outcomeOf result) window rest =
        publishing.returned window rest result := by
    rw [Publishing.attempt, clear.1, clear.2]
    cases result <;> rfl
  rw [after, single]
  constructor
  · exact emitting.stopped
  · intro other later
    cases single.symm.trans (emitting.idle other later)
  · exact le_refl 1
  · exact forall_mem_singleton.mpr ⟨rfl, rfl⟩
  · exact emitting.collected
  · intro last identity held kept
    rcases emitting.pending last identity held kept with
      ⟨other, member, inside⟩
    rw [single] at member
    rw [mem_singleton.mp member, first] at inside
    refine ⟨_, mem_singleton_self _, ?_⟩
    rw [delivered last, Publishing.returned]
    simpa using inside
  · exact emitting.published

/-- A publication ends with its commit. -/
theorem commit
    (identified : ∀ identity window,
      process.service.source.pending.lookup identity = some window →
        identity = window.identity)
    (step : process.commit 0 = some next) :
    Emitting stage emitter next ∧ next.emits = [] := by
  rcases commit_cases step with ⟨publishing, present, finished, rfl⟩
  have single := emitting.eq_singleton present
  have source := Service.source_finish publishing process.service
  have emptied : (process.emits.eraseIdx 0) = [] := by
    rw [single]
    rfl
  refine ⟨?_, emptied⟩
  constructor
  · exact emitting.stopped
  · exact fun _ _ => emptied
  · rw [emptied]
    exact Nat.zero_le 1
  · rw [emptied]
    exact forall_mem_nil _
  · intro reached
    rw [source]
    exact emitting.collected reached
  · intro last identity window kept
    have committed : (process.service.source.commit
        publishing.published).pending = ∅ := by
      apply pending_commit identified
      intro other held known
      rcases emitting.pending last other held known with
        ⟨current, member, inside⟩
      rw [single] at member
      rw [mem_singleton.mp member, finished, append_nil] at inside
      exact inside
    rw [source, committed] at kept
    cases kept
  · intro reached
    have none := emitting.emits_eq_nil (le_trans (by decide) reached) (by
      rintro rfl
      exact absurd reached (by decide))
    cases single.symm.trans none

end Kept

end Emitting

end Emitting

/-! ## Every step -/

namespace Runtime

/-- The books of all stages. -/
structure Sound (seed : Int64) (runtime : Runtime bus) : Prop where
  fleet : ∃ awaited, Fleet runtime.agents runtime.batches awaited
  intake : Intake runtime.batches runtime.process
  output : Output runtime.process runtime.call runtime.windows
    runtime.store
  accounted : runtime.process.Accounted id Publisher.plain seed
  upstream : Upstream runtime.shutdown runtime.agents runtime.batches
  emitting : Emitting runtime.shutdown runtime.emitter runtime.process
  downstream : Downstream runtime.shutdown runtime.windows

variable {runtime after : Runtime bus} {seed : Int64} {index : Nat}
variable {ops : SketchOps Sketch Unit}

namespace Sound

theorem returned_settle {agent next : Agent} {result : Option Fault}
    (sound : agent.batcher.Sound) (settled : agent.settle result = some next)
    (ended : agent.returned = true) : next.returned = true := by
  rcases Agent.settle_cases sound settled with ⟨_, _, _, _, same, _⟩
  exact same.trans ended

section Sound

variable (sound : runtime.Sound seed)
include sound

theorem agent {action : Agent.Action}
    (step : runtime.agent index action = some after) : after.Sound seed := by
  rcases sound.fleet with ⟨awaited, fleet⟩
  rw [Runtime.agent] at step
  split at step
  · cases step
  · rename_i agent found
    rcases Option.map_eq_some_iff.mp step with ⟨next, acted, rfl⟩
    have kept := Agent.keeps_act (fleet.sound index agent found) acted
    exact { sound with
      fleet := ⟨awaited, fleet.keep found kept⟩
      upstream := sound.upstream.agent found kept.returned }

theorem send (step : runtime.send index = some after) : after.Sound seed := by
  rcases sound.fleet with ⟨awaited, fleet⟩
  rw [Runtime.send] at step
  split at step
  · cases step
  · rename_i agent found
    split at step
    · rename_i batch sending free
      split at step
      · rename_i fault _
        rcases Option.map_eq_some_iff.mp step with ⟨next, settled, rfl⟩
        exact { sound with
          fleet := ⟨awaited, fleet.refuse found free settled⟩
          upstream := sound.upstream.agent found
            (returned_settle (fleet.sound index agent found) settled) }
      · rename_i passed
        cases step
        have valid := Ingest.Service.validate_of_check passed
        have upstream := @Upstream.agent _ _ _ _ sound.upstream _ _
          { agent with call := some runtime.batches.calls.length }
          found fun ended => ended
        exact { sound with
          fleet := ⟨_, fleet.send found sending free _⟩
          intake := sound.intake.send _ valid
          upstream := upstream.send _ batch }
    · cases step

theorem answer (step : runtime.answer index = some after) :
    after.Sound seed := by
  rcases sound.fleet with ⟨awaited, fleet⟩
  rw [Runtime.answer] at step
  split at step
  · cases step
  · rename_i agent found
    split at step
    · cases step
    · rename_i result returned
      rcases call_of_resultOf returned with ⟨id, key, value, waits, answered⟩
      rcases Option.map_eq_some_iff.mp step with ⟨next, settled, rfl⟩
      exact { sound with
        fleet := ⟨_, fleet.answer found waits answered settled⟩
        upstream := sound.upstream.agent found
          (returned_settle (fleet.sound index agent found) settled) }

theorem batches
    {batches : Bus bus Batch} (works : Works runtime.batches batches) :
    ({ runtime with batches := batches } : Runtime bus).Sound seed := by
  rcases sound.fleet with ⟨awaited, fleet⟩
  exact { sound with
    fleet := ⟨awaited, fleet.move works⟩
    intake := sound.intake.move works
    upstream := sound.upstream.move works }

theorem expire (step : runtime.expire index = some after) :
    after.Sound seed := by
  rw [Runtime.expire] at step
  split at step
  · cases step
  · split at step
    · rcases Option.map_eq_some_iff.mp step with ⟨batches, expired, rfl⟩
      exact sound.batches
        (works_expire sound.intake.sound sound.intake.smooth expired)
    · cases step

theorem handleBatch (reliable : ops.Reliable)
    (step : runtime.handleBatch ops index = some after) :
    after.Sound seed := by
  rcases sound.fleet with ⟨awaited, fleet⟩
  rw [Runtime.handleBatch] at step
  split at step
  · cases step
  · rename_i batch attempts
    simp only [sound.intake.handleBatch_succeeds reliable attempts] at step
    rcases Option.map_eq_some_iff.mp step with ⟨batches, handled, rfl⟩
    have early : runtime.shutdown.rank < 8 := by
      by_contra late
      have ended := sound.upstream.ended
        (le_trans (by decide) (not_lt.mp late))
      exact not_attempting_of_ended ended index batch attempts
    exact {
      fleet := ⟨awaited, fleet.handle handled⟩
      intake := sound.intake.handle reliable attempts handled
      output := sound.output.keep rfl rfl
      accounted := sound.accounted.handle none batch.events
      upstream := sound.upstream.handle attempts handled
      emitting := sound.emitting.handle early rfl
      downstream := sound.downstream }

theorem call_eq_none (idle : runtime.process.emits = []) :
    runtime.call = none := by
  cases waits : runtime.call with
  | none => rfl
  | some id =>
    rcases sound.output.linked id waits with ⟨_, _, _, emits, _⟩
    rw [idle] at emits
    cases emits

/-- A collect starts a publication. -/
theorem collect (idle : runtime.process.emits = [])
    (included : WindowKey → Bool) {stage : Shutdown} {emitter : Emitter}
    (upstream : Upstream stage runtime.agents runtime.batches)
    (emitting : Emitting stage emitter
      (runtime.process.collect ops id included))
    (downstream : Downstream stage runtime.windows) :
    ({ runtime with
      process := runtime.process.collect ops id included
      emitter := emitter
      shutdown := stage } : Runtime bus).Sound seed where
  fleet := sound.fleet
  intake := by
    apply sound.intake.emit
    · exact Ledger.accepted_emitAll _ _ _
    · exact shed_collect ops included runtime.process.service.source
  output := by
    have output := sound.output
    rw [sound.call_eq_none idle] at output
    show Output _ runtime.call _ _
    rw [sound.call_eq_none idle]
    exact output.idle rfl
  accounted := sound.accounted.collect included
  upstream := upstream
  emitting := emitting
  downstream := downstream

theorem emit (reliable : ops.Reliable) {openWindows : Bool} {now : Time}
    (step : runtime.emit ops openWindows now = some after) :
    after.Sound seed := by
  rw [Runtime.emit] at step
  split at step
  · rename_i waiting
    have emitting := sound.emitting
    rw [waiting] at emitting
    have idle : runtime.process.emits = [] := by
      apply emitting.idle
      · rintro ⟨⟩
      · intro last
        cases emitting.stopped (by rw [last]; decide)
    have ticks : ∀ included, ({ runtime with
          process := runtime.process.collect ops id included
          emitter := .publishing } : Runtime bus).Sound seed :=
      fun included => sound.collect idle included sound.upstream
        (emitting.tick reliable included) sound.downstream
    rcases Option.map_eq_some_iff.mp step with ⟨process, collected, rfl⟩
    cases openWindows with
    | true | false =>
      cases collected
      exact ticks _
  · cases step

theorem publish (step : runtime.publish = some after) : after.Sound seed := by
  rw [Runtime.publish] at step
  split at step
  · rename_i publishing others emits free
    split at step
    · cases step
    · rename_i window rest first
      cases step
      have single : runtime.process.emits = [publishing] := by
        apply sound.emitting.eq_singleton
        rw [emits]
        rfl
      have output := sound.output
      rw [free] at output
      exact { sound with
        output := output.publish single first _
        downstream := sound.downstream.send _ window }
  · cases step

theorem result_eq_none {id : Nat} {key : String} {value : AggregateWindow}
    {result : Option Fault} (early : runtime.shutdown.rank ≤ 8)
    (answered : runtime.windows.calls[id]? =
      some ⟨key, value, .returned result⟩) : result = none := by
  have clear := (sound.downstream.unclosed early).clear _
    (mem_of_getElem? answered)
  exact Option.isNone_iff_eq_none.mp clear

theorem published (step : runtime.published = some after) :
    after.Sound seed := by
  rw [Runtime.published] at step
  split at step
  · cases step
  · rename_i result returned
    rcases call_of_resultOf returned with ⟨id, key, value, waits, answered⟩
    rcases Option.map_eq_some_iff.mp step with ⟨process, attempted, rfl⟩
    have delivered : runtime.shutdown = .publishing → result = none := by
      intro last
      apply sound.result_eq_none _ answered
      rw [last]
      decide
    have target : ∀ publishing ∈ runtime.process.emits,
        publishing.target = 0 :=
      fun publishing member => (sound.emitting.clear publishing member).1
    have frame : process.ledger = runtime.process.ledger ∧
        process.service = runtime.process.service := by
      rcases attempt_cases attempted with ⟨_, _, _, _, _, rfl⟩
      exact ⟨rfl, rfl⟩
    exact { sound with
      intake := by
        apply sound.intake.emit
        · rw [frame.1]
        · rw [frame.2]
      output := sound.output.published waits answered target attempted
      accounted := sound.accounted.attempt attempted
      emitting := sound.emitting.attempt delivered attempted }

theorem commit (step : runtime.commit = some after) : after.Sound seed := by
  rcases Option.map_eq_some_iff.mp step with ⟨process, committed, rfl⟩
  have identified : ∀ identity window,
      runtime.process.service.source.pending.lookup identity =
        some window → identity = window.identity :=
    fun identity window present =>
      (sound.accounted.tracks.pending_emitted identity window present).1
  have free : runtime.call = none := by
    rcases commit_cases committed with ⟨publishing, present, done, _⟩
    cases waits : runtime.call with
    | none => rfl
    | some id =>
      rcases sound.output.linked id waits with
        ⟨current, window, rest, emits, first, _⟩
      rw [emits] at present
      cases present
      rw [first] at done
      cases done
  have frame : process.ledger.accepted = runtime.process.ledger.accepted ∧
      process.service.source.shed = runtime.process.service.source.shed ∧
      process.sent = runtime.process.sent := by
    rcases commit_cases committed with ⟨publishing, _, _, rfl⟩
    refine ⟨rfl, ?_, rfl⟩
    show (runtime.process.service.finish publishing).source.shed = _
    rw [Service.source_finish]
    rfl
  have output := sound.output
  rw [free] at output
  exact { sound with
    intake := sound.intake.emit frame.1 frame.2.1
    output := by
      show Output _ runtime.call _ _
      rw [free]
      exact output.idle frame.2.2
    accounted := sound.accounted.commit committed
    emitting := (sound.emitting.commit identified committed).1 }

theorem resume (step : runtime.resume = some after) : after.Sound seed := by
  rw [Runtime.resume] at step
  have emitting := sound.emitting
  split at step
  · rename_i publishing
    split at step
    · rename_i finished
      cases step
      rw [publishing] at emitting
      exact { sound with
        emitting := { emitting with
          stopped := by
            intro reached
            cases emitting.stopped reached
          idle := fun _ _ => isEmpty_iff.mp finished } }
    · cases step
  · rename_i waiting
    split at step
    · cases step
      rw [waiting] at emitting
      exact { sound with
        emitting := { emitting with
          stopped := fun _ => rfl
          idle := fun _ other => emitting.idle (by rintro ⟨⟩) other } }
    · cases step
  · cases step

theorem windows {action : Bus.Action bus AggregateWindow}
    {windows : Bus bus AggregateWindow}
    (step : move action runtime.windows = some windows) :
    ({ runtime with windows := windows } : Runtime bus).Sound seed := by
  have works := works_move sound.output.sound sound.output.smooth step
  exact { sound with
    output := sound.output.move works
    downstream := sound.downstream.move sound.output.smooth
      sound.output.sound step }

theorem handleWindow (step : runtime.handleWindow index = some after) :
    after.Sound seed := by
  rw [Runtime.handleWindow] at step
  split at step
  · cases step
  · rename_i window attempts
    rcases Option.map_eq_some_iff.mp step with ⟨windows, handled, rfl⟩
    have output := sound.output.apply attempts handled
    rw [applyWindow_succeeds] at handled
    exact { sound with
      output := output
      downstream := sound.downstream.handle attempts handled }

theorem enter {stage : Shutdown}
    (upstream : Upstream stage runtime.agents runtime.batches)
    (emitting : Emitting stage runtime.emitter runtime.process)
    (downstream : Downstream stage runtime.windows) :
    ({ runtime with shutdown := stage } : Runtime bus).Sound seed :=
  { sound with
    upstream := upstream
    emitting := emitting
    downstream := downstream }

end Sound

theorem ended_of_check {Value : Type} {channel : Bus bus Value}
    (check : ended channel = true) : channel.Ended := by
  rw [ended, Bool.and_eq_true, all_eq_true, all_eq_true] at check
  constructor
  · intro partition
    have served := check.1 partition (mem_finRange partition)
    rcases any_eq_true.mp served with ⟨consumer, member, serves⟩
    exact ⟨consumer, member, of_decide_eq_true serves⟩
  · exact check.2

/-! ### The stages of `shutdown` -/

section Sound

variable (sound : runtime.Sound seed)
include sound

theorem stages {stage : Shutdown} (reached : runtime.shutdown = stage) :
    Upstream stage runtime.agents runtime.batches ∧
      Emitting stage runtime.emitter runtime.process ∧
      Downstream stage runtime.windows := by
  subst reached
  exact ⟨sound.upstream, sound.emitting, sound.downstream⟩

/-- A stage that waits for nothing in the way of an event. -/
theorem pass {old next : Shutdown} (stage : runtime.shutdown = old)
    (first : next.rank ≤ 2 ∨ 5 ≤ old.rank)
    (second : next.rank ≤ 6 ∧ old.rank ≤ 6 ∨ 9 ≤ next.rank ∧ 9 ≤ old.rank)
    (third : old.rank ≤ next.rank ∧ (next.rank ≤ 8 ∨ 11 ≤ old.rank)) :
    ({ runtime with shutdown := next } : Runtime bus).Sound seed := by
  rcases sound.stages stage with ⟨upstream, emitting, downstream⟩
  exact sound.enter (upstream.enter first) (emitting.enter second)
    (downstream.enter third)

section Stop

variable (step : runtime.stop ops = some after)
include step

theorem stop_sources
    {next : Nat} (stage : runtime.shutdown = .closingSources next) :
    after.Sound seed := by
  rcases sound.stages stage with ⟨upstream, emitting, downstream⟩
  simp only [stop, stage] at step
  have rank : (Shutdown.closingSources next).rank = 1 := rfl
  have later : (Shutdown.closingSources (next + 1)).rank = 1 := rfl
  split at step
  · cases step
    exact sound.pass stage (by rw [rank]; decide) (by rw [rank]; decide)
      (by rw [rank]; decide)
  · rename_i agent found
    cases step
    rcases sound.fleet with ⟨awaited, fleet⟩
    have kept := Agent.keeps_source agent agent.source.close
    have order : Upstream (.closingSources (next + 1)) runtime.agents
        runtime.batches :=
      upstream.enter (by rw [rank, later]; decide)
    exact { sound with
      fleet := ⟨awaited, fleet.keep found kept⟩
      upstream := order.agent found kept.returned
      emitting := emitting.enter (by rw [rank, later]; decide)
      downstream := downstream.enter (by rw [rank, later]; decide) }

theorem stop_agents (stage : runtime.shutdown = .waitingAgents) :
    after.Sound seed := by
  rcases sound.stages stage with ⟨_, emitting, downstream⟩
  simp only [stop, stage] at step
  split at step
  · rename_i returned
    cases step
    refine sound.enter ⟨?_, ?_, ?_⟩ (emitting.enter (by decide))
      (downstream.enter (by decide))
    · intro _ index agent found
      exact all_eq_true.mp returned agent (mem_of_getElem? found)
    · exact fun reached => absurd reached (by decide)
    · exact fun reached => absurd reached (by decide)
  · cases step

theorem stop_batches (stage : runtime.shutdown = .closingBatches) :
    after.Sound seed := by
  rcases sound.stages stage with ⟨upstream, emitting, downstream⟩
  simp only [stop, stage] at step
  split at step
  · rename_i closed
    cases step
    refine sound.enter ⟨fun _ => upstream.agents (by decide),
      fun _ => closed, ?_⟩ (emitting.enter (by decide))
      (downstream.enter (by decide))
    exact fun reached => absurd reached (by decide)
  · rcases Option.map_eq_some_iff.mp step with ⟨batches, closed, rfl⟩
    have closing := sound.batches
      (works_close sound.intake.sound sound.intake.smooth closed)
    rw [stage] at closing
    exact closing

theorem stop_consumers (stage : runtime.shutdown = .waitingConsumers) :
    after.Sound seed := by
  rcases sound.stages stage with ⟨upstream, emitting, downstream⟩
  simp only [stop, stage] at step
  split at step
  · rename_i ended
    cases step
    exact sound.enter ⟨fun _ => upstream.agents (by decide),
      fun _ => upstream.closed (by decide),
      fun _ => ended_of_check ended⟩ (emitting.enter (by decide))
      (downstream.enter (by decide))
  · cases step

theorem stop_emitter (stage : runtime.shutdown = .waitingEmitter) :
    after.Sound seed := by
  rcases sound.stages stage with ⟨upstream, emitting, downstream⟩
  simp only [stop, stage] at step
  split at step
  · rename_i returned
    cases step
    refine sound.enter (upstream.enter (by decide)) ?_
      (downstream.enter (by decide))
    exact { emitting with
      stopped := fun _ => returned
      idle := fun running _ => emitting.idle running (by rintro ⟨⟩)
      collected := fun reached => absurd reached (by decide)
      pending := by rintro ⟨⟩
      published := fun reached => absurd reached (by decide) }
  · cases step

theorem stop_emitting
    (reliable : ops.Reliable) (stage : runtime.shutdown = .emitting) :
    after.Sound seed := by
  rcases sound.stages stage with ⟨upstream, emitting, downstream⟩
  simp only [stop, stage] at step
  have idle := emitting.emits_eq_nil (by decide) (by rintro ⟨⟩)
  cases step
  exact sound.collect idle (fun _ => true) (upstream.enter (by decide))
    (emitting.finish reliable) (downstream.enter (by decide))

/-- The last publication has ended: nothing is pending any more. -/
theorem stop_publishing (stage : runtime.shutdown = .publishing) :
    after.Sound seed := by
  rcases sound.stages stage with ⟨upstream, emitting, _⟩
  simp only [stop, stage] at step
  split at step
  · rename_i finished
    cases step
    have idle := isEmpty_iff.mp finished
    have emptied : runtime.process.service.source.pending = ∅ := by
      apply GoMap.eq_empty_of_lookup
      intro identity
      cases present :
          runtime.process.service.source.pending.lookup identity with
      | none => rfl
      | some window =>
        rcases emitting.pending rfl identity window present with
          ⟨publishing, member, _⟩
        rw [idle] at member
        cases member
    refine sound.enter (upstream.enter (by decide)) ?_
      (downstream_closing runtime.windows)
    exact { emitting with
      stopped := fun _ => emitting.stopped (by decide)
      idle := fun _ _ => idle
      collected := fun _ => emitting.collected (by decide)
      pending := by rintro ⟨⟩
      published := fun _ => emptied }
  · cases step

theorem stop_windows (stage : runtime.shutdown = .closingWindows) :
    after.Sound seed := by
  rcases sound.stages stage with ⟨upstream, emitting, _⟩
  simp only [stop, stage] at step
  split at step
  · rename_i closed
    cases step
    refine sound.enter (upstream.enter (by decide))
      (emitting.enter (by decide)) ⟨?_, fun _ => closed, ?_⟩
    · exact fun early => absurd early (by decide)
    · exact fun reached => absurd reached (by decide)
  · rcases Option.map_eq_some_iff.mp step with ⟨windows, closed, rfl⟩
    have works := works_close sound.output.sound sound.output.smooth closed
    exact { sound with
      output := sound.output.move works
      upstream := upstream
      emitting := emitting
      downstream := downstream_closing windows }

theorem stop_persister (stage : runtime.shutdown = .waitingPersister) :
    after.Sound seed := by
  rcases sound.stages stage with ⟨upstream, emitting, downstream⟩
  simp only [stop, stage] at step
  split at step
  · rename_i ended
    cases step
    refine sound.enter (upstream.enter (by decide))
      (emitting.enter (by decide))
      ⟨?_, fun _ => downstream.closed (by decide),
        fun _ => ended_of_check ended⟩
    exact fun early => absurd early (by decide)
  · cases step

theorem stop (reliable : ops.Reliable) : after.Sound seed := by
  cases stage : runtime.shutdown with
  | running | closingEmitter =>
    simp only [Runtime.stop, stage] at step
    cases step
    exact sound.pass stage (by decide) (by decide) (by decide)
  | closingSources next => exact sound.stop_sources step stage
  | waitingAgents => exact sound.stop_agents step stage
  | closingBatches => exact sound.stop_batches step stage
  | waitingConsumers => exact sound.stop_consumers step stage
  | waitingEmitter => exact sound.stop_emitter step stage
  | emitting => exact sound.stop_emitting step reliable stage
  | publishing => exact sound.stop_publishing step stage
  | closingWindows => exact sound.stop_windows step stage
  | waitingPersister => exact sound.stop_persister step stage
  | closingCommands =>
    simp only [Runtime.stop, stage] at step
    split at step
    · cases step
      exact sound.pass stage (by decide) (by decide) (by decide)
    · rcases Option.map_eq_some_iff.mp step with ⟨commands, _, rfl⟩
      rw [← stage]
      exact { sound with }
  | waitingCommands =>
    simp only [Runtime.stop, stage] at step
    split at step
    · cases step
      exact sound.pass stage (by decide) (by decide) (by decide)
    · cases step
  | returned =>
    simp only [Runtime.stop, stage] at step
    cases step

end Stop

theorem step (reliable : ops.Reliable)
    {emitOpenWindows : Bool} {action : Runtime.Action bus}
    (step : runtime.step ops emitOpenWindows action = some after) :
    after.Sound seed := by
  cases action with
  | agent index action => exact sound.agent step
  | send index => exact sound.send step
  | answer index => exact sound.answer step
  | expire index => exact sound.expire step
  | batches action =>
    rcases Option.map_eq_some_iff.mp step with ⟨batches, moved, rfl⟩
    exact sound.batches
      (works_move sound.intake.sound sound.intake.smooth moved)
  | handleBatch index => exact sound.handleBatch reliable step
  | emit now => exact sound.emit reliable step
  | publish => exact sound.publish step
  | published => exact sound.published step
  | commit => exact sound.commit step
  | resume => exact sound.resume step
  | windows action =>
    rcases Option.map_eq_some_iff.mp step with ⟨windows, moved, rfl⟩
    exact sound.windows moved
  | handleWindow index => exact sound.handleWindow step
  | commands action =>
    rcases Option.map_eq_some_iff.mp step with ⟨commands, _, rfl⟩
    exact { sound with }
  | stop => exact sound.stop step reliable

end Sound

end Sound

end Runtime

end Ironclaw.App
