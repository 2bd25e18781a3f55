import Ironclaw.App.Laps

/-!
# Long runs of the runtime

A runtime starts, takes any number of laps and stops.  When two devices have
passed on all the events that a source can have, the sequence numbers of the
aggregator have gone around, and a window of the third device gets the identity
of an earlier one.
-/

namespace Ironclaw.App

open Lib Domain Aggregate Ironclaw.Aggregator Pipeline Store App.Runtime

/-! ## The start -/

theorem unlimited_nonneg : (0 : Int) ≤ 0 := le_rfl

/-- The aggregator that a long run starts with. -/
def lapSource : Aggregate.Aggregator Sketch Unit where
  config := {
    windowSize := 1
    maxOpenWindows := 0
    windowSize_pos := by decide
    maxOpenWindows_nonneg := unlimited_nonneg }
  openWindows := ∅
  pending := ∅
  sequence := lapTime.unixNano
  shed := 0
  world := ()

theorem new_lapSource :
    Aggregate.Aggregator.new longConfig.aggregator lapTime () =
      .ok lapSource := by
  have accurate : ¬((1 : ℚ) / 100 < 0 ∨ (1 : ℚ) ≤ 1 / 100) := by
    norm_num
  simp only [Aggregate.Aggregator.new, RawConfig.validate, longConfig,
    Config.aggregator, defaultRelativeError, if_true, accurate]
  rfl

def startOf (agents : List Agent) : Runtime narrowBus where
  agents := agents
  batches := Bus.new narrowBus Batch
  process := Process.start ⟨lapSource, some ∅, 0⟩
  emitter := .waiting
  call := none
  windows := Bus.new narrowBus AggregateWindow
  store := Memory.new
  commands := Bus.new narrowBus Command
  shutdown := .running

theorem new_long
    {agents : List Agent} (built : Agent.build longConfig 3 = .ok agents) :
    new longConfig lapTime = .ok ⟨narrowBus, startOf agents⟩ := by
  have valid : longConfig.validate = none := rfl
  have bus : longConfig.bus.new = .ok narrowBus := rfl
  have count : longConfig.devices.toInt.toNat = 3 := rfl
  rw [new, valid, bus, new_lapSource, count, built]
  rfl

theorem waits_join {Value : Type} (partition : Fin narrowBus.partitions) :
    ∃ after, movesOf [.join partition] (Bus.new narrowBus Value) =
        some after ∧ Waits [] after :=
  ⟨_, rfl, fun _ => rfl, ⟨partition, rfl⟩, rfl, rfl, rfl⟩

/-- A long run starts with nothing done. -/
theorem exists_lapped (formulas : Formulas) :
    ∃ runtime, Reached formulas runtime ∧ runtime.Lapped (fun _ => 0) [] := by
  rcases Agent.build_long 3 with ⟨agents, built, length, fresh⟩
  have started : Reached formulas (startOf agents) :=
    Machine.Reachable.start ⟨lapTime, new_long built⟩
  have turn : ∀ (agents : List Agent) (index : Nat) (agent : Agent),
      agents[index]? = some agent → (∃ after, agent.act .launch = some after ∧
          after.Stands index 0 false .ranging ∧ after.call = none) →
        Reached formulas (startOf agents) →
          ∃ after, (after.Stands index 0 false .ranging ∧ after.call = none) ∧
            Reached formulas (startOf (agents.set index after)) := by
    rintro agents index agent found ⟨after, launched, ready⟩ reachable
    have ran : [Agent.Action.launch].foldlM Agent.act agent =
        some after := by
      simp [launched]
    exact ⟨after, ready, reachable_agent reachable found ran⟩
  rcases @Slots.each_in_turn Agent _ _
    (fun agents _ => Reached formulas (startOf agents))
    turn agents started fresh with ⟨launched, same, stand, reachable⟩
  let partition : Fin narrowBus.partitions := ⟨0, by decide⟩
  rcases @waits_join Batch partition with ⟨batches, first, batchesWait⟩
  rcases @waits_join AggregateWindow partition with
    ⟨windows, second, windowsWait⟩
  rcases @waits_join Command partition with ⟨commands, third, commandsWait⟩
  refine ⟨_, reachable_commands third (reachable_windows second
    (reachable_batches first reachable)), ?_⟩
  exact {
    devices := same.trans length
    agents := stand
    batches := batchesWait
    process := ⟨rfl, rfl, rfl, rfl, rfl⟩
    emitter := rfl
    call := rfl
    windows := windowsWait
    commands := commandsWait
    shutdown := rfl
    store := rfl
    counted := by
      intro window member
      cases member
    accepted := rfl
    emitted := rfl
    sequence := rfl }

/-! ## Stop -/

section Stop

variable {formulas : Formulas} {runtime : Runtime narrowBus}

/-- `Close` and the end of the loop, for any of the buses. -/
theorem reachable_close
    {Value : Type} {put : Bus narrowBus Value → Shutdown → Runtime narrowBus}
    {label : Bus.Action narrowBus Value → Runtime.Action narrowBus}
    {closing waiting next : Shutdown}
    (closes : ∀ channel,
      (longMachine formulas).step (put channel closing) .stop =
        if channel.closer = .done then some (put channel waiting)
        else (Bus.close channel).map fun after => put after closing)
    (moves : ∀ channel action,
      (longMachine formulas).step (put channel waiting) (label action) =
        (Runtime.move action channel).map fun after => put after waiting)
    (ended : ∀ channel,
      (longMachine formulas).step (put channel waiting) .stop =
        if Runtime.ended channel then some (put channel next) else none)
    {channel : Bus narrowBus Value} (waits : Waits [] channel)
    (reachable : Reached formulas (put channel closing)) :
    ∃ after, Reached formulas (put after next) := by
  rcases waits.close with ⟨shut, after, ran, done, drained, finished⟩
  have all : Reached formulas (put shut closing) := by
    refine @Machine.Reachable.lift _ _ _ _ _ _
      (fun channel => put channel closing) (fun _ => .stop) ?_ _ _ _ ran
      reachable
    intro part _ next step
    have busy : part.closer ≠ .done := by
      intro already
      rw [Bus.close, already] at step
      cases step
    rw [closes, if_neg busy, step]
    rfl
  have waited := all.next ((closes shut).trans (if_pos done))
  have drains : Reached formulas (put after waiting) := by
    refine @Machine.Reachable.lift _ _ _ _ _ _
      (fun channel => put channel waiting) label ?_ _ _ _ drained waited
    intro part action next moved
    rw [moves, moved]
    rfl
  exact ⟨after, drains.next ((ended after).trans (if_pos finished))⟩

/-- The sources are closed, and the agents return. -/
theorem stop_agents {produced : Nat → Nat} {applied : List AggregateWindow}
    (lapped : runtime.Lapped produced applied)
    (reachable : Reached formulas runtime) :
    ∃ agents, Reached formulas { runtime with
      agents := agents
      shutdown := .closingBatches } := by
  have asked : Reached formulas { runtime with
      shutdown := .closingSources 0 } := by
    refine reachable_step .stop reachable ?_
    simp [step, stop, lapped.shutdown]
  have closing : ∀ (agents : List Agent) (index : Nat) (agent : Agent),
      agents[index]? = some agent →
        (agent.Stands index (produced index) false .ranging ∧
          agent.call = none) →
        Reached formulas { runtime with
          agents := agents
          shutdown := .closingSources index } →
          ∃ after, after.Stands index (produced index) true .ranging ∧
            Reached formulas { runtime with
              agents := agents.set index after
              shutdown := .closingSources (index + 1) } := by
    rintro agents index agent found ⟨stands, _⟩ before
    refine ⟨{ agent with source := agent.source.close }, ?_, ?_⟩
    · refine { stands with source := ?_ }
      rw [stands.source]
      rfl
    · refine reachable_step .stop before ?_
      simp [step, stop, found]
  rcases @Slots.each_in_turn Agent _ _
    (fun agents index => Reached formulas { runtime with
      agents := agents
      shutdown := .closingSources index })
    closing _ asked lapped.agents with ⟨closed, length, stand, through⟩
  have waiting : Reached formulas { runtime with
      agents := closed
      shutdown := .waitingAgents } := by
    refine reachable_step .stop through ?_
    have last : closed[runtime.agents.length]? = none := by
      rw [List.getElem?_eq_none_iff, length]
    simp [step, stop, last]
  have returning : ∀ (agents : List Agent) (index : Nat) (agent : Agent),
      agents[index]? = some agent →
        agent.Stands index (produced index) true .ranging →
        Reached formulas { runtime with
          agents := agents
          shutdown := .waitingAgents } →
          ∃ after, after.returned = true ∧ Reached formulas { runtime with
              agents := agents.set index after
              shutdown := .waitingAgents } := by
    intro agents index agent found stands before
    rcases stands.finish with ⟨after, ran, returned⟩
    exact ⟨after, returned, reachable_agent before found ran⟩
  rcases @Slots.each_in_turn Agent _ (fun _ agent => agent.returned = true)
    (fun agents _ => Reached formulas { runtime with
      agents := agents
      shutdown := .waitingAgents })
    returning _ waiting stand with ⟨ended, _, returned, finished⟩
  refine ⟨ended, reachable_step .stop finished ?_⟩
  have all : ended.all Agent.returned = true := by
    rw [List.all_eq_true]
    intro agent member
    rcases List.mem_iff_getElem?.mp member with ⟨index, found⟩
    exact returned index agent found
  simp only [step, stop, all, if_true]

/-- The last emission finds nothing to publish. -/
theorem stop_emitter (reachable : Reached formulas runtime)
    (stage : runtime.shutdown = .closingEmitter)
    (emitter : runtime.emitter = .waiting) (rests : Rests runtime.process) :
    ∃ process, Reached formulas { runtime with
          process := process
          emitter := .returned
          shutdown := .closingWindows } ∧
        process.ledger.accepted = runtime.process.ledger.accepted ∧
        process.ledger.emitted = runtime.process.ledger.emitted := by
  rcases @rests.emit_nothing (sketches formulas longConfig.accuracy) with
    ⟨collected, process, emitted, committed, idle, accepted, same⟩
  have announced : Reached formulas { runtime with
      shutdown := .waitingEmitter } := by
    refine reachable_step .stop reachable ?_
    simp [step, stop, stage]
  have resumed : Reached formulas { runtime with
      emitter := .returned
      shutdown := .waitingEmitter } := by
    refine reachable_step .resume announced ?_
    simp [step, resume, emitter, Shutdown.emitStopped, Shutdown.rank]
  have emitting : Reached formulas { runtime with
      emitter := .returned
      shutdown := .emitting } := by
    refine reachable_step .stop resumed ?_
    simp [step, stop]
  have publishing : Reached formulas { runtime with
      process := collected
      emitter := .returned
      shutdown := .publishing } := by
    refine reachable_step .stop emitting ?_
    simp [step, stop, emitted]
  have finished : Reached formulas { runtime with
      process := process
      emitter := .returned
      shutdown := .publishing } := by
    refine reachable_step .commit publishing ?_
    simp [step, commit, committed]
  refine ⟨process, ?_, accepted, same⟩
  refine reachable_step .stop finished ?_
  simp [step, stop, idle]

/-- `Stop` returns, and leaves the store as it was. -/
theorem Runtime.Lapped.stop
    {produced : Nat → Nat} {applied : List AggregateWindow}
    (lapped : runtime.Lapped produced applied)
    (reachable : Reached formulas runtime) :
    ∃ after, Reached formulas after ∧
      after.shutdown = .returned ∧ after.store = runtime.store ∧
      after.process.ledger.accepted = runtime.process.ledger.accepted ∧
      after.process.ledger.emitted = runtime.process.ledger.emitted := by
  rcases stop_agents lapped reachable with ⟨agents, returned⟩
  rcases @reachable_close formulas _
    (fun batches stage => { runtime with
      agents := agents
      batches := batches
      shutdown := stage })
    Runtime.Action.batches .closingBatches .waitingConsumers .closingEmitter
    (fun _ => rfl) (fun _ _ => rfl) (fun _ => rfl) _ lapped.batches returned
    with ⟨batches, consumed⟩
  rcases stop_emitter consumed rfl lapped.emitter lapped.process with
    ⟨process, emitted, accepted, same⟩
  rcases @reachable_close formulas _
    (fun windows stage => { runtime with
      agents := agents
      batches := batches
      process := process
      emitter := .returned
      windows := windows
      shutdown := stage })
    Runtime.Action.windows .closingWindows .waitingPersister .closingCommands
    (fun _ => rfl) (fun _ _ => rfl) (fun _ => rfl) _ lapped.windows emitted
    with ⟨windows, persisted⟩
  rcases @reachable_close formulas _
    (fun commands stage => { runtime with
      agents := agents
      batches := batches
      process := process
      emitter := .returned
      windows := windows
      commands := commands
      shutdown := stage })
    Runtime.Action.commands .closingCommands .waitingCommands .returned
    (fun _ => rfl) (fun _ _ => rfl) (fun _ => rfl) _ lapped.commands persisted
    with ⟨commands, finished⟩
  exact ⟨_, finished, rfl, rfl, accepted, same⟩

end Stop

/-! ## Going around the sequence numbers -/

/--
After `2^64` windows, two devices have passed on all their events, and the
next window of the third has the identity of its first one.
-/
theorem exists_overrun (formulas : Formulas) :
    ∃ (runtime : Runtime narrowBus) (first second : AggregateWindow)
      (middle : List AggregateWindow) (last : AggregateWindow),
      Reached formulas runtime ∧ (∃ produced,
          runtime.Lapped produced (first :: second :: middle ++ [last])) ∧
        middle.length = 18446744073709551614 ∧
        labelOf second ≠ labelOf first ∧ labelOf last = labelOf first := by
  rcases exists_lapped formulas with ⟨start, reachable, lapped⟩
  rcases lapped.lap reachable (by decide : 0 < 3) (by decide) with
    ⟨one, first, reachable, lapped, firstKey, firstID, firstNumber⟩
  rcases lapped.lap reachable (by decide : 0 < 3) (by decide) with
    ⟨two, second, reachable, lapped, _, _, secondNumber⟩
  rcases lapped.laps reachable (by decide : 1 < 3) 9223372036854775807
    (by decide) with ⟨most, left, reachable, lapped, leftLength⟩
  rcases lapped.laps reachable (by decide : 2 < 3) 9223372036854775807
    (by decide) with ⟨all, right, reachable, lapped, rightLength⟩
  rcases lapped.lap reachable (by decide : 0 < 3) (by decide) with
    ⟨after, last, reachable, lapped, lastKey, lastID, lastNumber⟩
  have order : [] ++ [first] ++ [second] ++ left ++ right ++ [last] =
      first :: second :: (left ++ right) ++ [last] := by
    simp
  rw [order] at lapped
  have length : ([] ++ [first] ++ [second] ++ left ++ right).length + 1 =
      18446744073709551617 := by
    simp [leftLength, rightLength]
  refine ⟨after, first, second, left ++ right, last, reachable,
    ⟨_, lapped⟩, ?_, ?_, ?_⟩
  · rw [List.length_append, leftLength, rightLength]
  · intro same
    have numbers := AggregateWindow.sequence_eq_of_identity
      (congrArg Prod.snd same)
    rw [firstNumber, secondNumber] at numbers
    have equal : 2 = 1 :=
      Word.add_ofNat_injective lapTime.unixNano (by decide) (by decide)
        numbers
    cases equal
  · simp only [labelOf, keyOf, AggregateWindow.identity, lastKey, firstKey,
      lastID, firstID, lastNumber, firstNumber, length]
    rfl

end Ironclaw.App
