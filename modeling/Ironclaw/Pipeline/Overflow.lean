import Ironclaw.Pipeline.Accounts

/-!
# What an overflow strategy drops

A strategy puts a batch into the queue by a few selects, and between any two of
them the sender may take a batch out.  The drop-oldest strategy gives up its
own batch when the sender has emptied the queue between the first two; the
blocking strategy may see that its context is done although the queue has room.

Both are exact about everything else.  The batches that the sender was handed,
followed by the queue, change only by the batches reported as dropped and by
the new batch at the end.
-/

namespace Ironclaw.Pipeline

open Lib Domain List Batcher

/-! ## One call -/

namespace Collector

/-- Whether the collector is in a call of a strategy, up to its return. -/
def calling : Collector → Bool
  | .enqueueing _ _ | .evicting _ _ | .replacing _ _ _ | .recording _ _ =>
    true
  | _ => false

/-- The selects that a call has still to make, at most. -/
def selects : Collector → Nat
  | .enqueueing _ _ => 3
  | .evicting _ _ => 2
  | .replacing _ _ _ => 1
  | _ => 0

end Collector

namespace Batcher

variable {settings : Settings}

/-- What happens during one call of a strategy, up to its return. -/
def callMachine (start : Batcher settings) :
    Machine (Batcher settings) Action where
  initial batcher := batcher = start
  step batcher action :=
    match action with
    | .record => none
    | other => batcher.step other

/-- The batches handed out, and those in the queue after them. -/
def line (batcher : Batcher settings) : List Batch :=
  batcher.handed ++ batcher.queue

section Calls

variable {batcher after start : Batcher settings}

/-- A step beside the call: the sender takes batches from the queue. -/
structure Beside (batcher after : Batcher settings) : Prop where
  collector : after.collector = batcher.collector
  line : after.line = batcher.line
  shorter : after.queue.length ≤ batcher.queue.length
  handed : batcher.handed <+: after.handed
  dropped : after.stats.eventsDropped = batcher.stats.eventsDropped

theorem beside_cancel
    {fault : Fault} (step : batcher.cancel fault = some after) :
    Beside batcher after := by
  rw [cancel] at step
  split at step
  · cases step
    exact ⟨rfl, rfl, le_refl _, prefix_refl _, rfl⟩
  · cases step

theorem beside_take (step : batcher.take = some after) :
    Beside batcher after := by
  rw [take] at step
  split at step
  · split at step
    · rename_i batch rest waiting
      cases step
      refine ⟨rfl, ?_, ?_, prefix_append _ _, rfl⟩
      · rw [line, line, waiting, append_assoc]
        rfl
      · rw [waiting]
        exact Nat.le_succ _
    · split at step
      · cases step
        exact ⟨rfl, rfl, le_refl _, prefix_refl _, rfl⟩
      · cases step
  · cases step

theorem beside_settle
    {result : Option Fault} (step : batcher.settle result = some after) :
    Beside batcher after := by
  rw [settle] at step
  split at step
  · cases result <;>
      cases step <;>
      exact ⟨rfl, rfl, le_refl _, prefix_refl _, rfl⟩
  · cases step

/-- What can happen during a call. -/
theorem call_cases
    {action : Action} (calling : batcher.collector.calling = true)
    (step : (callMachine start).step batcher action = some after) :
    Beside batcher after ∨ action = .enqueue ∧ batcher.enqueue = some after ∨
      action = .expire ∧ batcher.expire = some after := by
  cases action with
  | cancel fault => exact Or.inl (beside_cancel step)
  | take => exact Or.inl (beside_take step)
  | settle result => exact Or.inl (beside_settle step)
  | enqueue => exact Or.inr (Or.inl ⟨rfl, step⟩)
  | expire => exact Or.inr (Or.inr ⟨rfl, step⟩)
  | record => cases step
  | _ =>
    -- The other steps are not those of a collector in a call.
    simp only [callMachine, Batcher.step, Batcher.run, Batcher.stop,
      Batcher.receive, Batcher.exhaust, Batcher.tick, Batcher.close,
      Batcher.wait] at step
    split at step
    · simp_all [Collector.calling]
    · cases step

/-! ## Drop-oldest -/

/-- A call that kept the newest batch and dropped at most an older one. -/
structure KeepsNewest
    (start : Batcher settings) (batch : Batch) (outcome : OverflowOutcome)
    (batcher : Batcher settings) : Prop where
  enqueued : outcome.enqueued = true
  one : outcome.dropped.length ≤ 1
  line : ∃ taken rest, start.queue = taken ++ outcome.dropped ++ rest ∧
      batcher.line = start.handed ++ taken ++ rest ++ [batch]

/-- Where a call of the drop-oldest strategy stands. -/
inductive Stage
    (start : Batcher settings) (batch : Batch) (next : Next)
    (batcher : Batcher settings) : Prop where
  | enqueueing
      (stage : batcher.collector = .enqueueing batch next)
      (line : batcher.line = start.line)
  | evicting
      (stage : batcher.collector = .evicting batch next)
      (line : batcher.line = start.line)
  | replacing {evicted : Batch} {taken rest : List Batch}
      (stage : batcher.collector = .replacing evicted batch next)
      (room : batcher.queue.length < settings.queueDepth)
      (parts : start.queue = taken ++ [evicted] ++ rest)
      (line : batcher.line = start.handed ++ taken ++ rest)
  | recording {outcome : OverflowOutcome}
      (stage : batcher.collector = .recording outcome next)
      (kept : KeepsNewest start batch outcome batcher)

/-- A call in progress; the sender only takes from the front. -/
structure Calling
    (start : Batcher settings) (batch : Batch) (next : Next)
    (batcher : Batcher settings) : Prop where
  fits : batcher.queue.length ≤ settings.queueDepth
  handed : start.handed <+: batcher.handed
  stage : Stage start batch next batcher

variable {batch : Batch} {next : Next}

theorem Calling.calling (call : Calling start batch next batcher) :
    batcher.collector.calling = true := by
  cases call.stage with
  | enqueueing stage | evicting stage | replacing stage | recording stage =>
    exact congrArg Collector.calling stage

theorem Calling.beside (call : Calling start batch next batcher)
    (beside : Beside batcher after) : Calling start batch next after where
  fits := beside.shorter.trans call.fits
  handed := call.handed.trans beside.handed
  stage := by
    cases call.stage with
    | enqueueing stage line =>
      exact .enqueueing (beside.collector.trans stage)
        (beside.line.trans line)
    | evicting stage line =>
      exact .evicting (beside.collector.trans stage) (beside.line.trans line)
    | replacing stage room parts line =>
      exact .replacing (beside.collector.trans stage)
        (beside.shorter.trans_lt room) parts (beside.line.trans line)
    | recording stage kept =>
      refine .recording (beside.collector.trans stage)
        ⟨kept.enqueued, kept.one, ?_⟩
      rw [beside.line]
      exact kept.line

theorem push_of_room (room : batcher.queue.length < settings.queueDepth)
    (batch : Batch) (dropped : List Batch) (next : Next) :
    batcher.push batch dropped next = some { batcher with
        queue := batcher.queue ++ [batch]
        collector := .recording ⟨true, dropped⟩ next } := by
  rw [push, if_pos room]

theorem push_of_full (full : settings.queueDepth ≤ batcher.queue.length)
    (batch : Batch) (dropped : List Batch) (next : Next) :
    batcher.push batch dropped next = none := by
  rw [push, if_neg (not_lt.mpr full)]

/-- A batch has entered the queue. -/
theorem Calling.pushed
    (call : Calling start batch next batcher) {dropped : List Batch}
    (room : batcher.queue.length < settings.queueDepth)
    (one : dropped.length ≤ 1)
    (line : ∃ taken rest, start.queue = taken ++ dropped ++ rest ∧
      batcher.line = start.handed ++ taken ++ rest) :
    Calling start batch next
      { batcher with
        queue := batcher.queue ++ [batch]
        collector := .recording ⟨true, dropped⟩ next } where
  fits := by
    rw [length_append]
    exact room
  handed := call.handed
  stage := by
    obtain ⟨taken, rest, parts, line⟩ := line
    refine .recording rfl ⟨rfl, one, taken, rest, parts, ?_⟩
    rw [← line, Batcher.line, Batcher.line, append_assoc]

/-- The second select of a call finds a batch to evict. -/
def EvictsSome (before : Batcher settings) (action : Action) : Prop :=
  action = .enqueue → ∀ batch next,
    before.collector = .evicting batch next → before.queue ≠ []

theorem Calling.enqueue (call : Calling start batch next batcher)
    (policy : settings.strategy = .dropOldest)
    (evicts : EvictsSome batcher .enqueue)
    (step : batcher.enqueue = some after) :
    Calling start batch next after := by
  cases call.stage with
  | enqueueing stage line =>
    rw [Batcher.enqueue, stage] at step
    simp only [policy] at step
    rcases Nat.lt_or_ge batcher.queue.length settings.queueDepth with
      room | full
    · rw [push_of_room room] at step
      cases step
      refine call.pushed room (Nat.zero_le 1) ⟨[], start.queue, rfl, ?_⟩
      rw [line, append_nil]
      rfl
    · rw [push_of_full full] at step
      cases step
      exact ⟨call.fits, call.handed, .evicting rfl line⟩
  | evicting stage line =>
    have waiting := evicts rfl batch next stage
    rw [Batcher.enqueue, stage] at step
    simp only at step
    split at step
    · next empty => exact absurd empty waiting
    · rename_i evicted rest queue
      cases step
      have fits := call.fits
      rw [queue] at fits
      obtain ⟨taken, handed⟩ := call.handed
      have parts : start.queue = taken ++ [evicted] ++ rest := by
        rw [Batcher.line, Batcher.line, ← handed, queue,
          append_assoc, append_cancel_left_eq] at line
        rw [← line, append_assoc]
        rfl
      refine ⟨(Nat.le_succ _).trans fits, ⟨taken, handed⟩,
        .replacing rfl fits parts ?_⟩
      rw [Batcher.line, ← handed]
  | replacing stage room parts line =>
    rw [Batcher.enqueue, stage] at step
    simp only [push_of_room room] at step
    cases step
    exact call.pushed room (le_refl 1) ⟨_, _, parts, line⟩
  | recording stage kept =>
    rw [Batcher.enqueue, stage] at step
    cases step

theorem expire_eq_none (policy : settings.strategy ≠ .blocking) :
    batcher.expire = none := by
  rw [Batcher.expire]
  split
  · next blocking _ => exact absurd blocking policy
  · rfl

theorem calling_of_reachable (policy : settings.strategy = .dropOldest)
    (called : start.collector = .enqueueing batch next)
    (fits : start.queue.length ≤ settings.queueDepth)
    (reachable : (callMachine start).ReachableUnder EvictsSome batcher) :
    Calling start batch next batcher := by
  apply reachable.invariant
  · rintro batcher rfl
    exact ⟨fits, prefix_refl _, .enqueueing called rfl⟩
  · intro before action after _ call evicts step
    rcases call_cases call.calling step with
      beside | ⟨rfl, selects⟩ | ⟨rfl, expires⟩
    · exact call.beside beside
    · exact call.enqueue policy evicts selects
    · rw [expire_eq_none (by rw [policy]; exact nofun)] at expires
      cases expires

/-- Every select of the drop-oldest strategy has a default branch. -/
theorem Stage.select (stage : Stage start batch next batcher)
    (policy : settings.strategy = .dropOldest) :
    (∃ outcome, batcher.collector = .recording outcome next) ∨
      ∃ after, batcher.step .enqueue = some after ∧
        after.collector.selects < batcher.collector.selects := by
  cases stage with
  | recording stage _ => exact Or.inl ⟨_, stage⟩
  | enqueueing stage _ =>
    refine Or.inr ?_
    simp only [step, enqueue, stage, policy]
    rcases Nat.lt_or_ge batcher.queue.length settings.queueDepth with
      room | full
    · rw [push_of_room room]
      exact ⟨_, rfl, Nat.succ_pos 2⟩
    · rw [push_of_full full]
      exact ⟨_, rfl, Nat.lt_succ_self 2⟩
  | evicting stage _ =>
    refine Or.inr ?_
    simp only [step, enqueue, stage]
    split
    · exact ⟨_, rfl, Nat.succ_pos 1⟩
    · exact ⟨_, rfl, Nat.lt_succ_self 1⟩
  | replacing stage room _ _ =>
    refine Or.inr ?_
    simp only [step, enqueue, stage, push_of_room room]
    exact ⟨_, rfl, Nat.succ_pos 0⟩

/-! ## Blocking -/

/-- The context is not done while a flush that finds room is in its select. -/
def Calm (before : Batcher settings) (_ : Action) : Prop :=
  ∀ batch next, before.collector = .enqueueing batch next →
    before.queue.length < settings.queueDepth → before.context = none

/-- Where a call of the blocking strategy stands that began with room. -/
inductive Waits
    (start : Batcher settings) (batch : Batch) (next : Next)
    (batcher : Batcher settings) : Prop where
  | enqueueing
      (stage : batcher.collector = .enqueueing batch next)
      (room : batcher.queue.length < settings.queueDepth)
      (line : batcher.line = start.line)
  | recording
      (stage : batcher.collector = .recording ⟨true, []⟩ next)
      (line : batcher.line = start.line ++ [batch])

theorem Waits.calling (waits : Waits start batch next batcher) :
    batcher.collector.calling = true := by
  cases waits with
  | enqueueing stage | recording stage =>
    exact congrArg Collector.calling stage

theorem Waits.beside (waits : Waits start batch next batcher)
    (beside : Beside batcher after) : Waits start batch next after := by
  cases waits with
  | enqueueing stage room line =>
    exact .enqueueing (beside.collector.trans stage)
      (beside.shorter.trans_lt room) (beside.line.trans line)
  | recording stage line =>
    exact .recording (beside.collector.trans stage) (beside.line.trans line)

theorem enqueue_of_room (stage : batcher.collector = .enqueueing batch next)
    (room : batcher.queue.length < settings.queueDepth) :
    batcher.enqueue = some { batcher with
      queue := batcher.queue ++ [batch]
      collector := .recording ⟨true, []⟩ next } := by
  simp only [enqueue, stage, push_of_room room, Option.some_or]

theorem Waits.enqueue (waits : Waits start batch next batcher)
    (step : batcher.enqueue = some after) :
    Waits start batch next after := by
  cases waits with
  | enqueueing stage room line =>
    rw [enqueue_of_room stage room] at step
    cases step
    refine .recording rfl ?_
    rw [← line, Batcher.line, Batcher.line, append_assoc]
  | recording stage _ =>
    rw [Batcher.enqueue, stage] at step
    cases step

theorem Waits.expire (waits : Waits start batch next batcher)
    (calm : Calm batcher .expire)
    (step : batcher.expire = some after) :
    Waits start batch next after := by
  cases waits with
  | enqueueing stage room _ =>
    rw [Batcher.expire] at step
    split at step
    · rename_i done
      cases done.symm.trans (calm batch next stage room)
    · cases step
  | recording stage _ =>
    rw [Batcher.expire, stage] at step
    cases step

theorem waits_of_reachable (called : start.collector = .enqueueing batch next)
    (room : start.queue.length < settings.queueDepth)
    (reachable : (callMachine start).ReachableUnder Calm batcher) :
    Waits start batch next batcher := by
  apply reachable.invariant
  · rintro batcher rfl
    exact .enqueueing called room rfl
  · intro before action after _ waits calm step
    rcases call_cases waits.calling step with
      beside | ⟨rfl, selects⟩ | ⟨rfl, expires⟩
    · exact waits.beside beside
    · exact waits.enqueue selects
    · exact waits.expire calm expires

/-! ### Whole runs -/

/-- A flushed batch finds the queue full, and the context is done. -/
def FullWhenDone (batcher : Batcher settings) : Prop :=
  ∃ batch next fault, batcher.collector = .enqueueing batch next ∧
    batcher.context = some fault ∧
    settings.queueDepth ≤ batcher.queue.length

/-- Nothing is dropped or about to be. -/
def Unharmed : Collector → Prop
  | .evicting _ _ | .replacing _ _ _ => False
  | .recording outcome _ => outcome.dropped = []
  | _ => True

/-- Nothing was dropped so far. -/
structure Lossless (batcher : Batcher settings) : Prop where
  none : batcher.stats.eventsDropped = 0
  stage : Unharmed batcher.collector

theorem unharmed_proceed (next : Next) : Unharmed (proceed next) := by
  cases next <;> trivial

section Lossless

variable (lossless : batcher.Lossless)
include lossless

theorem Lossless.beside (beside : Beside batcher after) : after.Lossless where
  none := beside.dropped.trans lossless.none
  stage := by
    rw [beside.collector]
    exact lossless.stage

theorem Lossless.enqueue (policy : settings.strategy = .blocking)
    (step : batcher.enqueue = some after) : after.Lossless := by
  have stage := lossless.stage
  rw [Batcher.enqueue] at step
  split at step
  · rename_i batch next _
    rw [policy, Option.or_none, Batcher.push] at step
    split at step
    · cases step
      exact ⟨lossless.none, rfl⟩
    · cases step
  · rename_i evicting
    rw [evicting] at stage
    exact stage.elim
  · rename_i replacing
    rw [replacing] at stage
    exact stage.elim
  · cases step

end Lossless

theorem expire_of_room {action : Action} (calm : Calm batcher action)
    (room : ¬batcher.FullWhenDone) : batcher.expire = none := by
  rw [expire]
  split
  · rename_i batch next fault stage _ done
    by_cases full : settings.queueDepth ≤ batcher.queue.length
    · exact absurd ⟨batch, next, fault, stage, done, full⟩ room
    · cases done.symm.trans (calm batch next stage (not_le.mp full))
  · rfl

theorem Lossless.record
    (lossless : batcher.Lossless) (step : batcher.record = some after) :
    after.Lossless := by
  have stage := lossless.stage
  rw [Batcher.record] at step
  split at step
  · rename_i outcome next recording
    rw [recording] at stage
    cases step
    have nothing : outcome.dropped = [] := stage
    refine ⟨?_, unharmed_proceed next⟩
    rw [nothing]
    exact lossless.none
  · cases step

theorem Lossless.step
    (lossless : batcher.Lossless) (policy : settings.strategy = .blocking)
    {action : Action} (calm : Calm batcher action)
    (room : ¬batcher.FullWhenDone)
    (step : batcher.step action = some after) : after.Lossless := by
  cases action with
  | cancel fault => exact lossless.beside (beside_cancel step)
  | take => exact lossless.beside (beside_take step)
  | settle result => exact lossless.beside (beside_settle step)
  | enqueue => exact lossless.enqueue policy step
  | record => exact lossless.record step
  | expire =>
    change batcher.expire = some after at step
    rw [expire_of_room calm room] at step
    cases step
  | run | stop | receive | exhaust | tick | close | wait =>
    simp only [Batcher.step, Batcher.run, Batcher.stop, Batcher.receive,
      Batcher.exhaust, Batcher.tick, Batcher.flush, Batcher.close,
      Batcher.wait] at step
    (repeat' split at step) <;> cases step <;>
      refine ⟨lossless.none, ?_⟩
    all_goals first | trivial | exact lossless.stage

/-- Calm, and no flush finds the queue full when the context is done. -/
def Roomy (before : Batcher settings) (action : Action) : Prop :=
  Calm before action ∧ ¬before.FullWhenDone

theorem lossless_of_reachable (policy : settings.strategy = .blocking)
    (reachable : (machine settings).ReachableUnder Roomy batcher) :
    batcher.Lossless := by
  apply reachable.invariant
  · rintro batcher rfl
    exact ⟨rfl, trivial⟩
  · rintro before action after _ lossless ⟨calm, room⟩ step
    exact lossless.step policy calm room step

end Calls

end Batcher

/-! ## The property -/

/--
If the queue is not empty when the second select runs, the drop-oldest
strategy reports that it enqueued its batch, the batch is the last in the
queue, and at most one batch is dropped, which was in the queue before.  The
call always goes on to its next select, until it returns.
-/
theorem drop_oldest_keeps_newest
    {settings : Settings} (policy : settings.strategy = .dropOldest)
    {start batcher : Batcher settings} {batch : Batch} {next : Next}
    (called : start.collector = .enqueueing batch next)
    (fits : start.queue.length ≤ settings.queueDepth)
    (reachable : (callMachine start).ReachableUnder
      EvictsSome batcher) :
    (∀ outcome, batcher.collector = .recording outcome next →
      KeepsNewest start batch outcome batcher) ∧
    ((∃ outcome, batcher.collector = .recording outcome next) ∨
      ∃ after, batcher.step .enqueue = some after ∧
        after.collector.selects < batcher.collector.selects) := by
  have call := calling_of_reachable policy called fits reachable
  constructor
  · intro outcome returned
    cases call.stage with
    | recording stage kept =>
      cases stage.symm.trans returned
      exact kept
    | enqueueing stage | evicting stage | replacing stage =>
      cases stage.symm.trans returned
  · exact call.stage.select policy

/-! ### The queue is emptied in between -/

/-- The first batch is queued, and the second one is to be enqueued. -/
def secondRun : List Action :=
  [.run .started, .receive (sampleEvent 1) ⟨10⟩, .enqueue, .record,
    .receive (sampleEvent 2) ⟨20⟩]

def secondBatcher : Batcher sampleSettings :=
  ((machine sampleSettings).run (.new sampleSettings)
    secondRun).get (by decide)

def secondBatch : Batch := ⟨"device-1", ⟨20⟩, [sampleEvent 2]⟩

theorem secondBatcher_called :
    secondBatcher.collector = .enqueueing secondBatch .resume := by
  decide

theorem selects_possible (count : Fin 4) :
    ((callMachine secondBatcher).run secondBatcher
      (List.replicate count .enqueue)).isSome = true := by
  decide +revert

def selected (count : Fin 4) : Batcher sampleSettings :=
  ((callMachine secondBatcher).run secondBatcher
    (List.replicate count .enqueue)).get (selects_possible count)

theorem selected_reachable :
    (callMachine secondBatcher).ReachableUnder
      EvictsSome (selected 3) := by
  have steps : ∀ count : Fin 3,
      (callMachine secondBatcher).step (selected count.castSucc)
        .enqueue = some (selected count.succ)
    | 0 | 1 | 2 => rfl
  have replacing : (selected 2).collector = .replacing
      ⟨"device-1", ⟨10⟩, [sampleEvent 1]⟩ secondBatch .resume := by
    decide
  have first : (callMachine secondBatcher).ReachableUnder
      EvictsSome (selected 0) := .start rfl
  refine ((first.next ?_ (steps 0)).next ?_ (steps 1)).next ?_ (steps 2)
  · intro _ batch next stage
    cases secondBatcher_called.symm.trans stage
  · intro _ _ _ _
    decide
  · intro _ batch next stage
    cases replacing.symm.trans stage

theorem drop_oldest_keeps_newest_second : (selected 3).collector =
        .recording ⟨true, secondBatcher.queue⟩ .resume ∧
      KeepsNewest secondBatcher secondBatch
        ⟨true, secondBatcher.queue⟩ (selected 3) := by
  have returned : (selected 3).collector =
      .recording ⟨true, secondBatcher.queue⟩ .resume := by
    decide
  exact ⟨returned, (drop_oldest_keeps_newest (by decide)
    secondBatcher_called (by decide) selected_reachable).1 _ returned⟩

/-- The sender takes the queued batch between the first two selects. -/
def emptiedBatcher : Batcher sampleSettings :=
  ((callMachine secondBatcher).run secondBatcher
    [.enqueue, .take, .enqueue]).get (by decide)

theorem drop_oldest_drops_newest :
    (machine sampleSettings).Reachable secondBatcher ∧
      secondBatcher.collector = .enqueueing secondBatch .resume ∧
      secondBatcher.queue.length ≤ sampleSettings.queueDepth ∧
      (callMachine secondBatcher).Reachable emptiedBatcher ∧
      emptiedBatcher.collector = .recording ⟨false, [secondBatch]⟩ .resume ∧
      emptiedBatcher.queue = [] := by
  refine ⟨?_, secondBatcher_called, by decide, ?_, by decide,
    by decide⟩
  · exact (Machine.Reachable.start rfl).run (Option.some_get _).symm
  · exact (Machine.Reachable.start rfl).run (Option.some_get _).symm

/--
If the context is never done while a flush that finds room is in its select, a
batch that is flushed while the queue has room is enqueued and nothing is
dropped for it, whatever ready branch each select takes, and no event is
dropped in a run in which no cancelled flush finds the queue full.
-/
theorem blocking_drops_only_without_room
    {settings : Settings} (policy : settings.strategy = .blocking) :
    (∀ (start batcher : Batcher settings) (batch : Batch) (next : Next),
      start.collector = .enqueueing batch next →
      start.queue.length < settings.queueDepth →
      (callMachine start).ReachableUnder Calm batcher →
      (∀ outcome, batcher.collector = .recording outcome next →
        outcome = ⟨true, []⟩ ∧ batcher.line = start.line ++ [batch]) ∧
      ((∃ outcome, batcher.collector = .recording outcome next) ∨
        ∃ after, batcher.step .enqueue = some after ∧
          after.collector = .recording ⟨true, []⟩ next)) ∧
    ∀ batcher, (machine settings).ReachableUnder Roomy
      batcher → batcher.stats.eventsDropped = 0 := by
  constructor
  · intro start batcher batch next called room reachable
    cases waits_of_reachable called room reachable with
    | enqueueing stage still _ =>
      refine ⟨?_, Or.inr ⟨_, enqueue_of_room stage still, rfl⟩⟩
      intro outcome returned
      cases stage.symm.trans returned
    | recording stage line =>
      refine ⟨?_, Or.inl ⟨_, stage⟩⟩
      intro outcome returned
      cases stage.symm.trans returned
      exact ⟨rfl, line⟩
  · intro batcher reachable
    exact (lossless_of_reachable policy reachable).none

/-! ### A cancelled flush -/

/-- Two events a batch, one batch in the queue, and waiting for room. -/
def blockingSettings : Settings where
  config := {
    deviceID := "device-1"
    maxEvents := 2
    maxInterval := 1000000000
    queueDepth := 1
    policy := .block
    flushSignal := false }
  valid := by decide

/-- Whether the context is not done, or no flush is in its first select. -/
def unhurried {settings : Settings} (before : Batcher settings)
    (_ : Action) : Bool :=
  before.context = none ∨ before.collector.selects ≠ 3

theorem roomy_of_unhurried {settings : Settings}
    (before : Batcher settings) (action : Action)
    (checked : unhurried before action = true) :
    Roomy before action := by
  have first : ∀ batch next, before.collector = .enqueueing batch next →
      before.context = none := by
    intro batch next stage
    refine (of_decide_eq_true checked).resolve_right ?_
    rw [stage]
    exact not_not.mpr rfl
  refine ⟨fun batch next stage _ => first batch next stage, ?_⟩
  rintro ⟨batch, next, fault, stage, done, _⟩
  cases done.symm.trans (first batch next stage)

/-- A batch is flushed by the ticker. -/
def flushRun : List Action :=
  [.run .started, .receive (sampleEvent 1) ⟨10⟩, .tick ⟨15⟩]

def flushingBatcher : Batcher blockingSettings :=
  ((machine blockingSettings).runIf unhurried
    (.new blockingSettings) flushRun).get (by decide)

def flushedBatch : Batch := ⟨"device-1", ⟨15⟩, [sampleEvent 1]⟩

theorem flushingBatcher_called :
    flushingBatcher.collector = .enqueueing flushedBatch .resume := by
  decide

/-- The batch is sent to the queue. -/
def sentBatcher : Batcher blockingSettings :=
  ((callMachine flushingBatcher).runIf unhurried flushingBatcher
    [.enqueue]).get (by decide)

/-- The context is done after the flush, with nothing pending. -/
def closedBatcher : Batcher blockingSettings :=
  ((machine blockingSettings).runIf unhurried flushingBatcher
    [.enqueue, .record, .cancel errCanceled, .stop ⟨20⟩]).get (by decide)

theorem blocking_drops_only_without_room_flushed :
    sentBatcher.line = [flushedBatch] ∧ closedBatcher.context ≠ none ∧
      closedBatcher.queue = [flushedBatch] ∧
      closedBatcher.stats.eventsDropped = 0 := by
  have blocking := @blocking_drops_only_without_room blockingSettings
    (by decide)
  have called : (callMachine flushingBatcher).ReachableUnder
      Calm sentBatcher :=
    (Machine.ReachableUnder.start rfl).runIf
      (fun before action checked =>
        (roomy_of_unhurried before action checked).1)
      (Option.some_get _).symm
  have flushing : (machine blockingSettings).ReachableUnder
      Roomy flushingBatcher :=
    (Machine.ReachableUnder.start rfl).runIf roomy_of_unhurried
      (Option.some_get _).symm
  have closed : (machine blockingSettings).ReachableUnder
      Roomy closedBatcher :=
    flushing.runIf roomy_of_unhurried (Option.some_get _).symm
  have sent := (blocking.1 flushingBatcher sentBatcher flushedBatch .resume
    flushingBatcher_called (by decide) called).1 ⟨true, []⟩ (by decide)
  exact ⟨sent.2, by decide, by decide, blocking.2 closedBatcher closed⟩

/-- An event is pending when the context is done. -/
def cancelledRun : List Action :=
  [.run .started, .receive (sampleEvent 1) ⟨10⟩, .cancel errCanceled,
    .stop ⟨20⟩]

/-- The last flush begins, with an empty queue. -/
def cancelledBatcher : Batcher blockingSettings :=
  ((machine blockingSettings).run (.new blockingSettings)
    cancelledRun).get (by decide)

def lastBatch : Batch := ⟨"device-1", ⟨20⟩, [sampleEvent 1]⟩

/-- The select takes the branch of the context, although there is room. -/
def expiredBatcher : Batcher blockingSettings :=
  ((machine blockingSettings).run cancelledBatcher
    [.expire, .record]).get (by decide)

theorem blocking_drops_with_room : cancelledBatcher.collector =
        .enqueueing lastBatch (.finish (some errCanceled)) ∧
      cancelledBatcher.queue.length < blockingSettings.queueDepth ∧
      (machine blockingSettings).Reachable expiredBatcher ∧
      expiredBatcher.dropped = [lastBatch] ∧
      expiredBatcher.stats.eventsDropped = 1 := by
  refine ⟨by decide, by decide, ?_, by decide, by decide⟩
  have cancelled : (machine blockingSettings).Reachable
      cancelledBatcher :=
    (Machine.Reachable.start rfl).run (Option.some_get _).symm
  exact cancelled.run (Option.some_get _).symm

end Ironclaw.Pipeline
