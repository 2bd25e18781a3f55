import Ironclaw.Lib.Slots
import Ironclaw.Metrics.Async

/-!
# The accounts of the asynchronous recorder

Every sample is forwarded, counted as dropped, in the buffer, in the hands of
the goroutine or of its call.  The goroutine returns with an empty buffer.  But
a call of `Increment` reads the flag before it sends: if the goroutine returns
in between, the sample stays in the buffer for good and is counted nowhere.
-/

namespace Ironclaw.Metrics

open Lib List Slots

/-! ## The invariant -/

/-- One for a call that has not returned. -/
def IncrementCall.unreturned (call : IncrementCall) : Nat :=
  if call.phase = .returned then 0 else 1

/-- One while the goroutine holds a sample. -/
def Drain.held : Drain → Nat
  | .forwarding _ _ => 1
  | _ => 0

/-- A call of `Close` that has set the flag and waits for the goroutine. -/
def CloseCall.ending : CloseCall → Bool
  | .closing | .waiting => true
  | _ => false

namespace Async

/-- The calls of `Increment` that have not returned. -/
def pending (async : Async) : Nat :=
  Slots.total (fun _ => IncrementCall.unreturned) async.calls

/-- Every call has its sample in one place; `count` of them are dropped. -/
structure Balanced (count : Nat) (async : Async) : Prop where
  dropped : async.dropped = Int64.ofNat count
  places : async.forwarded.length + count + async.samples.length +
    async.drain.held + async.pending = async.calls.length

/-- The invariant of the recorder. -/
structure Sound (async : Async) : Prop where
  balanced : ∃ count, async.Balanced count
  drained : async.drain = .returned → async.samples = []
  ending : async.closed = true → async.drain = .returned ∨
    ∃ (id : Nat) (closer : CloseCall),
      async.closers[id]? = some closer ∧ closer.ending = true
  swapped : ∀ closer ∈ async.closers, closer ≠ .swapping → async.closed = true

section Steps

variable {async after : Async} {count : Nat}
variable {sample : Sample}

/-! ## Increment -/

variable {id : Nat}

section Balanced

variable (balanced : async.Balanced count)
include balanced

theorem Balanced.increment (sample : Sample) :
    (async.increment sample).Balanced count where
  dropped := balanced.dropped
  places := by
    have places := balanced.places
    have more : (async.increment sample).pending = async.pending + 1 :=
      total_append _ _ _
    rw [more]
    simp only [Async.increment, length_append, length_singleton]
    omega

/-- A call moves on; its sample is still with it, in the buffer or counted. -/
theorem Balanced.call {old new : Phase} {samples : List Sample}
    {dropped : Int64} {now : Nat}
    (found : async.calls[id]? = some ⟨sample, old⟩)
    (counted : dropped = Int64.ofNat now)
    (same : now + samples.length + IncrementCall.unreturned ⟨sample, new⟩ =
      count + async.samples.length +
        IncrementCall.unreturned ⟨sample, old⟩) :
    { async with
      samples := samples
      dropped := dropped
      calls := async.calls.set id ⟨sample, new⟩ }.Balanced now where
  dropped := counted
  places := by
    have places := balanced.places
    have moved := total_set (fun _ => IncrementCall.unreturned)
      ⟨sample, new⟩ found
    simp only [Async.pending, length_set] at places moved ⊢
    omega

end Balanced

section Sound

variable (sound : async.Sound)
include sound

theorem Sound.check (step : async.check id = some after) : after.Sound := by
  obtain ⟨count, balanced⟩ := sound.balanced
  rw [Async.check] at step
  split at step
  · rename_i sample found
    cases step
    refine ⟨⟨count, balanced.call found balanced.dropped ?_⟩,
      sound.drained, sound.ending, sound.swapped⟩
    split <;> rfl
  · cases step

/-- The buffer takes a sample only while the goroutine runs. -/
theorem Sound.send (running : async.drain ≠ .returned)
    (step : async.send id = some after) : after.Sound := by
  obtain ⟨count, balanced⟩ := sound.balanced
  rw [Async.send] at step
  split at step
  · rename_i sample found
    split at step
    · cases step
      refine ⟨⟨count, balanced.call found balanced.dropped ?_⟩,
        fun ended => absurd ended running, sound.ending, sound.swapped⟩
      rw [length_append]
      rfl
    · cases step
      exact ⟨⟨count, balanced.call found balanced.dropped rfl⟩,
        sound.drained, sound.ending, sound.swapped⟩
  · cases step

theorem Sound.drop (step : async.drop id = some after) : after.Sound := by
  obtain ⟨count, balanced⟩ := sound.balanced
  rw [Async.drop] at step
  split at step
  · rename_i sample found
    cases step
    refine ⟨⟨count + 1, balanced.call found ?_ ?_⟩, sound.drained,
      sound.ending, sound.swapped⟩
    · rw [Word.ofNat_succ, balanced.dropped]
    · exact Nat.add_right_comm count 1 _
  · cases step

/-! ## Drain -/

/-- The goroutine goes on, and no sample is lost on its way. -/
theorem Sound.turn
    (running : async.drain ≠ .returned) {samples forwarded : List Sample}
    {drain : Drain} (runs : drain ≠ .returned)
    (same : forwarded.length + samples.length + drain.held =
      async.forwarded.length + async.samples.length + async.drain.held) :
    { async with
      samples := samples
      forwarded := forwarded
      drain := drain }.Sound where
  balanced := by
    obtain ⟨count, dropped, places⟩ := sound.balanced
    refine ⟨count, dropped, ?_⟩
    simp only [Async.pending] at places ⊢
    omega
  drained returned := absurd returned runs
  ending closed := Or.inr ((sound.ending closed).resolve_left running)
  swapped := sound.swapped

theorem Sound.receive (step : async.receive = some after) : after.Sound := by
  rw [Async.receive] at step
  split at step <;> cases step
  all_goals
    rename_i sample rest waiting stage
    refine sound.turn (by rw [stage]; exact nofun) nofun ?_
    rw [waiting, stage]
    rfl

theorem Sound.forward (step : async.forward = some after) : after.Sound := by
  rw [Async.forward] at step
  split at step
  · rename_i sample last stage
    cases step
    refine sound.turn (by rw [stage]; exact nofun) ?_ ?_
    · split <;> exact nofun
    · have free : (if last then Drain.draining
          else Drain.selecting).held = 0 := by
        cases last <;> rfl
      rw [stage, free, length_append, length_singleton, add_zero]
      exact Nat.add_right_comm _ _ _
  · cases step

theorem Sound.finish (step : async.finish = some after) : after.Sound := by
  rw [Async.finish] at step
  split at step
  · rename_i stage _
    cases step
    refine sound.turn (by rw [stage]; exact nofun) nofun ?_
    rw [stage]
    rfl
  · cases step

/-- The goroutine returns with an empty buffer. -/
theorem Sound.stop (step : async.stop = some after) : after.Sound := by
  rw [Async.stop] at step
  split at step
  · rename_i stage empty
    cases step
    obtain ⟨count, dropped, places⟩ := sound.balanced
    rw [stage] at places
    exact ⟨⟨count, dropped, places⟩, fun _ => empty,
      fun _ => Or.inl rfl, sound.swapped⟩
  · cases step

end Sound

/-! ## Close -/

theorem Sound.close (sound : async.Sound) : async.close.Sound where
  balanced := by
    obtain ⟨count, dropped, places⟩ := sound.balanced
    exact ⟨count, dropped, places⟩
  drained := sound.drained
  ending := by
    intro closed
    rcases sound.ending closed with ended | ⟨id, closer, present, ending⟩
    · exact Or.inl ended
    · have inside := (List.getElem?_eq_some_iff.mp present).1
      refine Or.inr ⟨id, closer, ?_, ending⟩
      exact (List.getElem?_append_left inside).trans present
  swapped := by
    intro closer member different
    rcases mem_append.mp member with old | new
    · exact sound.swapped closer old different
    · exact absurd (mem_singleton.mp new) different

theorem Sound.swap (sound : async.Sound) (step : async.swap id = some after) :
    after.Sound := by
  rw [Async.swap] at step
  split at step
  · rename_i found
    cases step
    obtain ⟨count, dropped, places⟩ := sound.balanced
    refine ⟨⟨count, dropped, places⟩, sound.drained, ?_, fun _ _ _ => rfl⟩
    intro _
    cases closed : async.closed with
    | true =>
      rcases sound.ending closed with ended | ⟨other, known⟩
      · exact Or.inl ended
      · exact Or.inr ⟨other, exists_set found nofun known⟩
    | false =>
      refine Or.inr ⟨id, .closing, ?_, rfl⟩
      exact (getElem?_set _ found id).trans (if_pos rfl)
  · cases step

theorem Sound.closeDone
    (sound : async.Sound) (step : async.closeDone id = some after) :
    after.Sound := by
  rw [Async.closeDone] at step
  split at step
  · rename_i found
    cases step
    obtain ⟨count, dropped, places⟩ := sound.balanced
    refine ⟨⟨count, dropped, places⟩, sound.drained, ?_, ?_⟩
    · intro closed
      rcases sound.ending closed with ended | ⟨other, known⟩
      · exact Or.inl ended
      · exact Or.inr ⟨other, exists_set found (fun _ => rfl) known⟩
    · intro _ _ _
      exact sound.swapped .closing (mem_of_getElem? found) nofun
  · cases step

theorem Sound.wait (sound : async.Sound) (step : async.wait id = some after) :
    after.Sound := by
  rw [Async.wait] at step
  split at step
  · rename_i found ended
    cases step
    obtain ⟨count, dropped, places⟩ := sound.balanced
    refine ⟨⟨count, dropped, places⟩, sound.drained,
      fun _ => Or.inl ended, ?_⟩
    intro _ _ _
    exact sound.swapped .waiting (mem_of_getElem? found) nofun
  · cases step

/-! ## Runs -/

/-- No sample is sent after the goroutine has returned. -/
def SendsInTime (before : Async) (action : Action) : Prop :=
  ∀ id, action = .send id → before.drain ≠ .returned

theorem Sound.step (sound : async.Sound) {action : Action}
    (inTime : async.SendsInTime action)
    (step : async.step action = some after) : after.Sound := by
  cases action with
  | increment sample =>
    cases step
    obtain ⟨count, balanced⟩ := sound.balanced
    exact ⟨⟨count, balanced.increment sample⟩, sound.drained,
      sound.ending, sound.swapped⟩
  | check id => exact sound.check step
  | send id => exact sound.send (inTime id rfl) step
  | drop id => exact sound.drop step
  | receive => exact sound.receive step
  | forward => exact sound.forward step
  | finish => exact sound.finish step
  | stop => exact sound.stop step
  | close =>
    cases step
    exact sound.close
  | swap id => exact sound.swap step
  | closeDone id => exact sound.closeDone step
  | wait id => exact sound.wait step

theorem sound_of_reachable {buffer : Int64}
    (reachable : (asyncMachine buffer).ReachableUnder SendsInTime
      async) : async.Sound := by
  apply reachable.invariant
  · rintro async created
    cases created
    exact ⟨⟨0, rfl, rfl⟩, fun _ => rfl, nofun, nofun⟩
  · intro before action after _ sound inTime step
    exact sound.step inTime step

/-- Once every `Close` has returned the goroutine has, too. -/
theorem Sound.drain_returned
    (sound : async.Sound) (called : async.closers ≠ [])
    (closed : ∀ closer ∈ async.closers, closer = .returned) :
    async.drain = .returned := by
  obtain ⟨first, member⟩ := exists_mem_of_ne_nil _ called
  have flag : async.closed = true := by
    apply sound.swapped first member
    rw [closed first member]
    exact nofun
  rcases sound.ending flag with ended | ⟨id, closer, present, ending⟩
  · exact ended
  · rw [closed closer (mem_of_getElem? present)] at ending
    cases ending

end Steps

end Async

/-! ## The property -/

/--
If no `Increment` sends its sample after the goroutine has returned, then once
all calls of `Increment` and `Close` have returned, the samples that were
forwarded and the drop counter add up to the calls: modulo `2^64`, and exactly
below `2^63` calls.
-/
theorem samples_accounted
    {buffer : Int64} {async : Async}
    (reachable : (asyncMachine buffer).ReachableUnder Async.SendsInTime async)
    (returned : ∀ call ∈ async.calls, call.phase = .returned)
    (called : async.closers ≠ [])
    (closed : ∀ closer ∈ async.closers, closer = .returned) :
    Int64.ofNat async.forwarded.length + async.dropped =
        Int64.ofNat async.calls.length ∧
      (async.calls.length < 2 ^ 63 →
        (async.forwarded.length : Int) + async.dropped.toInt =
          async.calls.length) := by
  have sound := Async.sound_of_reachable reachable
  have ended := sound.drain_returned called closed
  obtain ⟨count, dropped, places⟩ := sound.balanced
  have none : async.pending = 0 := by
    apply Slots.total_eq_zero
    intro id call present
    rw [IncrementCall.unreturned,
      if_pos (returned call (mem_of_getElem? present))]
  have total : async.forwarded.length + count = async.calls.length := by
    rw [sound.drained ended, ended, none] at places
    exact places
  constructor
  · rw [dropped, ← Int64.ofNat_add, total]
  · intro few
    rw [dropped, Int64.toInt_ofNat_of_lt (by omega)]
    omega

/-! ### A sample that is sent too late -/

def sampleHit : Sample := ⟨"events", 1⟩

theorem newAsync_ok : (newAsync true 1).toOption.isSome = true := rfl

def freshAsync : Async := (newAsync true 1).toOption.get newAsync_ok

/-- A call reads the flag; then the recorder is closed. -/
def closingActions : List Action :=
  [.increment sampleHit, .check 0, .close, .swap 0, .closeDone 0]

/-- Whether a sample is sent before the goroutine has returned. -/
def inTime (async : Async) : Action → Bool
  | .send _ => async.drain ≠ .returned
  | _ => true

theorem sendsInTime_of_inTime
    (async : Async) (action : Action) (checked : inTime async action = true) :
    async.SendsInTime action := by
  rintro id rfl
  exact of_decide_eq_true checked

/-- The sample is sent; the goroutine forwards it, and returns. -/
def forwardedActions : List Action :=
  closingActions ++ [.send 0, .finish, .receive, .forward, .stop, .wait 0]

def forwardedAsync : Async :=
  ((asyncMachine 1).runIf inTime freshAsync forwardedActions).get (by decide)

theorem forwardedAsync_reachable :
    (asyncMachine 1).ReachableUnder Async.SendsInTime forwardedAsync :=
  (Machine.ReachableUnder.start rfl).runIf sendsInTime_of_inTime
    (Option.some_get _).symm

theorem samples_accounted_forwarded : forwardedAsync.calls.length = 1 ∧
      Int64.ofNat forwardedAsync.forwarded.length + forwardedAsync.dropped =
        Int64.ofNat forwardedAsync.calls.length :=
  ⟨by decide, (samples_accounted forwardedAsync_reachable (by decide)
    (by decide) (by decide)).1⟩

/-- The goroutine returns before the sample is sent. -/
def lateActions : List Action :=
  closingActions ++ [.finish, .stop, .wait 0, .send 0]

def lateAsync : Async :=
  ((asyncMachine 1).run freshAsync lateActions).get (by decide)

theorem late_sample_not_accounted : (asyncMachine 1).Reachable lateAsync ∧
      (∀ call ∈ lateAsync.calls, call.phase = .returned) ∧
      (∀ closer ∈ lateAsync.closers, closer = .returned) ∧
      lateAsync.calls.length = 1 ∧ lateAsync.closers.length = 1 ∧
      lateAsync.forwarded = [] ∧ lateAsync.dropped = 0 := by
  refine ⟨?_, by decide, by decide, by decide, by decide, by decide,
    by decide⟩
  exact (Machine.Reachable.start rfl).run (Option.some_get _).symm

end Ironclaw.Metrics
