import Ironclaw.Bus.Effects
import Ironclaw.Bus.Shutdown

/-!
# A bus whose handler succeeds

Where no context is done and every handler call returns nil, a consume loop
hands each value out once and no value is buried.  The values that the handler
took are then all that the channels took, once the bus has stopped.

The bus is seen from the outside here: what its callers know of their calls,
what the handler took, and that the loops which have returned stay so.
-/

namespace Ironclaw.Bus

open Lib List Slots SendCall Bus

variable {settings : Settings} {Value : Type}
variable {bus after : Bus settings Value} {index : Nat}
variable {parcel : Parcel Value} {value : Value} {awaited next : Nat → Prop}

/-- The steps of the calls and loops of a bus whose contexts are live. -/
def Action.isInternal : Action settings Value → Bool
  | .check _ | .enter _ | .push _ | .refuse _ | .count _ | .leave _ => true
  | .receive _ | .shut _ | .finish _ | .deliver _ => true
  | _ => false

/-! ## Smooth loops -/

/-- A delivery in its first attempt, or after a success. -/
def Delivery.smooth : Delivery → Bool
  | .looping attempt | .calling attempt => attempt == 1
  | .succeeded => true
  | _ => false

def Stage.smooth : Stage Value → Bool
  | .delivering _ _ delivery => delivery.smooth
  | _ => true

/-- The value that the handler took and the loop has not counted yet. -/
def Stage.taken : Stage Value → Multiset (Parcel Value)
  | .delivering _ parcel .succeeded => {parcel}
  | _ => 0

/-- The values that the handler took. -/
def handled (bus : Bus settings Value) : Multiset (Parcel Value) :=
  bus.settled + Slots.total (fun _ consumer => consumer.stage.taken)
    bus.consumers

/-- No context is done, no handler call has failed, nothing is buried. -/
structure Smooth (bus : Bus settings Value) : Prop where
  context : ∀ consumer ∈ bus.consumers, consumer.context = none
  stage : ∀ consumer ∈ bus.consumers, consumer.stage.smooth = true
  buried : bus.buried = []

theorem smooth_new : (new settings Value).Smooth where
  context := forall_mem_nil _
  stage := forall_mem_nil _
  buried := rfl

/-- A loop moves on smoothly. -/
theorem Smooth.set
    {new : Consumer settings.partitions Value} (smooth : bus.Smooth)
    (consumers : after.consumers = bus.consumers.set index new)
    (buried : after.buried = bus.buried) (context : new.context = none)
    (stage : new.stage.smooth = true) : after.Smooth where
  context consumer member := by
    rw [consumers] at member
    rcases mem_or_eq_of_mem_set member with earlier | rfl
    · exact smooth.context consumer earlier
    · exact context
  stage consumer member := by
    rw [consumers] at member
    rcases mem_or_eq_of_mem_set member with earlier | rfl
    · exact smooth.stage consumer earlier
    · exact stage
  buried := buried.trans smooth.buried

theorem Smooth.frame
    (smooth : bus.Smooth) (consumers : after.consumers = bus.consumers)
    (buried : after.buried = bus.buried) : after.Smooth where
  context := by
    rw [consumers]
    exact smooth.context
  stage := by
    rw [consumers]
    exact smooth.stage
  buried := buried.trans smooth.buried

/-! ## What an internal step does -/

/-- Whether a call has met no error. -/
def Phase.clear : Phase → Bool
  | .leaving result | .returned result => result.isNone
  | _ => true

/-- A call or a loop moves on; `Close` is woken at most. -/
inductive Progress (bus : Bus settings Value) : Bus settings Value → Prop where
  | call {id : Nat} {key value old new channels inflight closer published}
      (found : bus.calls[id]? = some ⟨key, value, old⟩)
      (running : old.isReturned = false)
      (clear : bus.closed = false → bus.closing = false →
        old.clear = true → new.clear = true)
      (woken : closer = bus.closer ∨ closer = bus.closer.wake) :
      Progress bus { bus with
        channels := channels
        calls := bus.calls.set id ⟨key, value, new⟩
        inflight := inflight
        closer := closer
        published := published }
  | loop {index : Nat} {old new channels handed delivered}
      {settled : List (Parcel Value)}
      (found : bus.consumers[index]? = some old)
      (running : old.stage.isReturned = false)
      (context : new.context = old.context)
      (stage : new.stage.smooth = true)
      (taken : settled + new.stage.taken = bus.settled + old.stage.taken) :
      Progress bus { bus with
        channels := channels
        consumers := bus.consumers.set index new
        handed := handed
        delivered := delivered
        settled := settled }

theorem progress_deliver
    (smooth : bus.Smooth) (step : bus.deliver index = some after) :
    Progress bus after := by
  simp only [deliver] at step
  split at step
  · rename_i partition context draining parcel delivery found
    have steady := smooth.stage _ (mem_of_getElem? found)
    cases delivery with
    | looping attempt =>
      -- A smooth delivery is in its first attempt, which is allowed.
      have first : attempt = 1 := eq_of_beq steady
      simp only at step
      rw [if_pos (first ▸ settings.bounds.2.2)] at step
      cases step
      exact .loop found rfl rfl steady rfl
    | calling attempt => cases step
    | succeeded =>
      cases step
      exact .loop found rfl rfl rfl ((add_zero _).trans (coe_snoc _ _))
    | failed | abandoning | retrying | burying => cases steady
  · cases step

theorem progress {action : Action settings Value} (smooth : bus.Smooth)
    (internal : action.isInternal = true)
    (step : bus.step action = some after) : Progress bus after := by
  cases action with
  | check | enter | push | refuse | count | leave =>
    simp only [Bus.step, check, enter, push, refuse, count, leave] at step
    (repeat' split at step) <;> cases step <;> apply Progress.call
    all_goals first | assumption | rfl | exact Or.inl rfl |
      exact Or.inr rfl | simp_all [Phase.clear]
  | receive | shut | finish =>
    simp only [Bus.step, receive, shut, finish] at step
    (repeat' split at step) <;> cases step
    all_goals
      apply Progress.loop
      all_goals first | assumption | rfl
  | deliver index => exact progress_deliver smooth step
  | _ => cases internal

section Consequences

theorem Progress.smooth
    (progress : Progress bus after) (smooth : bus.Smooth) : after.Smooth := by
  cases progress with
  | call => exact smooth.frame rfl rfl
  | loop found _ context stage =>
    have live := context.trans (smooth.context _ (mem_of_getElem? found))
    exact smooth.set rfl rfl live stage

theorem Progress.handled (progress : Progress bus after) :
    after.handled = bus.handled := by
  cases progress with
  | call => rfl
  | @loop index old new _ _ _ settled found _ _ _ taken =>
    have exchanged :=
      total_set (fun _ consumer => consumer.stage.taken) new found
    apply add_right_cancel (b := old.stage.taken)
    rw [Bus.handled, Bus.handled, add_assoc, exchanged, add_left_comm,
      taken, add_assoc, add_left_comm]

/-- `Close` has not started, and no call has met an error. -/
structure Unclosed (bus : Bus settings Value) : Prop where
  closer : bus.closer = .idle
  closed : bus.closed = false
  closing : bus.closing = false
  clear : ∀ call ∈ bus.calls, call.phase.clear = true

theorem unclosed_new : (new settings Value).Unclosed :=
  ⟨rfl, rfl, rfl, forall_mem_nil _⟩

theorem Progress.unclosed
    (progress : Progress bus after) (unclosed : bus.Unclosed) :
    after.Unclosed := by
  cases progress with
  | call found running clear woken =>
    refine ⟨?_, unclosed.closed, unclosed.closing, ?_⟩
    · rcases woken with rfl | rfl
      · exact unclosed.closer
      · rw [unclosed.closer]
        rfl
    · intro call member
      rcases mem_or_eq_of_mem_set member with earlier | rfl
      · exact unclosed.clear call earlier
      · apply clear unclosed.closed unclosed.closing
        exact unclosed.clear _ (mem_of_getElem? found)
  | loop => exact { unclosed with }

theorem Unclosed.send
    (unclosed : bus.Unclosed) (key : String) (value : Value) :
    (bus.send key value).Unclosed :=
  { unclosed with
    clear := forall_mem_concat unclosed.clear rfl }

/-- Every partition has a loop, and all loops have returned. -/
structure Ended (bus : Bus settings Value) : Prop where
  served : ∀ partition, ∃ consumer ∈ bus.consumers,
    consumer.partition = partition
  returned : ∀ consumer ∈ bus.consumers, consumer.stage.isReturned = true

theorem Progress.consumers_of_ended
    (progress : Progress bus after) (ended : bus.Ended) :
    after.consumers = bus.consumers := by
  cases progress with
  | call => rfl
  | loop found running =>
    have returned := ended.returned _ (mem_of_getElem? found)
    rw [running] at returned
    cases returned

theorem Ended.of_consumers
    (ended : bus.Ended) (same : after.consumers = bus.consumers) :
    after.Ended := by
  constructor
  · rw [same]
    exact ended.served
  · rw [same]
    exact ended.returned

theorem Progress.done
    (progress : Progress bus after) (done : bus.closer = .done) :
    after.closer = .done := by
  cases progress with
  | call _ _ _ woken =>
    rcases woken with rfl | rfl
    · exact done
    · rw [done]
      rfl
  | loop => exact done

end Consequences

/-! ## Calls and their callers -/

/-- The values of the calls, in the order in which they started. -/
def values (bus : Bus settings Value) : List Value :=
  bus.calls.map SendCall.value

variable {id : Nat}

theorem values_set {key : String} {old new : Phase}
    (found : bus.calls[id]? = some ⟨key, value, old⟩)
    (calls : after.calls = bus.calls.set id ⟨key, value, new⟩) :
    after.values = bus.values := by
  have here : bus.values[id]? = some value := by
    rw [values, List.getElem?_map, found]
    rfl
  rcases List.getElem?_eq_some_iff.mp here with ⟨bound, same⟩
  rw [values, calls, map_set]
  show bus.values.set id value = bus.values
  rw [← same]
  exact set_getElem_self bound

theorem Progress.values (progress : Progress bus after) :
    after.values = bus.values := by
  cases progress with
  | call found => exact values_set found rfl
  | loop => rfl

theorem values_send
    (bus : Bus settings Value) (key : String) (value : Value) :
    (bus.send key value).values = bus.values ++ [value] := by
  rw [values, send, map_append]
  rfl

/-- What a call adds to the values that the channels took. -/
def SendCall.gain (call : SendCall Value) : Multiset Value :=
  if call.phase.accepted then {call.value} else 0

open Classical in
/-- What a call adds that nobody waits for. -/
noncomputable def SendCall.due
    (awaited : Nat → Prop) (id : Nat) (call : SendCall Value) :
    Multiset Value :=
  if awaited id then 0 else call.gain

theorem SendCall.due_of_awaited
    (call : SendCall Value) (waiting : awaited id) : call.due awaited id = 0 :=
  if_pos waiting

theorem SendCall.due_of_free (call : SendCall Value) (free : ¬awaited id) :
    call.due awaited id = call.gain :=
  if_neg free

theorem SendCall.due_congr
    (call : SendCall Value) (same : next id ↔ awaited id) :
    call.due next id = call.due awaited id := by
  by_cases waiting : awaited id
  · rw [due_of_awaited call waiting, due_of_awaited call (same.mpr waiting)]
  · rw [due_of_free call waiting,
      due_of_free call (fun waits => waiting (same.mp waits))]

/-- The values of the accepted calls that nobody waits for. -/
noncomputable def answered
    (awaited : Nat → Prop) (bus : Bus settings Value) : Multiset Value :=
  Slots.total (SendCall.due awaited) bus.calls

/--
The callers wait for the awaited calls.  Every other call has returned, and
those that were accepted carried the values in `sent`.
-/
structure Posted
    (awaited : Nat → Prop) (sent : Multiset Value)
    (bus : Bus settings Value) : Prop where
  bounded : ∀ id, awaited id → id < bus.calls.length
  returned : ∀ (id : Nat) (call : SendCall Value),
    bus.calls[id]? = some call → ¬awaited id → call.phase.isReturned = true
  answered : bus.answered awaited = sent

section Posted

variable {sent : Multiset Value}

theorem posted_new : Posted (fun _ => False) 0 (new settings Value) where
  bounded _ none := none.elim
  returned id call found := by
    cases found
  answered := rfl

section Posted

variable (posted : Posted awaited sent bus)
include posted

theorem Posted.of_calls (same : after.calls = bus.calls) :
    Posted awaited sent after where
  bounded := by
    rw [same]
    exact posted.bounded
  returned := by
    rw [same]
    exact posted.returned
  answered := by
    rw [Bus.answered, same]
    exact posted.answered

/-- A call that moves on is one that somebody waits for. -/
theorem Posted.advance {key : String} {old new : Phase}
    (found : bus.calls[id]? = some ⟨key, value, old⟩)
    (running : old.isReturned = false)
    (calls : after.calls = bus.calls.set id ⟨key, value, new⟩) :
    Posted awaited sent after := by
  have waiting : awaited id := by
    by_contra free
    have returned := posted.returned id _ found free
    rw [running] at returned
    cases returned
  constructor
  · intro other waits
    rw [calls, length_set]
    exact posted.bounded other waits
  · intro other call present free
    rw [calls] at present
    rcases of_set present with ⟨rfl, _⟩ | ⟨_, there⟩
    · exact absurd waiting free
    · exact posted.returned other call there free
  · rw [← posted.answered, Bus.answered, Bus.answered, calls]
    apply total_set_same _ found
    rw [due_of_awaited _ waiting, due_of_awaited _ waiting]

theorem Posted.progress (progress : Progress bus after) :
    Posted awaited sent after := by
  cases progress with
  | call found running => exact posted.advance found running rfl
  | loop => exact posted.of_calls rfl

/-- A new call is waited for. -/
theorem Posted.send (key : String) (value : Value)
    (moved : ∀ id, next id ↔ id = bus.calls.length ∨ awaited id) :
    Posted next sent (bus.send key value) where
  bounded id waits := by
    rw [Bus.send, length_append, length_singleton]
    rcases (moved id).mp waits with rfl | earlier
    · exact Nat.lt_succ_self _
    · exact (posted.bounded id earlier).trans (Nat.lt_succ_self _)
  returned id call found free := by
    rcases concat_iff.mp found with here | ⟨rfl, _⟩
    · exact posted.returned id call here
        fun earlier => free ((moved id).mpr (.inr earlier))
    · exact absurd ((moved _).mpr (.inl rfl)) free
  answered := by
    rw [← posted.answered, Bus.answered, Bus.answered, Bus.send, total_append,
      due_of_awaited _ ((moved _).mpr (.inl rfl)), add_zero]
    apply total_congr
    intro id call found
    have bound := (List.getElem?_eq_some_iff.mp found).1
    have same : next id ↔ awaited id := by
      rw [moved]
      constructor
      · rintro (rfl | earlier)
        · exact absurd bound (lt_irrefl _)
        · exact earlier
      · exact .inr
    exact due_congr call same

/-- A caller gets the answer of a call that has returned. -/
theorem Posted.answer {key : String} {result : Option Fault}
    (found : bus.calls[id]? = some ⟨key, value, .returned result⟩)
    (waiting : awaited id)
    (moved : ∀ other, next other ↔ awaited other ∧ other ≠ id) :
    Posted next (sent + if result.isNone then {value} else 0) bus where
  bounded other waits := posted.bounded other ((moved other).mp waits).1
  returned other call present free := by
    by_cases same : other = id
    · subst same
      rw [found] at present
      cases present
      rfl
    · exact posted.returned other call present
        fun waits => free ((moved other).mpr ⟨waits, same⟩)
  answered := by
    rw [← posted.answered]
    have freed : ¬next id := fun waits => ((moved id).mp waits).2 rfl
    have gained : gain ⟨key, value, .returned result⟩ =
        if result.isNone then {value} else 0 := by
      cases result with
      | none | some => rfl
    rw [← gained]
    show total (due next) bus.calls = total (due awaited) bus.calls + _
    apply total_gain (due awaited) found
    · rw [due_of_awaited _ waiting, due_of_free _ freed, zero_add]
    · intro other call present different
      apply due_congr
      rw [moved]
      exact and_iff_left different

theorem Posted.idle (free : ∀ id, ¬awaited id) :
    ∀ call ∈ bus.calls, call.phase.isReturned = true := by
  intro call member
  rcases mem_iff_getElem?.mp member with ⟨id, found⟩
  exact posted.returned id call found (free id)

theorem Posted.accepted_eq (free : ∀ id, ¬awaited id) :
    bus.accepted.map Parcel.value = sent := by
  apply Eq.trans _ posted.answered
  calc bus.accepted.map Parcel.value
      = total (fun id call => (parcels id call).map Parcel.value) bus.calls :=
        map_total parcels (Multiset.mapAddMonoidHom Parcel.value) bus.calls
    _ = total (due awaited) bus.calls := by
        apply total_congr
        intro id call _
        rw [due_of_free call (free id), parcels, gain]
        split
        · rfl
        · rfl

end Posted

end Posted

/-! ## The other steps -/

section Others

/-- A loop starts where its partition had none. -/
theorem Smooth.join
    (smooth : bus.Smooth) (partition : Fin settings.partitions) :
    (bus.join partition).Smooth where
  context := forall_mem_concat smooth.context rfl
  stage := forall_mem_concat smooth.stage rfl
  buried := smooth.buried

theorem handled_join (partition : Fin settings.partitions) :
    (bus.join partition).handled = bus.handled := by
  rw [handled, handled, join, total_append]
  exact congrArg _ (add_zero _)

/-- `Close` leaves the calls and the loops alone. -/
theorem frame_close (step : bus.close = some after) :
    after.calls = bus.calls ∧ after.consumers = bus.consumers ∧
      after.settled = bus.settled ∧ after.buried = bus.buried := by
  simp only [close] at step
  split at step
  case h_5 =>
    split at step
    · cases step
      exact ⟨rfl, rfl, rfl, rfl⟩
    · cases step
      exact ⟨rfl, rfl, rfl, rfl⟩
  all_goals
    cases step
    try exact ⟨rfl, rfl, rfl, rfl⟩

theorem handled_close (step : bus.close = some after) :
    after.handled = bus.handled := by
  rcases frame_close step with ⟨_, consumers, settled, _⟩
  rw [handled, handled, consumers, settled]

theorem Smooth.close (smooth : bus.Smooth) (step : bus.close = some after) :
    after.Smooth := by
  rcases frame_close step with ⟨_, consumers, _, buried⟩
  exact smooth.frame consumers buried

theorem handle_cases (step : bus.handle index none = some after) :
    ∃ partition context draining parcel attempt,
      bus.consumers[index]? = some ⟨partition, context,
        .delivering draining parcel (.calling attempt)⟩ ∧
      after = { bus with
        consumers := bus.consumers.set index ⟨partition, context,
          .delivering draining parcel .succeeded⟩ } := by
  simp only [handle] at step
  split at step
  · rename_i partition context draining parcel attempt found
    cases step
    exact ⟨partition, context, draining, parcel, attempt, found, rfl⟩
  · cases step

theorem Smooth.handle
    (smooth : bus.Smooth) (step : bus.handle index none = some after) :
    after.Smooth := by
  rcases handle_cases step with
    ⟨partition, context, draining, parcel, attempt, found, same⟩
  have consumers : after.consumers = bus.consumers.set index
      ⟨partition, context, .delivering draining parcel .succeeded⟩ := by
    rw [same]
  have buried : after.buried = bus.buried := by
    rw [same]
  have live : context = none := smooth.context _ (mem_of_getElem? found)
  exact smooth.set consumers buried live rfl

/-- What the handler took grows by the value of the loop. -/
theorem handled_handle {consumer : Consumer settings.partitions Value}
    (step : bus.handle index none = some after)
    (found : bus.consumers[index]? = some consumer)
    (attempting : consumer.stage.attempting = some parcel) :
    after.handled = bus.handled + {parcel} := by
  rcases handle_cases step with
    ⟨partition, context, draining, held, attempt, here, rfl⟩
  rw [here] at found
  cases found
  cases attempting
  have exchanged := total_set (fun _ consumer => consumer.stage.taken)
    (⟨partition, context, .delivering draining parcel .succeeded⟩ :
      Consumer settings.partitions Value) here
  rw [handled, handled, add_assoc]
  apply congrArg
  exact (add_zero _).symm.trans exchanged

/-- A bus that has stopped handled what its channels took. -/
theorem Smooth.handled_eq (smooth : bus.Smooth) (sound : bus.Sound)
    (senders : ∀ call ∈ bus.calls, call.phase.isReturned = true)
    (closed : bus.closer = .done) (ended : bus.Ended) :
    bus.handled = bus.accepted := by
  have stopped : bus.Stopped :=
    ⟨senders, closed, ended.served, ended.returned, smooth.context⟩
  have idle : total (fun _ consumer => consumer.stage.taken)
      bus.consumers = 0 := by
    apply total_eq_zero
    intro index consumer found
    rcases Stage.eq_returned (ended.returned consumer (mem_of_getElem? found))
      with ⟨result, returned⟩
    rw [returned]
    rfl
  rw [handled, idle, stopped.accepted_eq sound, smooth.buried]
  rfl

/-- The value of a handler call was sent by a call. -/
theorem Sound.call_of_attempting
    {consumer : Consumer settings.partitions Value}
    (sound : bus.Sound) (member : consumer ∈ bus.consumers)
    (attempting : consumer.stage.attempting = some parcel) :
    ∃ call ∈ bus.calls, call.value = parcel.value := by
  have handed : parcel ∈ bus.handed := by
    have known := (sound.fits consumer member).handed
    cases stage : consumer.stage with
    | selecting | returned =>
      rw [stage] at attempting
      cases attempting
    | delivering draining held delivery =>
      rw [stage] at attempting known
      cases delivery with
      | calling attempt =>
        cases attempting
        exact known
      | _ => cases attempting
  rcases mem_accepted.mp (sound.booked.known parcel handed)
    with ⟨call, found, _, same⟩
  exact ⟨call, mem_of_getElem? found, same⟩

end Others

end Ironclaw.Bus
