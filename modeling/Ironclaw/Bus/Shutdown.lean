import Ironclaw.Bus.Books

/-!
# Shutdown of the bus

Once all calls have returned, every value that a channel took has its outcome:
`Close` has waited for the calls in flight before it tells the loops to drain,
so a loop that finds its channel empty leaves it empty for good.
-/

namespace Ironclaw.Bus

open Lib Slots Multiset SendCall

variable {settings : Settings} {Value : Type}
variable {bus : Bus settings Value}

/-- How often the value of a call is among the parcels. -/
def occurrences (id : Nat) (parcels : List (Parcel Value)) : Nat :=
  (parcels.map Parcel.id).count id

/--
Every sender has returned, `Close` has returned, and every partition had a
loop; every loop has returned and no context of a loop was cancelled.
-/
structure Stopped (bus : Bus settings Value) : Prop where
  senders : ∀ call ∈ bus.calls, call.phase.isReturned = true
  closed : bus.closer = .done
  served : ∀ partition, ∃ consumer ∈ bus.consumers,
    consumer.partition = partition
  consumers : ∀ consumer ∈ bus.consumers, consumer.stage.isReturned = true
  uncancelled : ∀ consumer ∈ bus.consumers, consumer.context = none

/-! ## No lost wake-up -/

/-- While `Close` sleeps, some call is in flight whose end will wake it. -/
theorem exists_inFlight_of_waiting
    (reachable : (machine settings Value).Reachable bus)
    (waiting : bus.closer = .waiting) :
    ∃ call ∈ bus.calls, call.phase.inFlight = true := by
  have flying := (sound_of_reachable reachable).gated.waiting waiting
  by_contra none
  have zero : bus.flying = 0 := by
    apply total_eq_zero
    intro index call found
    rw [SendCall.flying, if_neg]
    intro inFlight
    exact none ⟨call, List.mem_of_getElem? found, inFlight⟩
  omega

/-- Whether `Close` has closed the channel `closing`. -/
def Closer.announced : Closer → Bool
  | .idle | .locking | .storing | .announcing => false
  | _ => true

theorem closing_of_announced
    (reachable : (machine settings Value).Reachable bus) :
    bus.closer.announced = true → bus.closing = true := by
  apply reachable.invariant
  · rintro bus rfl ⟨⟩
  · intro before action after _ known step
    cases action with
    | close =>
      cases stage : before.closer <;>
        rw [stage] at known <;>
        simp only [machine, Bus.step, close, stage] at step <;>
        (repeat' split at step) <;> cases step <;>
        first | exact known | exact fun _ => rfl
    | leave id =>
      simp only [machine, Bus.step, leave] at step
      repeat' split at step
      all_goals cases step
      · cases stage : before.closer <;> rw [stage] at known <;> exact known
      · exact known
    | _ =>
      simp only [machine, Bus.step, check, enter, push, refuse, expire,
        count, join, cancel, quit, receive, shut, finish, handle,
        deliver] at step
      repeat' split at step
      all_goals cases step
      all_goals exact known

/--
`Close` never gets stuck.  Until it has returned it can take its next step, or
a call in flight can take one, whatever the loops do and however full the
channels are.
-/
theorem close_never_stuck
    (reachable : (machine settings Value).Reachable bus)
    (unfinished : bus.closer ≠ .done) :
    bus.close.isSome = true ∨ ∃ id, (bus.refuse id).isSome = true ∨
      (bus.count id).isSome = true ∨ (bus.leave id).isSome = true := by
  cases stage : bus.closer with
  | done => exact absurd stage unfinished
  | waiting =>
    right
    have closing := closing_of_announced reachable (by rw [stage]; rfl)
    rcases exists_inFlight_of_waiting reachable stage with
      ⟨⟨key, value, phase⟩, member, flying⟩
    rcases List.mem_iff_getElem?.mp member with ⟨id, found⟩
    refine ⟨id, ?_⟩
    cases phase with
    | selecting => exact Or.inl (by simp [refuse, found, closing])
    | counting => exact Or.inr (Or.inl (by simp [count, found]))
    | leaving result =>
      exact Or.inr (Or.inr (by simp [leave, found, stage, Closer.holdsLock]))
    | checking | entering | returned => cases flying
  | checking =>
    left
    simp only [close, stage]
    split <;> rfl
  | _ => exact Or.inl (by simp [close, stage])

/-! ## Nothing is under way -/

theorem Stage.eq_returned
    {stage : Stage Value} (returned : stage.isReturned = true) :
    ∃ result, stage = .returned result := by
  cases stage with
  | selecting | delivering => cases returned
  | returned result => exact ⟨result, rfl⟩

section Stopped

variable (stopped : bus.Stopped)
include stopped

theorem Stopped.queued_eq (sound : bus.Sound) : bus.queued = 0 := by
  apply Finset.sum_eq_zero
  intro partition _
  rcases stopped.served partition with ⟨consumer, member, rfl⟩
  rcases Stage.eq_returned (stopped.consumers consumer member)
    with ⟨result, returned⟩
  rw [(sound.fits consumer member).drained result
    (stopped.uncancelled consumer member) returned]
  rfl

theorem Stopped.held_eq : bus.held = 0 ∧ bus.interred = 0 := by
  constructor
  · apply total_eq_zero
    intro index consumer found
    rcases Stage.eq_returned
      (stopped.consumers consumer (List.mem_of_getElem? found))
      with ⟨result, returned⟩
    rw [returned]
    rfl
  · apply total_eq_zero
    intro index consumer found
    rcases Stage.eq_returned
      (stopped.consumers consumer (List.mem_of_getElem? found))
      with ⟨result, returned⟩
    rw [returned]
    rfl

theorem Stopped.uncounted_eq : bus.uncounted = 0 := by
  apply total_eq_zero
  intro index call found
  have returned := stopped.senders call (List.mem_of_getElem? found)
  rw [SendCall.uncounted]
  cases phase : call.phase with
  | counting =>
    rw [phase] at returned
    cases returned
  | _ => rfl

theorem Stopped.accepted_eq (sound : bus.Sound) :
    bus.accepted = bus.settled + bus.buried := by
  rw [sound.booked.balance, stopped.queued_eq sound, stopped.held_eq.1,
    outcomes, sound.booked.forsaken stopped.uncancelled]
  simp

theorem Stopped.letters_eq (sound : bus.Sound) :
    (bus.deadLetter : Multiset (Parcel Value)) = bus.buried := by
  rw [← sound.booked.letters, stopped.held_eq.2, add_zero]

end Stopped

/-! ## The value of one call -/

theorem mem_accepted {parcel : Parcel Value} : parcel ∈ bus.accepted ↔
      ∃ call, bus.calls[parcel.id]? = some call ∧
        call.phase.accepted = true ∧ call.value = parcel.value := by
  rw [accepted, mem_total]
  constructor
  · rintro ⟨index, call, found, inside⟩
    rw [parcels] at inside
    split_ifs at inside with taken
    · rw [mem_singleton.mp inside]
      exact ⟨call, found, taken, rfl⟩
    · exact absurd inside (notMem_zero _)
  · rintro ⟨call, found, taken, same⟩
    refine ⟨parcel.id, call, found, ?_⟩
    rw [parcels, if_pos taken, same]
    exact mem_singleton_self _

/-- The channels took the value of a call at most once. -/
theorem count_accepted
    {id : Nat} {call : SendCall Value} (found : bus.calls[id]? = some call)
    (taken : call.phase.accepted = true) :
    (bus.accepted.map Parcel.id).count id = 1 := by
  calc (bus.accepted.map Parcel.id).count id
      = total (fun position other =>
          ((parcels position other).map Parcel.id).count id)
          bus.calls :=
        map_total parcels
          ((countAddMonoidHom id).comp (mapAddMonoidHom Parcel.id)) bus.calls
    _ = ((call.parcels id).map Parcel.id).count id := by
        apply total_eq_single _ found
        intro position other _ different
        rw [parcels]
        split
        · simp [Ne.symm different]
        · simp
    _ = 1 := by simp [parcels, taken]

/-! ## No accepted send is stranded -/

/--
Each value whose `Send` returned nil was handed to the handler and is counted
once, as delivered or as dead; no value whose `Send` failed was handed out.
-/
theorem no_accepted_send_stranded
    (bus : Bus settings Value)
    (reachable : (machine settings Value).Reachable bus)
    (stopped : bus.Stopped) :
    (∀ id call, bus.calls[id]? = some call → (call.phase = .returned none →
        ⟨id, call.value⟩ ∈ bus.handed ∧
          occurrences id bus.settled + occurrences id bus.buried = 1 ∧
            (0 < occurrences id bus.buried →
              ⟨id, call.value⟩ ∈ bus.deadLetter)) ∧
      (∀ fault, call.phase = .returned (some fault) →
        ∀ parcel ∈ bus.handed, parcel.id ≠ id)) ∧
      bus.delivered = Int64.ofNat bus.settled.length ∧
        bus.dead = Int64.ofNat bus.buried.length ∧
          bus.published = bus.delivered + bus.dead := by
  have sound := sound_of_reachable reachable
  have accepted := stopped.accepted_eq sound
  refine ⟨?_, sound.booked.delivered, sound.booked.dead, ?_⟩
  · intro id call found
    constructor
    · intro returned
      have taken : call.phase.accepted = true := by
        rw [returned]
        rfl
      have counted : occurrences id bus.settled +
          occurrences id bus.buried = 1 := by
        have counted := count_accepted found taken
        rwa [accepted, Multiset.map_add, Multiset.count_add, map_coe,
          coe_count, map_coe, coe_count] at counted
      have member : ⟨id, call.value⟩ ∈ bus.settled ∨
          ⟨id, call.value⟩ ∈ bus.buried := by
        have known : ⟨id, call.value⟩ ∈ bus.accepted :=
          mem_accepted.mpr ⟨call, found, taken, rfl⟩
        rw [accepted] at known
        exact Multiset.mem_add.mp known
      refine ⟨sound.booked.recorded _ member, counted, ?_⟩
      intro buried
      rcases member with here | there
      · have settled : 0 < occurrences id bus.settled :=
          List.count_pos_iff.mpr (List.mem_map_of_mem here)
        omega
      · rw [← Multiset.mem_coe, stopped.letters_eq sound]
        exact there
    · rintro fault returned parcel handed rfl
      rcases mem_accepted.mp (sound.booked.known parcel handed)
        with ⟨other, same, taken, _⟩
      rw [found, Option.some.injEq] at same
      rw [← same, returned] at taken
      cases taken
  · have published := sound.booked.published
    rw [stopped.uncounted_eq, Word.ofNat_zero, add_zero, accepted,
      Multiset.card_add, Int64.ofNat_add] at published
    rw [← published, sound.booked.delivered, sound.booked.dead]
    rfl

/-! ### A run -/

def sampleSettings : Settings where
  config := ⟨2, 1, 2⟩
  valid := by decide

def errHandler : Fault := .sentinel "handler failed"

/--
The second call is in flight when `Close` comes, the third comes after it; the
handler takes the first value and refuses the second twice.
-/
def sampleActions : List (Action sampleSettings Nat) :=
  [.join ⟨0, by decide⟩, .join ⟨1, by decide⟩,
    .send "a" 10, .check 0, .enter 0, .push 0, .count 0, .leave 0,
    .send "b" 20, .check 1, .enter 1, .push 1,
    .close, .close, .close, .close, .close,
    .send "a" 30, .check 2, .count 1, .leave 1,
    .close, .close, .close,
    .receive 0, .deliver 0, .handle 0 none, .deliver 0, .shut 0, .finish 0,
    .shut 1, .receive 1, .deliver 1, .handle 1 (some errHandler),
    .deliver 1, .deliver 1, .deliver 1, .handle 1 (some errHandler),
    .deliver 1, .deliver 1, .deliver 1, .finish 1]

def sampleBus : Bus sampleSettings Nat :=
  ((machine sampleSettings Nat).run (new sampleSettings Nat)
    sampleActions).get (by decide +kernel)

theorem sampleBus_reachable :
    (machine sampleSettings Nat).Reachable sampleBus :=
  (Machine.Reachable.start rfl).run (Option.some_get _).symm

theorem sampleBus_stopped : sampleBus.Stopped where
  senders := by decide +kernel
  closed := by decide +kernel
  served := by decide +kernel
  consumers := by decide +kernel
  uncancelled := by decide +kernel

theorem no_accepted_send_stranded_sample : sampleBus.Stopped ∧
      (∀ id call, sampleBus.calls[id]? = some call →
        (call.phase = .returned none → ⟨id, call.value⟩ ∈ sampleBus.handed ∧
            occurrences id sampleBus.settled +
              occurrences id sampleBus.buried = 1 ∧
              (0 < occurrences id sampleBus.buried →
                ⟨id, call.value⟩ ∈ sampleBus.deadLetter)) ∧
        (∀ fault, call.phase = .returned (some fault) →
          ∀ parcel ∈ sampleBus.handed, parcel.id ≠ id)) ∧
        sampleBus.delivered = Int64.ofNat sampleBus.settled.length ∧
          sampleBus.dead = Int64.ofNat sampleBus.buried.length ∧
            sampleBus.published = sampleBus.delivered + sampleBus.dead :=
  ⟨sampleBus_stopped, no_accepted_send_stranded sampleBus
    sampleBus_reachable sampleBus_stopped⟩

/-! ## At every moment -/

/--
Every value that a channel took is queued, with a loop, delivered, buried or
left by a loop that was cancelled, and the counters agree with these.
-/
theorem accepted_values_accounted
    (reachable : (machine settings Value).Reachable bus) :
    bus.accepted = bus.queued + bus.held +
        (bus.settled + bus.buried + bus.forsaken) ∧
      Int64.ofNat bus.accepted.card =
        bus.published + Int64.ofNat bus.uncounted ∧
      bus.delivered = Int64.ofNat bus.settled.length ∧
      bus.dead = Int64.ofNat bus.buried.length ∧
      ((∀ consumer ∈ bus.consumers, consumer.context = none) →
        bus.forsaken = []) := by
  have booked := (sound_of_reachable reachable).booked
  exact ⟨booked.balance, booked.published, booked.delivered, booked.dead,
    booked.forsaken⟩

theorem accepted_values_accounted_sample :
    sampleBus.dead = 1 ∧ sampleBus.dead =
      Int64.ofNat sampleBus.buried.length := by
  have accounted := accepted_values_accounted sampleBus_reachable
  exact ⟨by decide +kernel, accounted.2.2.2.1⟩

theorem close_never_stuck_waiting : ∃ bus : Bus sampleSettings Nat,
    bus.closer = .waiting ∧ (bus.close.isSome = true ∨
      ∃ id, (bus.refuse id).isSome = true ∨
        (bus.count id).isSome = true ∨ (bus.leave id).isSome = true) := by
  have sleeps : ((machine sampleSettings Nat).run (new sampleSettings Nat)
      (sampleActions.take 17)).any (·.closer = .waiting) = true := by
    decide +kernel
  rcases (Option.any_eq_true _ _).mp sleeps with ⟨bus, ran, waiting⟩
  have stage := of_decide_eq_true waiting
  refine ⟨bus, stage, close_never_stuck
    ((Machine.Reachable.start rfl).run ran) ?_⟩
  rw [stage]
  decide

/-- Two values were published: one was delivered, the other is dead. -/
example : sampleBus.published = 2 ∧ sampleBus.delivered = 1 ∧
      sampleBus.retried = 1 ∧ sampleBus.deadLetter = [⟨1, 20⟩] := by
  decide +kernel

end Ironclaw.Bus
