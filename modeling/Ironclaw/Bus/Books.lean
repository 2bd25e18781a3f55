import Ironclaw.Bus.Bus
import Ironclaw.Lib.Slots

/-!
# The books of the bus

What holds in every state of the bus.  The gate: `inflight` is the number of
calls between `enterSend` and `leaveSend`, and once `Close` has seen it at zero
no call is in flight again.  The books: every value that a channel took is in
exactly one place, in a channel, in the hands of a consume loop or in one of
the three outcomes.  The loops: a loop whose context is not done drains only
after the shutdown, and leaves an empty channel behind.
-/

namespace Ironclaw.Bus

open Lib List Int64 Slots SendCall Bus Stage

variable {settings : Settings} {Value : Type}
variable {bus after : Bus settings Value}
variable {partition : Fin settings.partitions} {parcel : Parcel Value}
variable {value : Value} {key : String} {index : Nat}
variable {old : Consumer settings.partitions Value} {context : Option Fault}

/-! ## What the state says about a value -/

/-- Whether a call is counted in `inflight`. -/
def Phase.inFlight : Phase → Bool
  | .selecting | .counting | .leaving _ => true
  | _ => false

/-- Whether a channel took the value of the call. -/
def Phase.accepted : Phase → Bool
  | .counting | .leaving none | .returned none => true
  | _ => false

/-- The calls that were accepted and are not counted yet. -/
def Phase.uncounted : Phase → Bool
  | .counting => true
  | _ => false

def SendCall.flying (call : SendCall Value) : Nat :=
  if call.phase.inFlight then 1 else 0

def SendCall.uncounted (call : SendCall Value) : Nat :=
  if call.phase.uncounted then 1 else 0

def SendCall.parcels (id : Nat) (call : SendCall Value) :
    Multiset (Parcel Value) :=
  if call.phase.accepted then {⟨id, call.value⟩} else 0

/-- The value that a loop works on and has not counted yet. -/
def Stage.held : Stage Value → Multiset (Parcel Value)
  | .delivering _ _ .burying => 0
  | .delivering _ parcel _ => {parcel}
  | _ => 0

/-- The value that a loop counted as dead and has not stored yet. -/
def Stage.interred : Stage Value → Multiset (Parcel Value)
  | .delivering _ parcel .burying => {parcel}
  | _ => 0

/-- Whether a loop has seen the shutdown. -/
def Stage.draining : Stage Value → Bool
  | .selecting draining => draining
  | .delivering draining _ _ => draining
  | .returned _ => true

def Stage.abandons : Stage Value → Bool
  | .delivering _ _ .abandoning => true
  | _ => false

/-- From its first attempt on, the value of a loop was handed out. -/
def Stage.Handed (handed : List (Parcel Value)) : Stage Value → Prop
  | .delivering _ parcel (.looping attempt) =>
    attempt = 1 ∨ parcel ∈ handed
  | .delivering _ parcel _ => parcel ∈ handed
  | _ => True

/-- Whether `Close` has stored `closed`. -/
def Closer.stored : Closer → Bool
  | .idle | .locking | .storing => false
  | _ => true

/-- Whether `Close` has seen that no call is in flight. -/
def Closer.passed : Closer → Bool
  | .unlocked | .done => true
  | _ => false

theorem Closer.stored_of_passed
    {closer : Closer} (passed : closer.passed = true) :
    closer.stored = true := by
  cases closer <;> simp [Closer.passed, Closer.stored] at *

/-- The number of calls in flight. -/
def flying (bus : Bus settings Value) : Nat :=
  Slots.total (fun _ => SendCall.flying) bus.calls

def uncounted (bus : Bus settings Value) : Nat :=
  Slots.total (fun _ => SendCall.uncounted) bus.calls

/-- The values that a channel took. -/
def accepted (bus : Bus settings Value) : Multiset (Parcel Value) :=
  Slots.total SendCall.parcels bus.calls

def queued (bus : Bus settings Value) : Multiset (Parcel Value) :=
  ∑ partition, (bus.channels partition : Multiset (Parcel Value))

def held (bus : Bus settings Value) : Multiset (Parcel Value) :=
  Slots.total (fun _ consumer => consumer.stage.held) bus.consumers

def interred (bus : Bus settings Value) : Multiset (Parcel Value) :=
  Slots.total (fun _ consumer => consumer.stage.interred) bus.consumers

/-- The values with an outcome. -/
def outcomes (bus : Bus settings Value) : Multiset (Parcel Value) :=
  bus.settled + bus.buried + bus.forsaken

theorem queued_push
    (bus : Bus settings Value) (partition : Fin settings.partitions)
    (parcel : Parcel Value) :
    (∑ each, ((Function.update bus.channels partition
        (bus.channels partition ++ [parcel]) each :
          List (Parcel Value)) : Multiset (Parcel Value))) =
      bus.queued + {parcel} := by
  have exchanged := sum_update
    (fun channel : List (Parcel Value) => (channel : Multiset (Parcel Value)))
    bus.channels partition (bus.channels partition ++ [parcel])
  rw [← Multiset.coe_add, Multiset.coe_singleton, ← add_assoc,
    add_right_comm] at exchanged
  exact add_right_cancel exchanged

theorem queued_receive {rest : List (Parcel Value)}
    (waiting : bus.channels partition = parcel :: rest) :
    (∑ each, ((Function.update bus.channels partition rest each :
        List (Parcel Value)) : Multiset (Parcel Value))) + {parcel} =
      bus.queued := by
  have exchanged := sum_update
    (fun channel : List (Parcel Value) => (channel : Multiset (Parcel Value)))
    bus.channels partition rest
  rw [waiting, ← Multiset.cons_coe, ← Multiset.singleton_add,
    ← add_assoc] at exchanged
  exact add_right_cancel exchanged

/-! ## The invariant -/

/-- What guards `Close` against calls in flight. -/
structure Gated (bus : Bus settings Value) : Prop where
  inflight : bus.inflight = bus.flying
  closed : bus.closed = bus.closer.stored
  shutdown : bus.shutdown = true → bus.closer = .done
  passed : bus.closer.passed = true → bus.flying = 0
  /-- `Close` sleeps only while a call is in flight. -/
  waiting : bus.closer = .waiting → 0 < bus.flying

/-- What holds of a consume loop. -/
structure Consumer.Fits
    (bus : Bus settings Value)
    (consumer : Consumer settings.partitions Value) : Prop where
  shutdown : consumer.context = none →
    consumer.stage.draining = true → bus.shutdown = true
  drained : ∀ result, consumer.context = none →
    consumer.stage = .returned result → bus.channels consumer.partition = []
  abandons : consumer.stage.abandons = true → consumer.context ≠ none
  handed : consumer.stage.Handed bus.handed

/-- Every value accepted is in one place. -/
structure Booked (bus : Bus settings Value) : Prop where
  balance : bus.accepted = bus.queued + bus.held + bus.outcomes
  published : Int64.ofNat bus.accepted.card =
    bus.published + Int64.ofNat bus.uncounted
  delivered : bus.delivered = Int64.ofNat bus.settled.length
  dead : bus.dead = Int64.ofNat bus.buried.length
  letters : (bus.deadLetter : Multiset (Parcel Value)) + bus.interred =
    bus.buried
  known : ∀ parcel ∈ bus.handed, parcel ∈ bus.accepted
  recorded : ∀ parcel, parcel ∈ bus.settled ∨ parcel ∈ bus.buried →
    parcel ∈ bus.handed
  forsaken : (∀ consumer ∈ bus.consumers, consumer.context = none) →
    bus.forsaken = []

/-- The invariant of the bus. -/
structure Sound (bus : Bus settings Value) : Prop where
  gated : bus.Gated
  booked : bus.Booked
  fits : ∀ consumer ∈ bus.consumers, consumer.Fits bus

theorem sound_new : (new settings Value).Sound where
  gated := by
    constructor <;> simp [new, flying, Closer.stored, Closer.passed]
  booked := by
    constructor <;>
      simp [new, accepted, queued, held, interred, outcomes, uncounted]
  fits := forall_mem_nil _

/-! ## Moves of one call -/

variable {id : Nat}

/-- The gate depends on the number of calls in flight only. -/
theorem Gated.frame (gated : bus.Gated) (flying : after.flying = bus.flying)
    (inflight : after.inflight = bus.inflight)
    (closer : after.closer = bus.closer) (closed : after.closed = bus.closed)
    (shutdown : after.shutdown = bus.shutdown) : after.Gated := by
  constructor
  · rw [inflight, flying, gated.inflight]
  · rw [closed, closer, gated.closed]
  · rw [shutdown, closer]
    exact gated.shutdown
  · rw [closer, flying]
    exact gated.passed
  · rw [closer, flying]
    exact gated.waiting

theorem Gated.stay
    {old new : Phase} {channels : Fin settings.partitions →
      List (Parcel Value)} {published : Int64} (gated : bus.Gated)
    (found : bus.calls[id]? = some ⟨key, value, old⟩)
    (side : new.inFlight = old.inFlight) :
    { bus with
      channels := channels
      calls := bus.calls.set id ⟨key, value, new⟩
      published := published }.Gated := by
  refine gated.frame (total_set_same _ found ?_) rfl rfl rfl rfl
  simp only [SendCall.flying, side]

theorem flying_pos
    {phase : Phase} (found : bus.calls[id]? = some ⟨key, value, phase⟩)
    (inFlight : phase.inFlight = true) : 0 < bus.flying := by
  have exchanged := total_set (fun _ => SendCall.flying)
    ⟨key, value, .checking⟩ found
  have one : SendCall.flying ⟨key, value, phase⟩ = 1 := by
    simp [SendCall.flying, inFlight]
  rw [one] at exchanged
  change _ + 1 = bus.flying + 0 at exchanged
  omega

theorem Gated.not_shutdown (gated : bus.Gated) (flying : 0 < bus.flying) :
    bus.shutdown = false := by
  rw [← Bool.not_eq_true]
  intro shutdown
  have passed := gated.passed (by rw [gated.shutdown shutdown]; rfl)
  omega

/-- The books depend on what the calls have brought and counted only. -/
theorem Booked.recall
    {calls : List (SendCall Value)} {inflight : Int} {closer : Closer}
    {published : Int64} (booked : bus.Booked)
    (accepted : Slots.total SendCall.parcels calls = bus.accepted)
    (counted : bus.published + ofNat bus.uncounted = published +
      ofNat (Slots.total (fun _ => SendCall.uncounted) calls)) :
    { bus with
      inflight := inflight
      closer := closer
      calls := calls
      published := published }.Booked :=
  { booked with
    balance := accepted.trans booked.balance
    published := by
      change ofNat (total parcels _).card = _
      rw [accepted, booked.published, counted]
      rfl
    known := by
      intro parcel member
      change parcel ∈ total parcels _
      rw [accepted]
      exact booked.known parcel member }

theorem Booked.stay {old new : Phase} (booked : bus.Booked) (inflight : Int)
    (closer : Closer) (found : bus.calls[id]? = some ⟨key, value, old⟩)
    (accepted : new.accepted = old.accepted)
    (uncounted : new.uncounted = old.uncounted) :
    { bus with
      inflight := inflight
      closer := closer
      calls := bus.calls.set id ⟨key, value, new⟩ }.Booked := by
  apply booked.recall
  · apply total_set_same _ found
    simp only [SendCall.parcels, accepted]
  · rw [total_set_same _ found]
    · rfl
    · simp only [SendCall.uncounted, uncounted]

/-- What a loop knows survives a step that adds to what it relies on. -/
theorem Consumer.Fits.frame
    {consumer : Consumer settings.partitions Value} (fits : consumer.Fits bus)
    (shutdown : bus.shutdown = true → after.shutdown = true)
    (channels : bus.shutdown = true → bus.channels consumer.partition = [] →
        after.channels consumer.partition = [])
    (handed : ∀ parcel ∈ bus.handed, parcel ∈ after.handed) :
    consumer.Fits after where
  shutdown uncancelled draining :=
    shutdown (fits.shutdown uncancelled draining)
  drained result uncancelled returned :=
    channels (fits.shutdown uncancelled (by rw [returned]; rfl))
      (fits.drained result uncancelled returned)
  abandons := fits.abandons
  handed := by
    have known := fits.handed
    cases stage : consumer.stage with
    | selecting | returned => trivial
    | delivering draining parcel delivery =>
      rw [stage] at known
      cases delivery with
      | looping attempt => exact known.imp_right (handed parcel)
      | calling | succeeded | failed | abandoning => exact handed parcel known
      | retrying | burying => exact handed parcel known

section Sound

variable (sound : bus.Sound)
include sound

/-- Loops fit as long as no channel, log or flag they see changes. -/
theorem Sound.fits_same (consumers : after.consumers = bus.consumers)
    (shutdown : after.shutdown = bus.shutdown)
    (channels : after.channels = bus.channels)
    (handed : after.handed = bus.handed) :
    ∀ consumer ∈ after.consumers, consumer.Fits after := by
  intro consumer member
  rw [consumers] at member
  apply (sound.fits consumer member).frame
  · rw [shutdown]
    exact fun shut => shut
  · rw [channels]
    exact fun _ empty => empty
  · rw [handed]
    exact fun _ known => known

/-! ## Send -/

theorem Sound.send (key : String) (value : Value) :
    (bus.send key value).Sound where
  gated := sound.gated.frame (total_append _ _ _) rfl rfl rfl rfl
  booked := sound.booked.recall
    ((total_append _ _ _).trans (Multiset.add_zero _))
    (by rw [total_append]; rfl)
  fits := sound.fits_same rfl rfl rfl rfl

theorem Sound.stay
    {old new : Phase} (found : bus.calls[id]? = some ⟨key, value, old⟩)
    (side : new.inFlight = old.inFlight)
    (accepted : new.accepted = old.accepted)
    (uncounted : new.uncounted = old.uncounted) :
    { bus with
      calls := bus.calls.set id ⟨key, value, new⟩ }.Sound where
  gated := sound.gated.stay found side
  booked := sound.booked.stay _ _ found accepted uncounted
  fits := sound.fits_same rfl rfl rfl rfl

theorem Sound.enter (step : bus.enter id = some after) : after.Sound := by
  simp only [Bus.enter] at step
  split at step
  · rename_i key value found
    split_ifs at step with locked closed
    · cases step
      exact sound.stay found rfl rfl rfl
    · cases step
      have flying : total (fun _ => SendCall.flying)
          (bus.calls.set id ⟨key, value, .selecting⟩) = bus.flying + 1 :=
        total_set (fun _ => SendCall.flying) _ found
      -- `Close` has not stored `closed`, so it has not passed the gate.
      have stored : bus.closer.stored = false := by
        rw [← sound.gated.closed]
        exact Bool.eq_false_iff.mpr closed
      refine ⟨?_, sound.booked.stay _ _ found rfl rfl,
        sound.fits_same rfl rfl rfl rfl⟩
      constructor
      · change bus.inflight + 1 = ((total _ _ : Nat) : Int)
        rw [flying, sound.gated.inflight]
        rfl
      · exact sound.gated.closed
      · exact sound.gated.shutdown
      · intro passed
        rw [Closer.stored_of_passed passed] at stored
        cases stored
      · intro waiting
        change 0 < total _ _
        rw [flying]
        exact Nat.succ_pos _
  · cases step

theorem Sound.push (step : bus.push id = some after) : after.Sound := by
  simp only [Bus.push] at step
  split at step
  · rename_i key value found
    split_ifs at step with room
    cases step
    have accepted : total parcels (bus.calls.set id ⟨key, value, .counting⟩) =
          bus.accepted + {⟨id, value⟩} := by
      have exchanged := total_set parcels ⟨key, value, .counting⟩ found
      exact (Multiset.add_zero _).symm.trans exchanged
    have uncounted : total (fun _ => SendCall.uncounted)
        (bus.calls.set id ⟨key, value, .counting⟩) = bus.uncounted + 1 :=
      total_set (fun _ => SendCall.uncounted) _ found
    refine ⟨sound.gated.stay found rfl,
      { sound.booked with balance := ?_, published := ?_, known := ?_ },
      ?_⟩
    · change total SendCall.parcels _ =
        (∑ each, ((Function.update bus.channels _ _ each :
          List (Parcel Value)) : Multiset (Parcel Value))) +
          bus.held + bus.outcomes
      rw [queued_push, accepted, sound.booked.balance]
      ac_rfl
    · change ofNat (total parcels _).card = bus.published + ofNat (total _ _)
      rw [accepted, uncounted, Multiset.card_add,
        Multiset.card_singleton, Word.ofNat_succ, Word.ofNat_succ,
        sound.booked.published, add_assoc]
    · intro parcel member
      change parcel ∈ total parcels _
      rw [accepted]
      exact Multiset.mem_add.mpr (.inl (sound.booked.known parcel member))
    · intro consumer member
      apply (sound.fits consumer member).frame
      · exact fun shut => shut
      · -- No channel takes a value after the shutdown.
        intro shut
        rw [sound.gated.not_shutdown (flying_pos found rfl)] at shut
        cases shut
      · exact fun _ known => known
  · cases step

theorem Sound.count (step : bus.count id = some after) : after.Sound := by
  simp only [Bus.count] at step
  split at step
  · rename_i key value found
    cases step
    have uncounted : total (fun _ => SendCall.uncounted)
        (bus.calls.set id ⟨key, value, .leaving none⟩) + 1 = bus.uncounted :=
      total_set (fun _ => SendCall.uncounted) _ found
    refine ⟨sound.gated.stay found rfl,
      sound.booked.recall (total_set_same _ found rfl) ?_,
      sound.fits_same rfl rfl rfl rfl⟩
    rw [← uncounted, Word.ofNat_succ]
    ac_rfl
  · cases step

end Sound

theorem Closer.wake_facts (closer : Closer) :
    closer.wake.stored = closer.stored ∧ closer.wake.passed = closer.passed ∧
        closer.wake ≠ .waiting ∧ (closer = .done → closer.wake = .done) := by
  cases closer <;> simp [Closer.wake, Closer.stored, Closer.passed]

theorem Sound.leave (sound : bus.Sound) (step : bus.leave id = some after) :
    after.Sound := by
  simp only [Bus.leave] at step
  split at step
  · rename_i key value result found
    split at step
    · cases step
    cases step
    have flying : total (fun _ => SendCall.flying)
        (bus.calls.set id ⟨key, value, .returned result⟩) + 1 = bus.flying :=
      total_set (fun _ => SendCall.flying) _ found
    have inflight := sound.gated.inflight
    have wake := bus.closer.wake_facts
    refine ⟨?_, sound.booked.stay _ _ found ?_ rfl,
      sound.fits_same rfl rfl rfl rfl⟩
    · constructor
      · change bus.inflight - 1 = ((total _ (bus.calls.set id
          ⟨key, value, .returned result⟩) : Nat) : Int)
        omega
      · change bus.closed = Closer.stored (if _ then _ else _)
        rw [sound.gated.closed]
        split
        · exact wake.1.symm
        · rfl
      · intro shutdown
        have done := sound.gated.shutdown shutdown
        change (if _ then _ else _) = Closer.done
        split
        · exact wake.2.2.2 done
        · exact done
      · intro passed
        change Closer.passed (if _ then _ else _) = true at passed
        change total _ (bus.calls.set id ⟨key, value, .returned result⟩) = 0
        have before : bus.closer.passed = true := by
          split at passed
          · rwa [wake.2.1] at passed
          · exact passed
        have none := sound.gated.passed before
        omega
      · intro waiting
        change (if _ then _ else _) = Closer.waiting at waiting
        change 0 < total _ (bus.calls.set id ⟨key, value, .returned result⟩)
        -- Had this been the last call, its broadcast would wake `Close`.
        split at waiting
        · exact absurd waiting wake.2.2.1
        · omega
    · cases result <;> rfl
  · cases step

/-! ## Close -/

theorem Gated.turn
    (gated : bus.Gated) (closer : Closer) {closed closing shutdown : Bool}
    (isClosed : closed = closer.stored)
    (isShut : shutdown = true → closer = .done)
    (passes : closer.passed = true → bus.flying = 0)
    (waits : closer = .waiting → 0 < bus.flying) :
    { bus with
      closer := closer
      closed := closed
      closing := closing
      shutdown := shutdown }.Gated where
  inflight := gated.inflight
  closed := isClosed
  shutdown := isShut
  passed := passes
  waiting := waits

/-- `Close` moves to a place before the gate. -/
theorem Gated.approach
    (gated : bus.Gated) (closer : Closer) {closed closing : Bool}
    (before : bus.closer ≠ .done) (isClosed : closed = closer.stored)
    (notPassed : closer.passed = false) (awake : closer ≠ .waiting) :
    { bus with
      closer := closer
      closed := closed
      closing := closing }.Gated := by
  apply gated.turn closer isClosed
  · intro shutdown
    exact absurd (gated.shutdown shutdown) before
  · rw [notPassed]
    intro impossible
    cases impossible
  · intro waiting
    exact absurd waiting awake

theorem Gated.close (gated : bus.Gated) (step : bus.close = some after) :
    after.Gated := by
  have closed := gated.closed
  have inflight := gated.inflight
  simp only [Bus.close] at step
  cases closer : bus.closer <;>
    simp only [closer, Option.some.injEq] at step <;>
      rw [closer] at closed
  case idle | locking | announcing | woken =>
    subst step
    exact gated.approach _ (by simp [closer]) closed rfl (by decide)
  case storing =>
    subst step
    exact gated.approach .announcing (by simp [closer]) rfl rfl (by decide)
  case checking =>
    have unshut : bus.shutdown ≠ true := by
      intro shutdown
      rw [gated.shutdown shutdown] at closer
      cases closer
    split_ifs at step with positive
    · cases step
      apply gated.turn .waiting closed
      · exact fun shutdown => absurd shutdown unshut
      · simp [Closer.passed]
      · omega
    · cases step
      apply gated.turn .unlocked closed
      · exact fun shutdown => absurd shutdown unshut
      · omega
      · simp
  case unlocked =>
    subst step
    apply gated.turn .done closed
    · exact fun _ => rfl
    · exact fun _ => gated.passed (by rw [closer]; rfl)
    · simp
  all_goals cases step

theorem Sound.close (sound : bus.Sound) (step : bus.close = some after) :
    after.Sound := by
  have gated := sound.gated.close step
  have same : after = { bus with
      closer := after.closer
      closed := after.closed
      closing := after.closing
      shutdown := after.shutdown } := by
    simp only [Bus.close] at step
    split at step <;> try cases step <;> rfl
    split at step <;> cases step <;> rfl
  have monotone : bus.shutdown = true → after.shutdown = true := by
    intro shutdown
    simp only [Bus.close, sound.gated.shutdown shutdown] at step
    cases step
  rw [same] at gated ⊢
  refine ⟨gated, { sound.booked with }, ?_⟩
  intro consumer member
  exact (sound.fits consumer member).frame monotone
    (fun _ empty => empty) fun _ known => known

/-! ## Moves of one loop -/

/-- A step of one loop: which books it leaves, and what it exchanges. -/
structure Moves
    (bus after : Bus settings Value) (index : Nat)
    (old new : Consumer settings.partitions Value) : Prop where
  found : bus.consumers[index]? = some old
  consumers : after.consumers = bus.consumers.set index new
  calls : after.calls = bus.calls
  gate : after.inflight = bus.inflight ∧ after.closer = bus.closer ∧
    after.closed = bus.closed ∧ after.shutdown = bus.shutdown ∧
      after.published = bus.published
  context : new.context = none → old.context = none
  channels : ∀ partition, bus.channels partition = [] →
    after.channels partition = []
  exchange : after.queued + new.stage.held + after.outcomes =
    bus.queued + old.stage.held + bus.outcomes
  delivered : bus.delivered = Int64.ofNat bus.settled.length →
    after.delivered = Int64.ofNat after.settled.length
  dead : bus.dead = Int64.ofNat bus.buried.length →
    after.dead = Int64.ofNat after.buried.length
  letters : (after.deadLetter : Multiset (Parcel Value)) +
      new.stage.interred + bus.buried =
    bus.deadLetter + old.stage.interred + after.buried
  known : ∀ parcel ∈ after.handed,
    parcel ∈ bus.handed ∨ parcel ∈ old.stage.held
  handed : ∀ parcel ∈ bus.handed, parcel ∈ after.handed
  recorded : ∀ parcel, parcel ∈ after.settled ∨ parcel ∈ after.buried →
    (parcel ∈ bus.settled ∨ parcel ∈ bus.buried) ∨ parcel ∈ after.handed
  forsaken : after.forsaken = bus.forsaken ∨ new.context ≠ none

variable {new : Consumer settings.partitions Value}

/-- A loop that only goes on to another stage leaves every book. -/
theorem Moves.stage
    {retried : Int64} (found : bus.consumers[index]? = some old)
    (context : new.context = none → old.context = none)
    (held : new.stage.held = old.stage.held)
    (interred : new.stage.interred = old.stage.interred) :
    Moves bus
      { bus with
        consumers := bus.consumers.set index new
        retried := retried }
      index old new where
  found := found
  consumers := rfl
  calls := rfl
  gate := ⟨rfl, rfl, rfl, rfl, rfl⟩
  context := context
  channels := fun _ empty => empty
  exchange := congrArg (bus.queued + · + bus.outcomes) held
  delivered := fun same => same
  dead := fun same => same
  letters := congrArg
    (fun each => (bus.deadLetter : Multiset (Parcel Value)) + each +
      bus.buried) interred
  known := fun _ known => Or.inl known
  handed := fun _ known => known
  recorded := fun _ counted => Or.inl counted
  forsaken := Or.inl rfl

theorem Moves.rest (found : bus.consumers[index]? = some old) :
    Moves bus { bus with consumers := bus.consumers.set index old }
      index old old :=
  Moves.stage found id rfl rfl

theorem Moves.held (moves : Moves bus after index old new) :
    after.held + old.stage.held = bus.held + new.stage.held := by
  rw [Bus.held, moves.consumers]
  exact total_set _ _ moves.found

theorem Moves.interred (moves : Moves bus after index old new) :
    after.interred + old.stage.interred =
      bus.interred + new.stage.interred := by
  rw [Bus.interred, moves.consumers]
  exact total_set _ _ moves.found

theorem Booked.moves
    (booked : bus.Booked) (moves : Moves bus after index old new) :
    after.Booked := by
  have accepted : after.accepted = bus.accepted := by
    rw [accepted, moves.calls, accepted]
  have uncounted : after.uncounted = bus.uncounted := by
    rw [uncounted, moves.calls, uncounted]
  have member : old ∈ bus.consumers := mem_of_getElem? moves.found
  constructor
  · apply add_right_cancel (b := old.stage.held)
    rw [accepted, booked.balance]
    calc bus.queued + bus.held + bus.outcomes + old.stage.held
        = bus.held + (bus.queued + old.stage.held + bus.outcomes) := by
          ac_rfl
      _ = (bus.held + new.stage.held) + (after.queued + after.outcomes) := by
          rw [← moves.exchange]
          ac_rfl
      _ = after.queued + after.held + after.outcomes + old.stage.held := by
          rw [← moves.held]
          ac_rfl
  · rw [accepted, uncounted, moves.gate.2.2.2.2]
    exact booked.published
  · exact moves.delivered booked.delivered
  · exact moves.dead booked.dead
  · apply add_right_cancel (b := old.stage.interred + bus.buried)
    calc (after.deadLetter : Multiset (Parcel Value)) + after.interred +
          (old.stage.interred + bus.buried)
        = after.deadLetter + (after.interred + old.stage.interred) +
            bus.buried := by ac_rfl
      _ = bus.interred +
            (after.deadLetter + new.stage.interred + bus.buried) := by
          rw [moves.interred]
          ac_rfl
      _ = (bus.deadLetter + bus.interred) +
            (old.stage.interred + after.buried) := by
          rw [moves.letters]
          ac_rfl
      _ = after.buried + (old.stage.interred + bus.buried) := by
          rw [booked.letters]
          ac_rfl
  · intro parcel handed
    rw [accepted]
    rcases moves.known parcel handed with known | held
    · exact booked.known parcel known
    · rw [booked.balance]
      apply Multiset.mem_add.mpr
      apply Or.inl
      apply Multiset.mem_add.mpr
      apply Or.inr
      exact mem_total.mpr ⟨index, old, moves.found, held⟩
  · intro parcel counted
    rcases moves.recorded parcel counted with before | handed
    · exact moves.handed parcel (booked.recorded parcel before)
    · exact handed
  · intro uncancelled
    rw [moves.consumers] at uncancelled
    have bound := (List.getElem?_eq_some_iff.mp moves.found).1
    have present : new.context = none := uncancelled new (mem_set bound new)
    rcases moves.forsaken with same | cancelled
    · rw [same]
      apply booked.forsaken
      intro consumer inside
      rcases eq_or_mem_set new moves.found inside with rfl | still
      · exact moves.context present
      · exact uncancelled consumer still
    · exact absurd present cancelled

section Sound

variable (sound : bus.Sound)
include sound

theorem Sound.moves (moves : Moves bus after index old new)
    (fits : old.Fits bus → new.Fits after) : after.Sound := by
  rcases moves.gate with ⟨inflight, closer, closed, shutdown, _⟩
  have flying : after.flying = bus.flying := by
    rw [flying, moves.calls, flying]
  refine ⟨sound.gated.frame flying inflight closer closed shutdown,
    sound.booked.moves moves, ?_⟩
  intro consumer member
  rw [moves.consumers] at member
  rcases mem_or_eq_of_mem_set member with other | rfl
  · apply (sound.fits consumer other).frame
    · rw [shutdown]
      exact fun shut => shut
    · exact fun _ => moves.channels consumer.partition
    · exact moves.handed
  · exact fits (sound.fits old (mem_of_getElem? moves.found))

/-- A loop goes on to another stage under the same context. -/
theorem Sound.turns {old new : Stage Value}
    (moves : Moves bus after index ⟨partition, context, old⟩
      ⟨partition, context, new⟩)
    (draining : new.draining = old.draining)
    (running : ∀ result, new ≠ .returned result)
    (abandons : new.abandons = true → context ≠ none)
    (handed : new.Handed after.handed) : after.Sound := by
  apply sound.moves moves
  intro fits
  constructor
  · intro uncancelled seen
    rw [moves.gate.2.2.2.1]
    exact fits.shutdown uncancelled (draining.symm.trans seen)
  · intro result _ returned
    exact absurd returned (running result)
  · exact abandons
  · exact handed

/-! ## Consume and drain -/

theorem Sound.join (partition : Fin settings.partitions) :
    (bus.join partition).Sound := by
  have held : (bus.join partition).held = bus.held :=
    (total_append _ _ _).trans (Multiset.add_zero _)
  have interred : (bus.join partition).interred = bus.interred :=
    (total_append _ _ _).trans (Multiset.add_zero _)
  refine ⟨{ sound.gated with },
    { sound.booked with balance := ?_, letters := ?_, forsaken := ?_ }, ?_⟩
  · rw [held]
    exact sound.booked.balance
  · rw [interred]
    exact sound.booked.letters
  · intro uncancelled
    apply sound.booked.forsaken
    intro consumer member
    exact uncancelled consumer (mem_append_left _ member)
  · intro consumer member
    rcases mem_append.mp member with old | new
    · exact (sound.fits consumer old).frame (fun shut => shut)
        (fun _ empty => empty) fun _ known => known
    · rw [mem_singleton.mp new]
      constructor <;> simp [draining, abandons, Stage.Handed]

theorem Sound.cancel
    {fault : Fault} (step : bus.cancel index fault = some after) :
    after.Sound := by
  simp only [Bus.cancel] at step
  split at step
  · rename_i partition stage found
    cases step
    refine sound.moves (Moves.stage found (fun _ => rfl) rfl rfl) ?_
    intro fits
    constructor
    · simp
    · simp
    · simp
    · exact fits.handed
  · cases step

theorem Sound.quit (step : bus.quit index = some after) : after.Sound := by
  simp only [Bus.quit] at step
  split at step
  · rename_i partition fault draining found
    cases step
    refine sound.moves (Moves.stage found id rfl rfl) ?_
    intro fits
    constructor <;> simp [abandons, Stage.Handed]
  · cases step

theorem Sound.receive (step : bus.receive index = some after) :
    after.Sound := by
  simp only [Bus.receive] at step
  split at step
  · rename_i partition context draining found
    split at step
    · cases step
    · rename_i parcel rest waiting
      cases step
      refine sound.moves
        { Moves.rest found with
          consumers := rfl
          channels := ?_
          exchange := ?_
          letters := rfl } ?_
      · intro other empty
        have different : other ≠ partition := by
          rintro rfl
          rw [waiting] at empty
          cases empty
        exact (Function.update_of_ne different _ _).trans empty
      · change (∑ each, ((Function.update bus.channels _ _ each :
          List (Parcel Value)) : Multiset (Parcel Value))) +
            {parcel} + bus.outcomes = bus.queued + 0 + bus.outcomes
        rw [queued_receive waiting, add_zero]
      intro fits
      constructor
      · exact fits.shutdown
      · simp
      · simp [abandons]
      · exact Or.inl rfl
  · cases step

theorem Sound.shut (step : bus.shut index = some after) : after.Sound := by
  simp only [Bus.shut] at step
  split at step
  · rename_i partition context found
    split_ifs at step with shutdown
    cases step
    refine sound.moves (Moves.stage found id rfl rfl) ?_
    intro fits
    constructor
    · exact fun _ _ => shutdown
    · simp
    · simp [abandons]
    · trivial
  · cases step

theorem Sound.finish (step : bus.finish index = some after) :
    after.Sound := by
  simp only [Bus.finish] at step
  split at step
  · rename_i partition found
    split at step
    · rename_i empty
      cases step
      refine sound.moves (Moves.stage found id rfl rfl) ?_
      intro fits
      constructor
      · exact fun uncancelled _ => fits.shutdown uncancelled rfl
      · exact fun _ _ _ => empty
      · simp [abandons]
      · trivial
    · cases step
  · cases step

/-! ## Deliver -/

theorem Sound.handle
    {result : Option Fault} (step : bus.handle index result = some after) :
    after.Sound := by
  simp only [Bus.handle] at step
  split at step
  · rename_i partition context draining parcel attempt found
    have handed := (sound.fits _ (mem_of_getElem? found)).handed
    cases step
    cases result with
    | none | some =>
      exact sound.turns (Moves.stage found id rfl rfl)
        rfl (by simp) (by simp [abandons]) handed
  · cases step

end Sound

theorem ne_one_of_exhausted
    {attempt : Int64} (exhausted : ¬attempt ≤ settings.maxAttempts) :
    attempt ≠ 1 := by
  rintro rfl
  exact exhausted settings.bounds.2.2

theorem coe_snoc {Item : Type} (items : List Item) (item : Item) :
    ((items ++ [item] : List Item) : Multiset Item) = items + {item} := by
  rw [← Multiset.coe_add, Multiset.coe_singleton]

theorem count_snoc
    {Item : Type} {items : List Item} {counter : Int64} (item : Item)
    (counted : counter = Int64.ofNat items.length) :
    counter + 1 = ofNat (items ++ [item]).length := by
  rw [counted, length_append, length_singleton, Word.ofNat_succ]

variable {draining : Bool}

section Sound

variable (sound : bus.Sound)
include sound

theorem Sound.attempt {attempt : Int64}
    (found : bus.consumers[index]? = some ⟨partition, context,
      .delivering draining parcel (.looping attempt)⟩) :
    { bus with
      consumers := bus.consumers.set index ⟨partition, context,
        .delivering draining parcel (.calling attempt)⟩
      handed := bus.handed ++ [parcel] }.Sound := by
  refine sound.turns
    { Moves.rest found with
      consumers := rfl
      exchange := rfl
      letters := rfl
      known := ?_
      handed := fun _ member => mem_append_left _ member
      recorded := fun _ counted => Or.inl counted }
    rfl (by simp) (by simp [abandons]) ?_
  · exact forall_mem_concat (fun _ before => Or.inl before)
      (Or.inr (Multiset.mem_singleton_self parcel))
  · exact mem_append_right _ (mem_singleton_self parcel)

theorem Sound.exhaust {attempt : Int64}
    (found : bus.consumers[index]? = some ⟨partition, context,
      .delivering draining parcel (.looping attempt)⟩)
    (known : parcel ∈ bus.handed) :
    { bus with
      consumers := bus.consumers.set index ⟨partition, context,
        .delivering draining parcel .burying⟩
      dead := bus.dead + 1
      buried := bus.buried ++ [parcel] }.Sound := by
  refine sound.turns
    { Moves.rest found with
      consumers := rfl
      exchange := ?_
      dead := count_snoc parcel
      letters := ?_
      recorded := ?_ }
    rfl (by simp) (by simp [Stage.abandons]) known
  · simp only [queued, outcomes, Stage.held, coe_snoc]
    ac_rfl
  · simp only [Stage.interred, coe_snoc]
    ac_rfl
  · grind

theorem Sound.settle
    (found : bus.consumers[index]? = some ⟨partition, context,
      .delivering draining parcel .succeeded⟩) :
    { bus with
      consumers := bus.consumers.set index ⟨partition, context,
        .selecting draining⟩
      delivered := bus.delivered + 1
      settled := bus.settled ++ [parcel] }.Sound := by
  have known : parcel ∈ bus.handed :=
    (sound.fits _ (mem_of_getElem? found)).handed
  refine sound.turns
    { Moves.rest found with
      consumers := rfl
      exchange := ?_
      delivered := count_snoc parcel
      letters := rfl
      recorded := ?_ }
    rfl (by simp) (by simp [Stage.abandons]) trivial
  · simp only [queued, outcomes, Stage.held, coe_snoc]
    ac_rfl
  · grind

theorem Sound.abandon
    (found : bus.consumers[index]? = some ⟨partition, context,
      .delivering draining parcel .abandoning⟩) :
    { bus with
      consumers := bus.consumers.set index ⟨partition, context,
        .selecting draining⟩
      abandoned := bus.abandoned + 1
      forsaken := bus.forsaken ++ [parcel] }.Sound := by
  have cancelled : context ≠ none :=
    (sound.fits _ (mem_of_getElem? found)).abandons rfl
  refine sound.turns
    { Moves.rest found with
      consumers := rfl
      exchange := ?_
      letters := rfl
      forsaken := Or.inr cancelled }
    rfl (by simp) (by simp [Stage.abandons]) trivial
  simp only [queued, outcomes, Stage.held, coe_snoc]
  ac_rfl

theorem Sound.deliver (step : bus.deliver index = some after) :
    after.Sound := by
  simp only [Bus.deliver] at step
  split at step
  · rename_i partition context draining parcel delivery found
    have handed := (sound.fits _ (mem_of_getElem? found)).handed
    cases delivery with
    | looping attempt =>
      dsimp only at step
      split_ifs at step with more
      · cases step
        exact sound.attempt found
      · cases step
        exact sound.exhaust found
          (handed.resolve_left (ne_one_of_exhausted more))
    | calling attempt => cases step
    | succeeded =>
      cases step
      exact sound.settle found
    | failed attempt =>
      cases step
      split_ifs with cancelled more
      · refine sound.turns (Moves.stage found id rfl rfl)
          rfl (by simp) ?_ handed
        rintro _ rfl
        cases cancelled
      · exact sound.turns (Moves.stage found id rfl rfl)
          rfl (by simp) (by simp [abandons]) handed
      · exact sound.turns (Moves.stage found id rfl rfl)
          rfl (by simp) (by simp [abandons]) (Or.inr handed)
    | abandoning =>
      cases step
      exact sound.abandon found
    | retrying attempt =>
      cases step
      exact sound.turns (Moves.stage found id rfl rfl)
        rfl (by simp) (by simp [abandons]) (Or.inr handed)
    | burying =>
      cases step
      refine sound.turns
        { Moves.rest found with
          consumers := rfl
          exchange := rfl
          letters := ?_ }
        rfl (by simp) (by simp [Stage.abandons]) trivial
      simp only [Stage.interred, coe_snoc]
      ac_rfl
  · cases step

/-! ## Runs -/

theorem Sound.step
    {action : Action settings Value} (step : bus.step action = some after) :
    after.Sound := by
  cases action with
  | send key value =>
    cases step
    exact sound.send key value
  | check | refuse | expire =>
    simp only [Bus.step, Bus.check, Bus.refuse, Bus.expire] at step
    (repeat' split at step) <;> cases step <;> apply sound.stay
    all_goals first | assumption | rfl
  | enter id => exact sound.enter step
  | push id => exact sound.push step
  | count id => exact sound.count step
  | leave id => exact sound.leave step
  | close => exact sound.close step
  | join partition =>
    cases step
    exact sound.join partition
  | cancel index fault => exact sound.cancel step
  | quit index => exact sound.quit step
  | receive index => exact sound.receive step
  | shut index => exact sound.shut step
  | finish index => exact sound.finish step
  | handle index result => exact sound.handle step
  | deliver index => exact sound.deliver step

end Sound

theorem sound_of_reachable
    (reachable : (machine settings Value).Reachable bus) : bus.Sound := by
  apply Machine.Reachable.invariant _ _ reachable
  · rintro _ rfl
    exact sound_new
  · intro before action after _ sound step
    exact sound.step step

end Ironclaw.Bus
