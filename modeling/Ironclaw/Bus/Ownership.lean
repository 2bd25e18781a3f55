import Ironclaw.Bus.Broker

/-!
# A partition has one owner

A claim is held by exactly one caller, from its critical section to its
deferred release, and every consume loop that has not returned belongs to a
caller that holds the claim of its partition.  So no two loops run on one
partition.
-/

namespace Ironclaw.Bus

open Lib Function Slots

variable {settings : Settings} {Value : Type}

namespace Caller

variable {partitions : Nat}

/-- Whether a caller holds the claim of a partition. -/
def holds : Caller partitions → Fin partitions → Prop
  | .running _, _ => True
  | .releasingAll _, _ => True
  | .holding held, partition => held = partition
  | .consuming held _, partition => held = partition
  | .releasing held _, partition => held = partition
  | _, _ => False

/-- Whether a loop is the one that a caller runs on a partition. -/
def owns : Caller partitions → Fin partitions → Nat → Prop
  | .running loops, partition, loop => loops partition = some loop
  | .consuming held own, partition, loop => held = partition ∧ own = loop
  | _, _, _ => False

theorem holds_of_owns
    {caller : Caller partitions} {partition : Fin partitions} {loop : Nat}
    (owns : caller.owns partition loop) : caller.holds partition := by
  cases caller with
  | running loops => trivial
  | consuming held own => exact owns.1
  | _ => cases owns

theorem owns_unique {caller : Caller partitions} {partition : Fin partitions}
    {left right : Nat} (ownsLeft : caller.owns partition left)
    (ownsRight : caller.owns partition right) : left = right := by
  cases caller with
  | running loops => exact Option.some.inj (ownsLeft.symm.trans ownsRight)
  | consuming held own => exact ownsLeft.2.symm.trans ownsRight.2
  | _ => cases ownsLeft

end Caller

/-- No loop runs on a partition beside another one. -/
def Exclusive (bus : Bus settings Value) : Prop :=
  ∀ (first second : Nat) (left right : Consumer settings.partitions Value),
    bus.consumers[first]? = some left → bus.consumers[second]? = some right →
      left.stage.isReturned = false → right.stage.isReturned = false →
        left.partition = right.partition → first = second

/-- A loop that runs after a step ran before it, on the same partition. -/
theorem Effect.running
    {action : Action settings Value} {bus after : Bus settings Value}
    (effect : Effect action bus after)
    {loop : Nat} {consumer : Consumer settings.partitions Value}
    (found : after.consumers[loop]? = some consumer)
    (running : consumer.stage.isReturned = false) :
    ∃ earlier, bus.consumers[loop]? = some earlier ∧
      earlier.partition = consumer.partition ∧
        earlier.stage.isReturned = false := by
  have replaced : ∀ (index : Nat)
      (old new : Consumer settings.partitions Value),
      bus.consumers[index]? = some old →
        after.consumers = bus.consumers.set index new →
          new.partition = old.partition → (new.stage.isReturned = false →
              old.stage.isReturned = false) →
              ∃ earlier, bus.consumers[loop]? = some earlier ∧
                earlier.partition = consumer.partition ∧
                  earlier.stage.isReturned = false := by
    intro index old new here consumers partition stage
    rw [consumers] at found
    rcases of_set found with ⟨rfl, rfl⟩ | ⟨_, there⟩
    · exact ⟨old, here, partition.symm, stage running⟩
    · exact ⟨consumer, there, rfl, running⟩
  cases effect with
  | rests _ _ consumers | sends _ _ consumers | moves _ _ _ _ _ consumers =>
    rw [consumers] at found
    exact ⟨consumer, found, rfl, running⟩
  | pushes _ _ _ _ consumers _ =>
    rw [consumers] at found
    exact ⟨consumer, found, rfl, running⟩
  | takes here _ _ _ consumers _ =>
    exact replaced _ _ _ here consumers rfl fun _ => rfl
  | turns here consumers partition _ stage _ _ _ =>
    exact replaced _ _ _ here consumers partition stage
  | attempts here consumers partition held _ _ _ _ =>
    exact replaced _ _ _ here consumers partition fun _ =>
      Stage.running_of_parcel held

namespace Broker

/-- The table of claims is right, and every running loop has an owner. -/
structure Owned (broker : Broker settings Value) : Prop where
  claims : Slots.Held broker.callers Caller.holds
    fun partition => broker.claimed partition = true
  owned : ∀ (loop : Nat) (consumer : Consumer settings.partitions Value),
    broker.bus.consumers[loop]? = some consumer →
      consumer.stage.isReturned = false →
        ∃ (index : Nat) (caller : Caller settings.partitions),
          broker.callers[index]? = some caller ∧
            caller.owns consumer.partition loop

theorem owned_new : (new settings Value).Owned where
  claims := {
    taken := by
      intro partition
      constructor
      · intro claimed
        cases claimed
      · rintro ⟨index, caller, found, _⟩
        cases found
    unique := by
      intro partition first second left right found
      cases found }
  owned := by
    intro loop consumer found
    cases found

section Steps

variable {broker after : Broker settings Value}
variable {caller : Nat}

section Owned

variable (owned : broker.Owned)
include owned

/-- Two loops of one partition have one owner, which runs one there. -/
theorem Owned.exclusive : Exclusive broker.bus := by
  intro first second left right foundLeft foundRight runsLeft runsRight same
  rcases owned.owned first left foundLeft runsLeft with
    ⟨index, caller, here, ownsLeft⟩
  rcases owned.owned second right foundRight runsRight with
    ⟨other, otherCaller, there, ownsRight⟩
  rw [← same] at ownsRight
  have one : index = other :=
    owned.claims.unique left.partition index other caller otherCaller here
      there (Caller.holds_of_owns ownsLeft) (Caller.holds_of_owns ownsRight)
  rw [one, there] at here
  cases here
  exact Caller.owns_unique ownsLeft ownsRight

/-- A step of the bus. -/
theorem Owned.move {action : Bus.Action settings Value}
    (step : broker.move action = some after) : after.Owned := by
  simp only [Broker.move] at step
  split at step
  · cases step
  · rename_i ordinary
    split at step
    · cases step
    · rename_i bus moved
      cases step
      have effect := step_effect (Bool.eq_false_iff.mpr ordinary) moved
      refine ⟨owned.claims, ?_⟩
      intro loop consumer found running
      rcases effect.running found running with
        ⟨earlier, before, partition, ran⟩
      rw [← partition]
      exact owned.owned loop earlier before ran

theorem Owned.call {caller : Caller settings.partitions}
    (idle : ∀ partition, ¬caller.holds partition) :
    ({ broker with callers := broker.callers ++ [caller] } :
      Broker settings Value).Owned where
  claims := owned.claims.append idle
  owned := by
    intro loop consumer found running
    rcases owned.owned loop consumer found running with
      ⟨index, owner, here, owns⟩
    exact ⟨index, owner, concat_iff.mpr (.inl here), owns⟩

/-- The running loops keep their owners when a caller keeps its own. -/
theorem Owned.keep {index : Nat} {old new : Caller settings.partitions}
    (found : broker.callers[index]? = some old)
    (kept : ∀ (loop : Nat) (consumer : Consumer settings.partitions Value),
      broker.bus.consumers[loop]? = some consumer →
        consumer.stage.isReturned = false → old.owns consumer.partition loop →
            new.owns consumer.partition loop) :
    ∀ (loop : Nat) (consumer : Consumer settings.partitions Value),
      broker.bus.consumers[loop]? = some consumer →
        consumer.stage.isReturned = false →
          ∃ (position : Nat) (caller : Caller settings.partitions),
            (broker.callers.set index new)[position]? = some caller ∧
              caller.owns consumer.partition loop := by
  intro loop consumer here running
  rcases owned.owned loop consumer here running with
    ⟨position, owner, there, owns⟩
  by_cases same : position = index
  · rw [same, found] at there
    cases there
    exact ⟨index, new, set_self new found,
      kept loop consumer here running owns⟩
  · exact ⟨position, owner, set_of_ne new same there, owns⟩

theorem Owned.claim (step : broker.claim caller = some after) :
    after.Owned := by
  simp only [Broker.claim] at step
  split at step
  · rename_i found
    split at step
    · cases step
      exact ⟨owned.claims.set_same found fun _ => Iff.rfl,
        owned.keep found fun _ _ _ _ owns => owns.elim⟩
    · rename_i free
      cases step
      refine ⟨owned.claims.set found ?_ ?_,
        owned.keep found fun _ _ _ _ owns => owns.elim⟩
      · intro partition _
        exact Or.inr fun claimed => free ⟨partition, claimed⟩
      · intro partition
        exact iff_of_true rfl (Or.inl trivial)
  · rename_i found
    split at step
    · cases step
      exact ⟨owned.claims.set_same found fun _ => Iff.rfl,
        owned.keep found fun _ _ _ _ owns => owns.elim⟩
    · rename_i partition first
      cases step
      have free : broker.claimed partition = false := by
        simpa using List.find?_some first
      refine ⟨owned.claims.set found ?_ ?_,
        owned.keep found fun _ _ _ _ owns => owns.elim⟩
      · rintro other rfl
        rw [free]
        exact Or.inr (by decide)
      · intro other
        show update broker.claimed partition true other = true ↔ _
        by_cases same : partition = other
        · subst same
          exact iff_of_true (update_self _ _ _) (Or.inl rfl)
        · rw [update_of_ne (Ne.symm same)]
          constructor
          · exact fun claimed => Or.inr ⟨claimed, not_false⟩
          · exact fun either => either.elim (fun own => absurd own same)
              And.left
  · cases step

/-- The loops after a caller has started one more. -/
theorem Owned.start {index : Nat} {old new : Caller settings.partitions}
    {partition : Fin settings.partitions}
    (found : broker.callers[index]? = some old)
    (same : ∀ other, new.holds other ↔ old.holds other)
    (kept : ∀ (loop : Nat) (other : Fin settings.partitions),
      old.owns other loop → new.owns other loop)
    (started : new.owns partition broker.bus.consumers.length) :
    ({ broker with
      bus := broker.bus.join partition
      callers := broker.callers.set index new } :
        Broker settings Value).Owned where
  claims := owned.claims.set_same found same
  owned := by
    intro loop consumer here running
    rcases concat_iff.mp here with there | ⟨rfl, rfl⟩
    · exact owned.keep found (fun other each _ _ owns =>
        kept other each.partition owns) loop consumer there running
    · exact ⟨index, new, set_self new found, started⟩

theorem Owned.consume {partition : Fin settings.partitions}
    (step : broker.consume caller partition = some after) : after.Owned := by
  simp only [Broker.consume] at step
  split at step
  · rename_i loops found
    split at step
    · cases step
    · rename_i unstarted
      cases step
      apply owned.start found
      · exact fun _ => Iff.rfl
      · intro loop other owns
        have different : other ≠ partition := by
          rintro rfl
          cases unstarted.symm.trans owns
        exact (update_of_ne different _ _).trans owns
      · exact update_self _ _ _
  · rename_i held found
    split at step
    · rename_i same
      subst same
      cases step
      apply owned.start found
      · exact fun _ => Iff.rfl
      · exact fun _ _ owns => owns.elim
      · exact ⟨rfl, rfl⟩
    · cases step
  · cases step

end Owned

theorem returned_of_result {loop : Nat} {result : Option Fault}
    {consumer : Consumer settings.partitions Value}
    (ended : broker.result loop = some result)
    (found : broker.bus.consumers[loop]? = some consumer) :
    consumer.stage.isReturned = true := by
  simp only [Broker.result, found] at ended
  split at ended
  · rename_i same
    cases same
    rfl
  · cases ended

theorem Owned.finish
    (owned : broker.Owned) (step : broker.finish caller = some after) :
    after.Owned := by
  simp only [Broker.finish] at step
  split at step
  · rename_i loops found
    split at step
    · rename_i ended
      cases step
      refine ⟨owned.claims.set_same found fun _ => Iff.rfl,
        owned.keep found ?_⟩
      intro loop consumer here running owns
      have done := ended consumer.partition
      rw [show loops consumer.partition = some loop from owns] at done
      rcases Option.isSome_iff_exists.mp done with ⟨result, returned⟩
      have returned := returned_of_result returned here
      rw [running] at returned
      cases returned
    · cases step
  · rename_i partition own found
    split at step
    · cases step
    · rename_i result ended
      cases step
      refine ⟨owned.claims.set_same found fun _ => Iff.rfl,
        owned.keep found ?_⟩
      rintro loop consumer here running ⟨_, rfl⟩
      have returned := returned_of_result ended here
      rw [running] at returned
      cases returned
  · cases step

theorem Owned.release
    (owned : broker.Owned) (step : broker.release caller = some after) :
    after.Owned := by
  simp only [Broker.release] at step
  split at step
  · rename_i errors found
    cases step
    refine ⟨owned.claims.set found ?_ ?_,
      owned.keep found fun _ _ _ _ owns => owns.elim⟩
    · exact fun _ holds => holds.elim
    · intro partition
      constructor
      · intro claimed
        cases claimed
      · rintro (holds | ⟨_, other⟩)
        · exact holds.elim
        · exact absurd trivial other
  · rename_i partition errors found
    cases step
    refine ⟨owned.claims.set found ?_ ?_,
      owned.keep found fun _ _ _ _ owns => owns.elim⟩
    · exact fun _ holds => holds.elim
    · intro other
      show update broker.claimed partition false other = true ↔ _
      by_cases same : partition = other
      · subst same
        rw [update_self]
        constructor
        · intro claimed
          cases claimed
        · rintro (holds | ⟨_, free⟩)
          · exact holds.elim
          · exact absurd rfl free
      · rw [update_of_ne (Ne.symm same)]
        constructor
        · exact fun claimed => Or.inr ⟨claimed, same⟩
        · exact fun either => either.elim False.elim And.left
  · cases step

theorem Owned.step {action : Action settings Value} (owned : broker.Owned)
    (step : broker.step action = some after) : after.Owned := by
  cases action with
  | bus action => exact owned.move step
  | runConsumerGroup | receive =>
    cases step
    exact owned.call fun _ holds => holds
  | claim caller => exact owned.claim step
  | consume caller partition => exact owned.consume step
  | finish caller => exact owned.finish step
  | release caller => exact owned.release step

end Steps

theorem owned_of_reachable {broker : Broker settings Value}
    (reachable : (machine settings Value).Reachable broker) :
    broker.Owned := by
  apply reachable.invariant
  · rintro state rfl
    exact owned_new
  · intro before action later _ owned step
    exact owned.step step

end Broker

end Ironclaw.Bus
