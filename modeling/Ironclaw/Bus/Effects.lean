import Ironclaw.Bus.Books

/-!
# What one step of the bus can do

Every step but the start of a consume loop is one of seven kinds, told apart
by what they do to the calls, the channels, the consume loops and the log of
the handler calls.  Properties that speak of these only are proved by cases on
the kind of a step.
-/

namespace Ironclaw.Bus

open Lib Bus

variable {settings : Settings} {Value : Type}

/-- The value that a loop works on. -/
def Stage.parcel : Stage Value → Option (Parcel Value)
  | .delivering _ parcel _ => some parcel
  | _ => none

/-- The value of the handler call that a loop waits for. -/
def Stage.attempting : Stage Value → Option (Parcel Value)
  | .delivering _ parcel (.calling _) => some parcel
  | _ => none

theorem Stage.parcel_of_attempting
    {stage : Stage Value} {parcel : Parcel Value}
    (attempting : stage.attempting = some parcel) :
    stage.parcel = some parcel := by
  cases stage with
  | selecting | returned => cases attempting
  | delivering draining held delivery =>
    cases delivery with
    | calling attempt => exact attempting
    | looping | succeeded | failed | abandoning | retrying => cases attempting
    | burying => cases attempting

theorem Stage.running_of_parcel {stage : Stage Value} {parcel : Parcel Value}
    (held : stage.parcel = some parcel) : stage.isReturned = false := by
  cases stage with
  | selecting | delivering => rfl
  | returned result => cases held

/-- Whether an action starts a consume loop. -/
def Action.isJoin : Action settings Value → Bool
  | .join _ => true
  | _ => false

/-- The kinds of steps.  Only a push brings a value into a channel. -/
inductive Effect
    (action : Action settings Value) (bus after : Bus settings Value) :
    Prop where
  | rests
      (calls : after.calls = bus.calls)
      (channels : after.channels = bus.channels)
      (consumers : after.consumers = bus.consumers)
      (handed : after.handed = bus.handed)
  | sends {key : String} {value : Value}
      (calls : after.calls = bus.calls ++ [⟨key, value, .checking⟩])
      (channels : after.channels = bus.channels)
      (consumers : after.consumers = bus.consumers)
      (handed : after.handed = bus.handed)
  | moves {id : Nat} {key : String} {value : Value} {old new : Phase}
      (found : bus.calls[id]? = some ⟨key, value, old⟩)
      (calls : after.calls = bus.calls.set id ⟨key, value, new⟩)
      (accepted : new.accepted = old.accepted)
      (returned : old.isReturned = false)
      (channels : after.channels = bus.channels)
      (consumers : after.consumers = bus.consumers)
      (handed : after.handed = bus.handed)
  | pushes {id : Nat} {key : String} {value : Value}
      (pushed : action = .push id)
      (found : bus.calls[id]? = some ⟨key, value, .selecting⟩)
      (calls : after.calls = bus.calls.set id ⟨key, value, .counting⟩)
      (channels : after.channels =
        Function.update bus.channels (settings.partitionFor key)
          (bus.channels (settings.partitionFor key) ++ [⟨id, value⟩]))
      (consumers : after.consumers = bus.consumers)
      (handed : after.handed = bus.handed)
  | takes {index : Nat} {partition : Fin settings.partitions}
      {context : Option Fault} {draining : Bool} {parcel : Parcel Value}
      {rest : List (Parcel Value)}
      (found : bus.consumers[index]? =
        some ⟨partition, context, .selecting draining⟩)
      (waiting : bus.channels partition = parcel :: rest)
      (calls : after.calls = bus.calls)
      (channels : after.channels =
        Function.update bus.channels partition rest)
      (consumers : after.consumers = bus.consumers.set index
        ⟨partition, context, .delivering draining parcel (.looping 1)⟩)
      (handed : after.handed = bus.handed)
  | turns {index : Nat} {old new : Consumer settings.partitions Value}
      (found : bus.consumers[index]? = some old)
      (consumers : after.consumers = bus.consumers.set index new)
      (partition : new.partition = old.partition)
      (parcel : new.stage.parcel = none ∨ new.stage.parcel = old.stage.parcel)
      (running : new.stage.isReturned = false → old.stage.isReturned = false)
      (calls : after.calls = bus.calls)
      (channels : after.channels = bus.channels)
      (handed : after.handed = bus.handed)
  | attempts {index : Nat} {old new : Consumer settings.partitions Value}
      {parcel : Parcel Value}
      (found : bus.consumers[index]? = some old)
      (consumers : after.consumers = bus.consumers.set index new)
      (partition : new.partition = old.partition)
      (held : old.stage.parcel = some parcel)
      (calling : new.stage.parcel = some parcel)
      (calls : after.calls = bus.calls)
      (channels : after.channels = bus.channels)
      (handed : after.handed = bus.handed ++ [parcel])

variable {bus after : Bus settings Value}
variable {action : Action settings Value}

theorem accepted_returned (result : Option Fault) :
    (Phase.returned result).accepted = (Phase.leaving result).accepted := by
  cases result <;> rfl

theorem effect_push {id : Nat} (step : bus.push id = some after) :
    Effect (.push id) bus after := by
  simp only [push] at step
  split at step
  · rename_i key value found
    split_ifs at step
    cases step
    exact .pushes rfl found rfl rfl rfl rfl
  · cases step

theorem effect_receive
    {index : Nat} (step : bus.receive index = some after) :
    Effect action bus after := by
  simp only [receive] at step
  split at step
  · rename_i partition context draining found
    split at step
    · cases step
    · rename_i parcel rest waiting
      cases step
      exact .takes found waiting rfl rfl rfl rfl
  · cases step

theorem effect_deliver
    {index : Nat} (step : bus.deliver index = some after) :
    Effect action bus after := by
  simp only [deliver] at step
  split at step
  · rename_i partition context draining parcel delivery found
    cases delivery with
    | looping attempt =>
      dsimp only at step
      split_ifs at step
      · cases step
        exact .attempts found rfl rfl rfl rfl rfl rfl rfl
      · cases step
        exact .turns found rfl rfl (Or.inr rfl) (fun _ => rfl) rfl rfl rfl
    | calling attempt => cases step
    | succeeded | abandoning | burying =>
      cases step
      exact .turns found rfl rfl (Or.inl rfl) (fun _ => rfl) rfl rfl rfl
    | failed | retrying =>
      cases step
      exact .turns found rfl rfl (Or.inr rfl) (fun _ => rfl) rfl rfl rfl
  · cases step

/-- Every step but the start of a loop has one of the effects. -/
theorem step_effect (ordinary : action.isJoin = false)
    (step : bus.step action = some after) : Effect action bus after := by
  cases action with
  | send key value =>
    cases step
    exact .sends rfl rfl rfl rfl
  | push id => exact effect_push step
  | check | enter | refuse | expire | count | leave =>
    -- Every other branch of a call sets its phase only.
    simp only [Bus.step, check, enter, refuse, expire, count, leave] at step
    (repeat' split at step) <;> cases step <;> apply Effect.moves
    all_goals first | assumption | rfl | exact accepted_returned _
  | close =>
    simp only [Bus.step, close] at step
    (repeat' split at step) <;> cases step <;> exact .rests rfl rfl rfl rfl
  | join partition => cases ordinary
  | cancel | quit | shut | finish | handle =>
    simp only [Bus.step, cancel, quit, shut, finish, handle] at step
    (repeat' split at step) <;> cases step <;> apply Effect.turns
    all_goals first | assumption | rfl | exact Or.inl rfl |
      exact Or.inr rfl | exact id | exact fun _ => rfl
  | receive index => exact effect_receive step
  | deliver index => exact effect_deliver step

end Ironclaw.Bus
