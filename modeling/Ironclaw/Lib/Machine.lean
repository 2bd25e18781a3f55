import Mathlib.Data.List.Basic

/-!
# Labelled machines

A machine has initial states and one partial step for every action.  All the
nondeterminism of a system (which thread moves, which branch a select takes,
which call fails) is carried by the action, so a step is a function and a
concrete run can be evaluated.

The induction over runs is packaged once here.  `ReachableUnder` restricts the
runs to those whose every step satisfies a condition on the state before it;
`Reachable` is the unrestricted case.
-/

namespace Ironclaw.Lib

open Option

/-- Initial states and a partial step for every action. -/
structure Machine (State Action : Type*) where
  initial : State → Prop
  step : State → Action → Option State

namespace Machine

variable {State Action : Type*}

/-- Execute a list of actions, failing as soon as one of them is disabled. -/
def run (machine : Machine State Action) :
    State → List Action → Option State
  | state, [] => some state
  | state, action :: rest =>
    (machine.step state action).bind fun next => machine.run next rest

/-- Execute a list of actions, failing as soon as a check does. -/
def runIf (machine : Machine State Action) (check : State → Action → Bool) :
    State → List Action → Option State
  | state, [] => some state
  | state, action :: rest =>
    if check state action then
      (machine.step state action).bind fun next =>
        machine.runIf check next rest
    else none

/-- States reached by steps that all satisfy `allowed`. -/
inductive ReachableUnder
    (machine : Machine State Action)
    (allowed : State → Action → Prop) : State → Prop where
  | start {state : State}
      (initial : machine.initial state) :
      ReachableUnder machine allowed state
  | next {before after : State} {action : Action}
      (reachable : ReachableUnder machine allowed before)
      (permitted : allowed before action)
      (step : machine.step before action = some after) :
      ReachableUnder machine allowed after

/-- States reached by any run. -/
def Reachable (machine : Machine State Action) (state : State) : Prop :=
  machine.ReachableUnder (fun _ _ => True) state

variable {machine : Machine State Action}

theorem Reachable.start {state : State} (initial : machine.initial state) :
    machine.Reachable state :=
  ReachableUnder.start initial

theorem Reachable.next {before after : State} {action : Action}
    (reachable : machine.Reachable before)
    (step : machine.step before action = some after) :
    machine.Reachable after :=
  ReachableUnder.next reachable trivial step

theorem ReachableUnder.reachable
    {allowed : State → Action → Prop} {state : State}
    (restricted : machine.ReachableUnder allowed state) :
    machine.Reachable state := by
  induction restricted with
  | start initial => exact Reachable.start initial
  | next _ _ step induction => exact induction.next step

theorem Reachable.run {before after : State} {actions : List Action}
    (reachable : machine.Reachable before)
    (run : machine.run before actions = some after) :
    machine.Reachable after := by
  induction actions generalizing before with
  | nil =>
    simp only [Machine.run, some.injEq] at run
    exact run ▸ reachable
  | cons action rest induction =>
    simp only [Machine.run, bind_eq_some_iff] at run
    obtain ⟨middle, first, remaining⟩ := run
    exact induction (reachable.next first) remaining

theorem Reachable.lift
    {Part Move : Type*} {advance : Part → Move → Option Part}
    {embed : Part → State} {label : Move → Action}
    (follows : ∀ part move next, advance part move = some next →
      machine.step (embed part) (label move) = some (embed next))
    {before after : Part} {moves : List Move}
    (run : moves.foldlM advance before = some after)
    (reachable : machine.Reachable (embed before)) :
    machine.Reachable (embed after) := by
  induction moves generalizing before with
  | nil =>
    cases run
    exact reachable
  | cons move rest induction =>
    rw [List.foldlM_cons] at run
    rcases bind_eq_some_iff.mp run with ⟨middle, first, remaining⟩
    exact induction remaining (reachable.next (follows _ _ _ first))

/-- A run whose steps pass a check that permits them. -/
theorem ReachableUnder.runIf
    {allowed : State → Action → Prop} {check : State → Action → Bool}
    {before after : State} {actions : List Action}
    (reachable : machine.ReachableUnder allowed before)
    (permits : ∀ state action, check state action = true →
      allowed state action)
    (run : machine.runIf check before actions = some after) :
    machine.ReachableUnder allowed after := by
  induction actions generalizing before with
  | nil =>
    simp only [Machine.runIf, some.injEq] at run
    exact run ▸ reachable
  | cons action rest induction =>
    rw [Machine.runIf] at run
    split at run
    · rename_i checked
      rcases bind_eq_some_iff.mp run with ⟨middle, first, remaining⟩
      exact induction (reachable.next (permits _ _ checked) first) remaining
    · cases run

theorem run_append (machine : Machine State Action)
    (state : State) (first second : List Action) :
    machine.run state (first ++ second) =
      (machine.run state first).bind fun middle =>
        machine.run middle second := by
  induction first generalizing state with
  | nil => rfl
  | cons action rest induction =>
    simp only [List.cons_append, Machine.run]
    cases machine.step state action with
    | none => rfl
    | some next => exact induction next

/--
The invariant rule.  A step may use that the state before it is itself
reachable, so invariants can be proved one on top of another.
-/
theorem Reachable.invariant {holds : State → Prop} {state : State}
    (initially : ∀ state, machine.initial state → holds state)
    (preserved : ∀ before action after,
      machine.Reachable before → holds before →
        machine.step before action = some after → holds after)
    (reachable : machine.Reachable state) :
    holds state := by
  induction reachable with
  | start initial => exact initially _ initial
  | next earlier _ step induction =>
    exact preserved _ _ _ earlier induction step

theorem ReachableUnder.invariant
    {allowed : State → Action → Prop} {holds : State → Prop} {state : State}
    (initially : ∀ state, machine.initial state → holds state)
    (preserved : ∀ before action after,
      machine.ReachableUnder allowed before → holds before →
        allowed before action →
          machine.step before action = some after → holds after)
    (reachable : machine.ReachableUnder allowed state) :
    holds state := by
  induction reachable with
  | start initial => exact initially _ initial
  | next earlier permitted step induction =>
    exact preserved _ _ _ earlier induction permitted step

end Machine

end Ironclaw.Lib
