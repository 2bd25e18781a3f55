import Mathlib.Data.List.Basic

/-!
# Unwinding

An observer of a system knows of some of its actions and sees a part of its
state.  If an action the observer does not know of leaves that part alone, and
the effect of the others on it depends on that part only, then what the
observer sees is determined by the actions it knows of.
-/

namespace Ironclaw.Lib

variable {State Action View : Type*}

/-- The two unwinding conditions, for actions of the kind `allowed`. -/
structure Unwinding
    (step : State → Action → State) (allowed : Action → Prop)
    (known : Action → Bool) (view : State → View) : Prop where
  respects : ∀ state action, allowed action → known action = false →
    view (step state action) = view state
  consistent : ∀ left right action, allowed action →
    known action = true → view left = view right →
      view (step left action) = view (step right action)

namespace Unwinding

variable {step : State → Action → State} {allowed : Action → Prop}
variable {known : Action → Bool} {view : State → View}

/-- The unknown actions can be left out of a run. -/
theorem view_foldl_filter (unwinding : Unwinding step allowed known view)
    {actions : List Action} (permitted : ∀ action ∈ actions, allowed action)
    {left right : State} (alike : view left = view right) :
    view (actions.foldl step left) =
      view ((actions.filter known).foldl step right) := by
  induction actions generalizing left right with
  | nil => exact alike
  | cons action rest induction =>
    have first := permitted action List.mem_cons_self
    have later : ∀ other ∈ rest, allowed other := by
      intro other member
      exact permitted other (List.mem_cons_of_mem _ member)
    cases knows : known action with
    | false =>
      rw [List.filter_cons_of_neg (by rw [knows]; decide)]
      exact induction later
        ((unwinding.respects left action first knows).trans alike)
    | true =>
      rw [List.filter_cons_of_pos knows]
      exact induction later
        (unwinding.consistent left right action first knows alike)

theorem indistinguishable (unwinding : Unwinding step allowed known view)
    {first second : List Action}
    (firstPermitted : ∀ action ∈ first, allowed action)
    (secondPermitted : ∀ action ∈ second, allowed action)
    (agree : first.filter known = second.filter known) (start : State) :
    view (first.foldl step start) = view (second.foldl step start) := by
  calc
    view (first.foldl step start) =
        view ((first.filter known).foldl step start) :=
      unwinding.view_foldl_filter firstPermitted rfl
    _ = view ((second.filter known).foldl step start) := by rw [agree]
    _ = view (second.foldl step start) :=
      (unwinding.view_foldl_filter secondPermitted rfl).symm

end Unwinding

end Ironclaw.Lib
