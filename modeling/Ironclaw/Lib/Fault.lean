import Mathlib.Data.List.Basic

/-!
# Error values

An error is a sentinel, known by its text, or an error wrapped in context:
before its cause, or as a detail after it.  A call that may fail returns
`Option Fault`; `none` is success.
-/

namespace Ironclaw.Lib

/-- A sentinel error or an error wrapped by a caller. -/
inductive Fault where
  | sentinel (text : String)
  | wrapped (context : String) (cause : Fault)
  | detailed (cause : Fault) (detail : String)
deriving DecidableEq, Repr

namespace Fault

/-- The text of an error. -/
def message : Fault → String
  | .sentinel text => text
  | .wrapped context cause => context ++ ": " ++ cause.message
  | .detailed cause detail => cause.message ++ ": " ++ detail

/-- Whether some error of the chain of causes is `target`. -/
def is (fault target : Fault) : Bool :=
  fault == target ||
    match fault with
    | .sentinel _ => false
    | .wrapped _ cause => cause.is target
    | .detailed cause _ => cause.is target

@[simp]
theorem is_self (fault : Fault) : fault.is fault = true := by
  cases fault <;> simp [is]

theorem is_detailed {cause target : Fault} {detail : String}
    (isTarget : cause.is target = true) :
    (Fault.detailed cause detail).is target = true := by
  simp [is, isTarget]

end Fault

end Ironclaw.Lib
