import Ironclaw.Lib.Fault

/-!
# Outcomes of remote calls

A call to a remote party may fail after it took effect there.
-/

namespace Ironclaw.Lib

/-- What one remote call does. -/
inductive Outcome where
  | delivered
  | refused (fault : Fault)
  | ambiguous (fault : Fault)
deriving DecidableEq

namespace Outcome

/-- The error that the call returns. -/
def fault : Outcome → Option Fault
  | .delivered => none
  | .refused fault => some fault
  | .ambiguous fault => some fault

/-- Whether the call took effect. -/
def reaches : Outcome → Bool
  | .delivered => true
  | .refused _ => false
  | .ambiguous _ => true

theorem reaches_of_fault
    {outcome : Outcome} (succeeded : outcome.fault = none) :
    outcome.reaches = true := by
  cases outcome with
  | delivered => rfl
  | refused | ambiguous => cases succeeded

end Outcome

end Ironclaw.Lib
