import Ironclaw.Lib.Unwinding
import Ironclaw.Store.History

/-!
# What the store holds for one user

The records and the listing of a user are changed by the calls for that user
only, and by each of them in a way that depends on nothing else.  This rests
on the keys of the devices: where no user id contains the closing brace, the
key of a device determines its user, whatever the device id contains.
-/

namespace Ironclaw.Store

open Lib Domain

/-- The user a call is made for. -/
def Call.userID : Call → String
  | .applyWindow window => window.key.userID
  | .resetDevice userID _ => userID

def Call.isFor (userID : String) (call : Call) : Bool :=
  call.userID == userID

namespace Memory

/-- The records of the devices of a user, and which devices are listed. -/
def holdings (userID : String) (memory : Memory) :
    (String → Option DeviceRecord) × Finset String :=
  (fun deviceID => memory.devices.lookup (deviceKey userID deviceID),
    memory.listed userID)

section Holdings

variable {userID : String} {left right : Memory}

theorem holdings_eq
    (records : ∀ deviceID, left.devices.lookup (deviceKey userID deviceID) =
        right.devices.lookup (deviceKey userID deviceID))
    (listed : left.listed userID = right.listed userID) :
    left.holdings userID = right.holdings userID :=
  Prod.ext (funext records) listed

section Alike

variable (alike : left.holdings userID = right.holdings userID)
include alike

theorem lookup_of_holdings (deviceID : String) :
    left.devices.lookup (deviceKey userID deviceID) =
      right.devices.lookup (deviceKey userID deviceID) :=
  congrFun (congrArg Prod.fst alike) deviceID

theorem listed_of_holdings : left.listed userID = right.listed userID :=
  congrArg Prod.snd alike

theorem deviceState_of_holdings (context : Option Fault) (deviceID : String) :
    left.deviceState context userID deviceID =
      right.deviceState context userID deviceID := by
  simp only [deviceState, lookup_of_holdings alike]

theorem userDevices_of_holdings (context : Option Fault) :
    left.userDevices context userID = right.userDevices context userID := by
  have same := listed_of_holdings alike
  simp only [listed] at same
  simp only [userDevices, same]

end Alike

/-! ## The effect of one call -/

/-- A call for another user leaves the holdings alone. -/
theorem holdings_perform_of_ne
    (plain : Plain userID) {call : Call} (callPlain : Plain call.userID)
    (other : call.userID ≠ userID) (memory : Memory) :
    (memory.perform call).holdings userID = memory.holdings userID := by
  have distinct : ∀ deviceID otherDevice,
      deviceKey userID deviceID ≠ deviceKey call.userID otherDevice := by
    intro deviceID otherDevice same
    exact other (deviceKey_injective plain callPlain same).1.symm
  cases call with
  | applyWindow window =>
    apply holdings_eq
    · intro deviceID
      exact devices_applyWindow_of_ne (distinct deviceID _)
    · exact (listed_applyWindow userID window memory).trans
        (if_neg fun created => other created.1)
  | resetDevice otherUser otherDevice =>
    apply holdings_eq
    · intro deviceID
      exact devices_resetDevice_of_ne (distinct deviceID otherDevice)
    · exact listed_resetDevice userID otherUser otherDevice memory

/-- An emission of the user changes equal holdings in the same way. -/
theorem holdings_applyWindow {window : AggregateWindow}
    (alike : left.holdings window.key.userID =
      right.holdings window.key.userID) :
    (left.applyWindow none window).1.holdings window.key.userID =
      (right.applyWindow none window).1.holdings window.key.userID := by
  have record : left.devices.lookup (keyOf window) =
      right.devices.lookup (keyOf window) :=
    lookup_of_holdings alike window.key.deviceID
  apply holdings_eq
  · intro deviceID
    by_cases same : deviceKey window.key.userID deviceID = keyOf window
    · rw [same, devices_applyWindow_self, devices_applyWindow_self, record]
    · rw [devices_applyWindow_of_ne same, devices_applyWindow_of_ne same]
      exact lookup_of_holdings alike deviceID
  · rw [listed_applyWindow, listed_applyWindow, record,
      listed_of_holdings alike]

theorem holdings_resetDevice
    (alike : left.holdings userID = right.holdings userID) (reset : String) :
    (left.resetDevice none userID reset).1.holdings userID =
      (right.resetDevice none userID reset).1.holdings userID := by
  apply holdings_eq
  · intro deviceID
    by_cases same : deviceKey userID deviceID = deviceKey userID reset
    · rw [same, devices_resetDevice_self, devices_resetDevice_self,
        lookup_of_holdings alike]
    · rw [devices_resetDevice_of_ne same, devices_resetDevice_of_ne same]
      exact lookup_of_holdings alike deviceID
  · rw [listed_resetDevice, listed_resetDevice]
    exact listed_of_holdings alike

theorem holdings_perform {call : Call} (own : call.userID = userID)
    (alike : left.holdings userID = right.holdings userID) :
    (left.perform call).holdings userID =
      (right.perform call).holdings userID := by
  subst own
  cases call with
  | applyWindow window => exact holdings_applyWindow alike
  | resetDevice user reset => exact holdings_resetDevice alike reset

end Holdings

theorem unwinding_holdings {userID : String} (plain : Plain userID) :
    Unwinding perform (fun call => Plain call.userID)
      (Call.isFor userID) (holdings userID) where
  respects memory _ callPlain other :=
    holdings_perform_of_ne plain callPlain (ne_of_beq_false other) memory
  consistent _ _ _ _ own alike := holdings_perform (eq_of_beq own) alike

theorem holdings_replay
    {userID : String} (plain : Plain userID) {first second : List Call}
    (firstPlain : ∀ call ∈ first, Plain call.userID)
    (secondPlain : ∀ call ∈ second, Plain call.userID)
    (agree : first.filter (Call.isFor userID) =
      second.filter (Call.isFor userID)) :
    (replay first).holdings userID = (replay second).holdings userID :=
  (unwinding_holdings plain).indistinguishable firstPlain secondPlain agree
    Memory.new

end Memory

end Ironclaw.Store
