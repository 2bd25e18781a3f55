import Ironclaw.Domain.Command
import Ironclaw.Store.History

/-!
# The command service

A command is checked, and a reset is passed on to the store.  Commands travel
over a channel that delivers at least once: a handler that failed is retried,
and a record whose offset was not committed is delivered again.

A reset sets the counters of its device to zero, whenever it is handled.  So a
redelivery erases what was counted since the command was handled before.
-/

namespace Ironclaw.Commands

open Lib Domain Store

variable {memory : Memory}

def errUnsupportedKind : Fault :=
  .sentinel "commands: command kind is not supported"

def metricCommandsApplied : String := "commands_applied"
def metricCommandsRejected : String := "commands_rejected"

/-- The resetter and the recorder of a service, over the world they change. -/
structure Service (World : Type) where
  resetDevice : Option Fault → String → String → World → World × Option Fault
  metrics : Option (String → Int64 → World → World)

namespace Service

variable {World : Type}

def record (service : Service World) (name : String) (delta : Int64)
    (world : World) : World :=
  match service.metrics with
  | none => world
  | some increment => increment name delta world

/-- Check a command, and reset its device. -/
def handleCommand (service : Service World) (context : Option Fault)
    (command : Command) (world : World) : World × Option Fault :=
  match command.validate with
  | some fault =>
    (service.record metricCommandsRejected 1 world, some fault)
  | none =>
    if command.kind = .resetCounters then
      match service.resetDevice context command.userID command.deviceID
          world with
      | (after, some fault) =>
        (service.record metricCommandsRejected 1 after, some fault)
      | (after, none) =>
        (service.record metricCommandsApplied 1 after, none)
    else
      (service.record metricCommandsRejected 1 world,
        some (.detailed errUnsupportedKind command.kind.string))

/-- The service on a store, which may be the recorder as well. -/
def onMemory (recorded : Bool) : Service Memory where
  resetDevice := Memory.resetDevice
  metrics :=
    if recorded then some fun name delta memory =>
      memory.increment name delta
    else none

end Service

/-! ## What a device has counted -/

theorem standing_record
    (recorded : Bool) (key name : String) (delta : Int64) (memory : Memory) :
    standing key ((Service.onMemory recorded).record name delta memory) =
      standing key memory := by
  cases recorded <;> rfl

theorem standing_resetDevice {userID deviceID : String}
    (zero : memory.deviceTally (deviceKey userID deviceID) = 0) :
    standing (deviceKey userID deviceID)
        (memory.resetDevice none userID deviceID).1 =
      standing (deviceKey userID deviceID) memory := by
  rw [Memory.deviceTally] at zero
  rw [standing, Memory.devices_resetDevice_self, standing]
  cases found : memory.devices.lookup (deviceKey userID deviceID) with
  | none => rfl
  | some record =>
    rw [found] at zero
    exact Prod.ext rfl zero.symm

/-! ## Runs with one command -/

/-- A delivery of the command, or an emission. -/
inductive Step where
  | deliver (context : Option Fault)
  | apply (context : Option Fault) (window : AggregateWindow)

def Step.isDelivery : Step → Bool
  | .deliver _ => true
  | .apply _ _ => false

variable (recorded : Bool) (command : Command)

def perform (memory : Memory) : Step → Memory
  | .deliver context =>
    ((Service.onMemory recorded).handleCommand context command memory).1
  | .apply context window => (memory.applyWindow context window).1

def run (steps : List Step) (memory : Memory) : Memory :=
  steps.foldl (perform recorded command) memory

/-- The same run with the command handled at its first delivery only. -/
def onlyFirst : List Step → List Step
  | [] => []
  | .deliver context :: rest =>
    .deliver context :: rest.filter fun step => !step.isDelivery
  | .apply context window :: rest => .apply context window :: onlyFirst rest

/-- The device the command is about. -/
def target : String := deviceKey command.userID command.deviceID

/--
Every delivery after the first finds the counters of the device at zero, or
its context done.  The flag says whether the command was delivered before.
-/
def Unhurt : Bool → Memory → List Step → Prop
  | _, _, [] => True
  | delivered, memory, .deliver context :: rest =>
    (delivered = true → context = none →
        memory.deviceTally (target command) = 0) ∧
      Unhurt true (perform recorded command memory (.deliver context)) rest
  | delivered, memory, .apply context window :: rest =>
    Unhurt delivered
      (perform recorded command memory (.apply context window)) rest

variable {recorded command}

theorem standing_apply_congr {key : String} {other : Memory}
    (context : Option Fault) (window : AggregateWindow)
    (same : standing key memory = standing key other) :
    standing key (perform recorded command memory (.apply context window)) =
      standing key
        (perform recorded command other (.apply context window)) := by
  cases context with
  | some fault => exact same
  | none =>
    simp only [perform]
    rw [standing_applyWindow, standing_applyWindow, same]

/-- A delivery that finds the counters at zero changes no standing. -/
theorem standing_deliver (context : Option Fault)
    (zero : context = none → memory.deviceTally (target command) = 0) :
    standing (target command)
        (perform recorded command memory (.deliver context)) =
      standing (target command) memory := by
  simp only [perform, Service.handleCommand]
  split
  · exact standing_record recorded _ _ _ memory
  · split
    · have reset : standing (target command)
          (memory.resetDevice context command.userID command.deviceID).1 =
            standing (target command) memory := by
        cases context with
        | some fault => rfl
        | none => exact standing_resetDevice (zero rfl)
      split
      · rename_i after fault outcome
        rw [standing_record, ← reset]
        exact congrArg (fun result => standing (target command) result.1)
          outcome.symm
      · rename_i after outcome
        rw [standing_record, ← reset]
        exact congrArg (fun result => standing (target command) result.1)
          outcome.symm
    · exact standing_record recorded _ _ _ memory

/-- Redeliveries that hurt nothing can be left out. -/
theorem standing_run_filter (steps : List Step) {other : Memory}
    (same : standing (target command) memory =
      standing (target command) other)
    (unhurt : Unhurt recorded command true memory steps) :
    standing (target command) (run recorded command steps memory) =
      standing (target command)
        (run recorded command
          (steps.filter fun step => !step.isDelivery) other) := by
  induction steps generalizing memory other with
  | nil => exact same
  | cons step rest induction =>
    cases step with
    | deliver context =>
      apply induction _ unhurt.2
      rw [standing_deliver context (unhurt.1 rfl)]
      exact same
    | apply context window =>
      apply induction _ unhurt
      exact standing_apply_congr context window same

theorem standing_run_onlyFirst (steps : List Step)
    (unhurt : Unhurt recorded command false memory steps) :
    standing (target command) (run recorded command steps memory) =
      standing (target command)
        (run recorded command (onlyFirst steps) memory) := by
  induction steps generalizing memory with
  | nil => rfl
  | cons step rest induction =>
    cases step with
    | deliver context => exact standing_run_filter rest rfl unhurt.2
    | apply context window => exact induction unhurt

/--
In every run in which each redelivery finds the counters of the device at zero
or its context done, the device ends with the counters of the run in which the
command is handled at its first delivery only.
-/
theorem redelivered_reset_erases_nothing
    (recorded : Bool) (command : Command) (memory : Memory)
    (steps : List Step)
    (unhurt : Unhurt recorded command false memory steps) :
    (run recorded command steps memory).deviceTally
        (deviceKey command.userID command.deviceID) =
      (run recorded command (onlyFirst steps) memory).deviceTally
        (deviceKey command.userID command.deviceID) := by
  rw [deviceTally_eq_standing, deviceTally_eq_standing]
  exact congrArg Prod.snd (standing_run_onlyFirst steps unhurt)

/-- A reset of the device of the example windows. -/
def exampleReset : Command where
  kind := .resetCounters
  userID := "user-1"
  deviceID := "device-1"
  actor := "operator"
  issuedAt := ⟨1700000000000000000⟩

def laterWindow : AggregateWindow :=
  { exampleWindow "device-1" with sequence := 2 }

/-- The command is delivered twice, and again with its context done. -/
def promptSteps : List Step :=
  [.apply none (exampleWindow "device-1"), .deliver none, .deliver none,
    .apply none laterWindow, .deliver (some (.sentinel "context canceled"))]

theorem promptSteps_unhurt :
    Unhurt true exampleReset false Memory.new promptSteps := by
  refine ⟨?_, ?_, ?_, trivial⟩
  · intro impossible
    cases impossible
  · intro _ _
    decide
  · intro _ impossible
    cases impossible

theorem redelivered_reset_erases_nothing_example :
    (run true exampleReset promptSteps Memory.new).deviceTally
        (deviceKey "user-1" "device-1") =
      (run true exampleReset (onlyFirst promptSteps)
        Memory.new).deviceTally (deviceKey "user-1" "device-1") :=
  redelivered_reset_erases_nothing true exampleReset Memory.new promptSteps
    promptSteps_unhurt

/-- The command is delivered again after an emission. -/
def lateSteps : List Step :=
  [.apply none (exampleWindow "device-1"), .deliver none,
    .apply none laterWindow, .deliver none]

/--
The redelivery erases the emission that was applied in between: its event is
counted in the run with one delivery, and missing in the other.
-/
theorem redelivered_reset_erases_telemetry : exampleReset.validate = none ∧
      ((run true exampleReset lateSteps Memory.new).deviceTally
        (deviceKey "user-1" "device-1")).count = 0 ∧
      ((run true exampleReset (onlyFirst lateSteps) Memory.new).deviceTally
          (deviceKey "user-1" "device-1")).count = laterWindow.count ∧
        laterWindow.count ≠ 0 := by
  decide

end Ironclaw.Commands
