import Ironclaw.Domain.Event

/-!
# Commands

What an operator asks of a device.  A command names the user and the device it
is about and the actor who issued it.
-/

namespace Ironclaw.Domain

open Lib

def errInvalidCommand : Fault :=
  .sentinel "domain: command kind is not recognised"

def errMissingActor : Fault := .sentinel "domain: command actor is empty"

/-- The kind of a command: an open enumeration of one byte. -/
structure CommandKind where
  code : UInt8
deriving DecidableEq, Repr

namespace CommandKind

def unknown : CommandKind := ⟨0⟩
def resetCounters : CommandKind := ⟨1⟩
def quarantineDevice : CommandKind := ⟨2⟩

/-- The names of the recognised kinds. -/
def names : List (CommandKind × String) :=
  [(resetCounters, "reset_counters"), (quarantineDevice, "quarantine_device")]

def string (kind : CommandKind) : String :=
  (names.lookup kind).getD "unknown"

def valid (kind : CommandKind) : Bool := (names.lookup kind).isSome

end CommandKind

/-- What an operator asks for a device. -/
structure Command where
  kind : CommandKind
  userID : String
  deviceID : String
  actor : String
  issuedAt : Time
deriving DecidableEq, Repr

def Command.validate (command : Command) : Option Fault :=
  if !command.kind.valid then some errInvalidCommand
  else if command.userID = "" then some errMissingUserID
  else if command.deviceID = "" then some errMissingDeviceID
  else if command.actor = "" then some errMissingActor
  else none

end Ironclaw.Domain
