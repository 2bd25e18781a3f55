import Ironclaw.MCPServer.Tools
import Ironclaw.Store.Tenancy

/-!
# Tenants do not see each other through the tools

A principal without the admin scope is answered from the holdings of its own
user.  Two stores that received the same calls for this user, and anything
whatever for others, cannot be told apart by any sequence of checks and reads
a tool makes, and a request that names another user reaches no collaborator.
-/

namespace Ironclaw.MCPServer

open Lib Lib.Recorded Domain Store

namespace Tools

/-- The tools on an in-memory store, where a reader is configured. -/
def on (tools : Tools) (memory : Memory) : Tools :=
  { tools with
    state := fun context => memory.deviceState context.err
    devices := tools.devices.map fun _ context =>
      memory.userDevices context.err
    metrics := tools.metrics.map fun _ context =>
      memory.pipelineMetrics context.err }

section Requests

variable {tools : Tools} {context : Context} {principal : Principal}
variable {request : Request}

section Authenticated

variable (authenticated : principalFrom context = some principal)
variable (ordinary : principal.hasScope scopeAdmin = false)
include authenticated ordinary

theorem fleet_refused : tools.authoriseFleet context ≠ none := by
  rw [authoriseFleet, authenticated]
  simp [ordinary]

/-- The authorised reads of equal holdings are answered alike. -/
theorem serve_congr {left right : Memory}
    (alike : left.holdings principal.userID = right.holdings principal.userID)
    (request : Request) :
    (tools.on left).serve context request =
      (tools.on right).serve context request := by
  cases request with
  | deviceState input =>
    apply congrArg (Response.deviceState <$> ·)
    refine check_congr fun _ => check_congr fun _ => check_congr fun _ =>
      check_congr fun _ => check_congr fun passes => ?_
    have own := (user_of_authorise authenticated ordinary passes).2
    have same : (tools.on left).state context input.userID input.deviceID =
        (tools.on right).state context input.userID input.deviceID := by
      rw [own]
      exact Memory.deviceState_of_holdings alike context.err input.deviceID
    rw [same]
  | userDevices input =>
    apply congrArg (Response.userDevices <$> ·)
    refine check_congr fun _ => check_congr fun _ =>
      configured_congr fun _ => check_congr fun passes => ?_
    have own := (user_of_authorise authenticated ordinary passes).2
    rw [own]
    simp only [Memory.userDevices_of_holdings alike]
  | pipelineMetrics =>
    apply congrArg (Response.pipelineMetrics <$> ·)
    refine configured_congr fun _ => check_congr fun passes => ?_
    exact absurd passes (fleet_refused authenticated ordinary)
  | resetCounters | watchDevice => rfl

/-- What the gate of a request lets pass. -/
theorem own_of_admits (passes : tools.admits context request) :
    principal.userID ≠ "" ∧ request.userID = some principal.userID := by
  rw [admits] at passes
  cases named : request.userID with
  | some userID =>
    rw [named] at passes
    rcases user_of_authorise authenticated ordinary passes with ⟨present, own⟩
    exact ⟨present, congrArg some own⟩
  | none =>
    rw [named] at passes
    exact absurd passes (fleet_refused authenticated ordinary)

theorem refused_of_other (other : request.userID ≠ some principal.userID) :
    Refused (tools.serve context request) := by
  apply (serve_guards tools context request).refused
  intro passes
  exact other (own_of_admits authenticated ordinary passes).2

/-- A published command is for the user of the principal, and by it. -/
theorem attributed_of_published {command : Command}
    (published : .publishCommand command ∈
      (tools.serve context request).calls) :
    command.userID = principal.userID ∧ command.actor = principal.userID := by
  rcases (serve_guards tools context request).made published with
    ⟨passes, made⟩
  rcases own_of_admits authenticated ordinary passes with ⟨present, own⟩
  cases request with
  | resetCounters input =>
    cases made
    refine ⟨Option.some.inj own, ?_⟩
    simp only [resetCommand, actor, authenticated, ordinary]
    simp [present]
  | deviceState | userDevices | pipelineMetrics | watchDevice => cases made

end Authenticated

end Requests

end Tools

/--
A tool that is not refused makes the one call that its request is for.  Then
there is no principal and none is required, or the principal has the admin
scope or asks for its own user.
-/
theorem tools_call_only_when_authorised
    (tools : Tools) (context : Context) (request : Request) :
    Refused (tools.serve context request) ∨
      (tools.serve context request).calls =
          [tools.invocation context request] ∧
        match principalFrom context with
        | none => tools.requireAuth = false
        | some principal =>
          principal.hasScope scopeAdmin = true ∨ principal.userID ≠ "" ∧
            request.userID = some principal.userID := by
  rcases tools.serve_guards context request with refused | ⟨passes, made⟩
  · exact Or.inl refused
  · refine Or.inr ⟨made, ?_⟩
    cases known : principalFrom context with
    | none =>
      rw [Tools.admits] at passes
      cases named : request.userID with
      | none => simpa [named, Tools.authoriseFleet, known] using passes
      | some userID => simpa [named, Tools.authorise, known] using passes
    | some principal =>
      cases ordinary : principal.hasScope scopeAdmin with
      | true => exact Or.inl ordinary
      | false => exact Or.inr (Tools.own_of_admits known ordinary passes)

/--
A principal without the admin scope sees through the tools what the calls for
its own user determine.  Requests for another user, and for the counters of
the fleet, are refused before any collaborator is asked; commands are
published for the principal's user and under its name only.
-/
theorem tools_isolate_tenants
    (tools : Tools) {context : Context} {principal : Principal}
    (authenticated : principalFrom context = some principal)
    (ordinary : principal.hasScope scopeAdmin = false)
    (plain : Plain principal.userID) {first second : List Call}
    (firstPlain : ∀ call ∈ first, Plain call.userID)
    (secondPlain : ∀ call ∈ second, Plain call.userID)
    (agree : first.filter (Call.isFor principal.userID) =
      second.filter (Call.isFor principal.userID))
    (request : Request) :
    (tools.on (Memory.replay first)).serve context request =
        (tools.on (Memory.replay second)).serve context request ∧
      (request.userID ≠ some principal.userID →
        Refused ((tools.on (Memory.replay first)).serve context request)) ∧
      ∀ command, .publishCommand command ∈
          ((tools.on (Memory.replay first)).serve context request).calls →
        command.userID = principal.userID ∧
          command.actor = principal.userID := by
  refine ⟨?_, ?_, ?_⟩
  · exact Tools.serve_congr authenticated ordinary
      (Memory.holdings_replay plain firstPlain secondPlain agree) request
  · intro other
    exact Tools.refused_of_other authenticated ordinary other
  · intro command published
    exact Tools.attributed_of_published authenticated ordinary published

/-- Tools whose commands are always accepted. -/
def sampleTools : Tools where
  state _ _ _ := .error Domain.errDeviceNotFound
  devices := some fun _ _ => .ok ⟨[], false⟩
  metrics := some fun _ => .ok ∅
  commands := some fun _ _ => none
  watcher := none
  now := ⟨1700000000000000000⟩
  requireAuth := true
  watchSlots := defaultMaxWatches
  watching := 0

/-- A request of the first user. -/
def sampleContext : Context where
  principal := none
  tokenInfo := some ⟨"user-1", ["ironclaw:read"]⟩
  err := none

/-- An emission of another user, for a device of the same name. -/
def foreignWindow : AggregateWindow :=
  { exampleWindow "device-1" with
    key := { (exampleWindow "device-1").key with userID := "user-2" } }

theorem tools_isolate_tenants_example :
    let own := Call.applyWindow (exampleWindow "device-1")
    let foreign := Call.applyWindow foreignWindow
    let shared := sampleTools.on (Memory.replay [foreign, own])
    let alone := sampleTools.on (Memory.replay [own])
    let reset := Request.resetCounters ⟨"user-1", "device-1", "root"⟩
    (∀ request, shared.serve sampleContext request =
        alone.serve sampleContext request) ∧
      Refused (shared.serve sampleContext
        (.deviceState ⟨"user-2", "device-1"⟩)) ∧
      ∃ command, (shared.serve sampleContext reset).calls =
          [.publishCommand command] ∧ command.actor = "user-1" := by
  intro own foreign shared alone reset
  have plain : Plain "user-1" := by decide
  have sharedPlain : ∀ call ∈ [foreign, own], Plain call.userID := by
    decide
  have alonePlain : ∀ call ∈ [own], Plain call.userID := by decide
  have isolated := @tools_isolate_tenants sampleTools sampleContext
    ⟨"user-1", ["ironclaw:read"]⟩ rfl (by decide) plain _ _ sharedPlain
    alonePlain (by decide)
  refine ⟨fun request => (isolated request).1,
    (isolated (.deviceState ⟨"user-2", "device-1"⟩)).2.1 (by decide),
    _, rfl, ?_⟩
  exact ((isolated reset).2.2 _ List.mem_cons_self).2

end Ironclaw.MCPServer
