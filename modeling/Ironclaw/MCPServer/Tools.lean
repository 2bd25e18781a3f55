import Ironclaw.Domain.Command
import Ironclaw.Domain.Tally
import Ironclaw.Lib.Calendar
import Ironclaw.Lib.Recorded

/-!
# The tools of the MCP server

Every tool checks its input, then whether the principal of the request may
access the user it names, and only then asks a collaborator.  A request is
answered with the calls that were made for it, so the order of the checks is
part of the model.
-/

namespace Ironclaw.MCPServer

open Lib Lib.Recorded Domain

def errUnauthenticated : Fault :=
  .sentinel "mcpserver: request carries no authenticated principal"
def errForbidden : Fault :=
  .sentinel "mcpserver: principal may not access this user's telemetry"

def errNilStateReader : Fault :=
  .sentinel "mcpserver: device state reader is not configured"
def errNilDeviceLister : Fault :=
  .sentinel "mcpserver: user device lister is not configured"
def errNilMetricsReader : Fault :=
  .sentinel "mcpserver: pipeline metrics reader is not configured"
def errMissingUserID : Fault := .sentinel "mcpserver: user id is required"
def errMissingDevice : Fault := .sentinel "mcpserver: device id is required"
def errMissingActor : Fault := .sentinel "mcpserver: actor is required"
def errWritesDisabled : Fault :=
  .sentinel "mcpserver: command publishing is not configured"
def errNilDeviceWatcher : Fault :=
  .sentinel "mcpserver: device watcher is not configured"
def errWatchClosed : Fault :=
  .sentinel "mcpserver: device watch closed before an update arrived"
def errIdentifierTooLong : Fault :=
  .sentinel "mcpserver: identifier exceeds the maximum length"
def errIdentifierInvalid : Fault :=
  .sentinel "mcpserver: identifier contains a control character"
def errTooManyWatches : Fault :=
  .sentinel ("mcpserver: too many concurrent device watches on this " ++
    "server; retry shortly")

/-! ## Principals -/

def scopeAdmin : String := "ironclaw:admin"

/-- The caller of a tool. -/
structure Principal where
  userID : String
  scopes : List String
deriving DecidableEq

namespace Principal

def hasScope (principal : Principal) (name : String) : Bool :=
  principal.scopes.any (· == name)

/-- An administrator may access every user. -/
def mayAccess (principal : Principal) (userID : String) : Bool :=
  if principal.hasScope scopeAdmin then true
  else principal.userID != "" && principal.userID == userID

end Principal

/-- What a verified token says of its bearer. -/
structure TokenInfo where
  userID : String
  scopes : List String

/-- What is read of the context of a request. -/
structure Context where
  principal : Option Principal
  tokenInfo : Option TokenInfo
  err : Option Fault

def principalFrom (context : Context) : Option Principal :=
  match context.principal with
  | some principal => some principal
  | none =>
    match context.tokenInfo with
    | none => none
    | some info => some ⟨info.userID, info.scopes⟩

/-! ## Inputs and outputs -/

structure DeviceStateInput where
  userID : String
  deviceID : String

structure DeviceStateOutput where
  userID : String
  deviceID : String
  count : Int64
  errorCount : Int64
  bytes : Int64
  p95Nanos : Int64
  p99Nanos : Int64
  lastWindowID : Int64
  lastSeen : String
  stale : Bool
deriving DecidableEq

/-- The output of a watch that saw no update. -/
def DeviceStateOutput.zero : DeviceStateOutput where
  userID := ""
  deviceID := ""
  count := 0
  errorCount := 0
  bytes := 0
  p95Nanos := 0
  p99Nanos := 0
  lastWindowID := 0
  lastSeen := ""
  stale := false

structure UserDevicesInput where
  userID : String
  limit : Int64

structure UserDevicesOutput where
  userID : String
  devices : List String
  count : Nat
  truncated : Bool
  stale : Bool
deriving DecidableEq

structure PipelineMetricsOutput where
  metrics : Metrics

structure ResetCountersInput where
  userID : String
  deviceID : String
  actor : String

structure ResetCountersOutput where
  accepted : Bool
  command : String
deriving DecidableEq

structure WatchDeviceInput where
  userID : String
  deviceID : String
  timeoutSeconds : Int64

/-- The source gives `waitedFor` as a text; here it is in nanoseconds. -/
structure WatchDeviceOutput where
  userID : String
  deviceID : String
  updated : Bool
  timedOut : Bool
  waitedFor : Int64
  state : DeviceStateOutput
deriving DecidableEq

/-! ## Collaborators -/

/-- What ends the wait for an update: `none` is a closed channel. -/
inductive Wakeup where
  | cancelled (fault : Fault)
  | expired
  | received (state : Option DeviceState)

/-- A call on a collaborator. -/
inductive Invocation where
  | deviceState (userID deviceID : String)
  | userDevices (userID : String)
  | pipelineMetrics
  | publishCommand (command : Command)
  | watchDevice (userID deviceID : String)
deriving DecidableEq

abbrev DeviceStateReader :=
  Context → String → String → Except Fault DeviceState
abbrev UserDeviceLister := Context → String → Except Fault DeviceListing
abbrev MetricsReader := Context → Except Fault Metrics
abbrev CommandPublisher := Context → Command → Option Fault

/-- A subscription, and what ends the wait on it. -/
abbrev DeviceWatcher := Context → String → String → Except Fault Wakeup

def defaultWatchTimeout : Int64 := 30000000000
def maxWatchTimeout : Int64 := 300000000000
def defaultDeviceLimit : Int64 := 500
def maxDeviceLimit : Int64 := 5000
def maxIdentifierBytes : Nat := 256
def defaultMaxWatches : Int64 := 64

/--
The tools.  `now` is the reading of the clock when a request is served, and
`watching` the number of watches that hold one of the slots then.
-/
structure Tools where
  state : DeviceStateReader
  devices : Option UserDeviceLister
  metrics : Option MetricsReader
  commands : Option CommandPublisher
  watcher : Option DeviceWatcher
  now : Time
  requireAuth : Bool
  watchSlots : Int64
  watching : Nat

structure Options where
  state : Option DeviceStateReader
  devices : Option UserDeviceLister
  metrics : Option MetricsReader
  commands : Option CommandPublisher
  watcher : Option DeviceWatcher
  clock : Option Time
  requireAuth : Bool
  maxWatches : Int64

/-- `NewTools`, where the system clock reads `systemNow`. -/
def newTools (systemNow : Time) (options : Options) : Except Fault Tools :=
  match options.state with
  | none => .error errNilStateReader
  | some state =>
    .ok {
      state := state
      devices := options.devices
      metrics := options.metrics
      commands := options.commands
      watcher := options.watcher
      now := options.clock.getD systemNow
      requireAuth := options.requireAuth
      watchSlots :=
        if options.maxWatches ≤ 0 then defaultMaxWatches
        else options.maxWatches
      watching := 0 }

/-! ## Checks -/

/-- An identifier that may not be empty. -/
def required (value : String) (fault : Fault) : Option Fault :=
  if value = "" then some fault else none

def validateIdentifier (name value : String) : Option Fault :=
  if maxIdentifierBytes < value.utf8ByteSize then
    some (.detailed errIdentifierTooLong
      (name ++ " is " ++ toString value.utf8ByteSize ++
        " bytes, limit is " ++ toString maxIdentifierBytes))
  else if value.toList.any fun rune => rune.val < 0x20 || rune.val == 0x7f
  then some (.detailed errIdentifierInvalid name)
  else none

def translateReadError (fault : Fault) : Fault :=
  if fault.is errDeviceNotFound then errDeviceNotFound else fault

def stateOutput (state : DeviceState) : DeviceStateOutput where
  userID := state.userID
  deviceID := state.deviceID
  count := state.count
  errorCount := state.errorCount
  bytes := state.bytes
  p95Nanos := state.p95Nanos
  p99Nanos := state.p99Nanos
  lastWindowID := state.lastWindowID
  lastSeen := if state.lastSeen.isZero then ""
    else Calendar.format state.lastSeen.unixSeconds
  stale := state.stale

/-- The devices up to the limit, and if any are left. -/
def capDevices (devices : List String) (requested : Int64) :
    List String × Bool :=
  let limit := if requested ≤ 0 then defaultDeviceLimit else requested
  let limit := if maxDeviceLimit < limit then maxDeviceLimit else limit
  if (devices.length : Int) ≤ limit.toInt then (devices, false)
  else (devices.take limit.toInt.toNat, true)

namespace Tools

/-- Whether the caller may act for a user. -/
def authorise (tools : Tools) (context : Context) (userID : String) :
    Option Fault :=
  match principalFrom context with
  | none => if tools.requireAuth then some errUnauthenticated else none
  | some principal =>
    if !principal.mayAccess userID then
      some (.detailed errForbidden
        ("principal " ++ principal.userID.quote ++ " requested " ++
          userID.quote))
    else none

/-- The check of `PipelineMetrics`, which names no user. -/
def authoriseFleet (tools : Tools) (context : Context) : Option Fault :=
  match principalFrom context with
  | some principal =>
    if !principal.hasScope scopeAdmin then
      some (.detailed errForbidden ("fleet metrics require " ++ scopeAdmin))
    else none
  | none => if tools.requireAuth then some errUnauthenticated else none

/-- Who is recorded as the issuer of a command. -/
def actor (context : Context) (claimed : String) : String :=
  match principalFrom context with
  | none => claimed
  | some principal =>
    if principal.userID = "" then claimed
    else if principal.hasScope scopeAdmin ∧ claimed ≠ "" then claimed
    else principal.userID

/-! ## The tools -/

/-- The tool `get_device_state`. -/
def deviceState (tools : Tools) (context : Context)
    (input : DeviceStateInput) : Recorded Invocation DeviceStateOutput := do
  check (required input.userID errMissingUserID)
  check (required input.deviceID errMissingDevice)
  check (validateIdentifier "user_id" input.userID)
  check (validateIdentifier "device_id" input.deviceID)
  check (tools.authorise context input.userID)
  let state ← invoke (.deviceState input.userID input.deviceID)
    ((tools.state context input.userID input.deviceID).mapError
      translateReadError)
  return stateOutput state

def userDevices (tools : Tools) (context : Context)
    (input : UserDevicesInput) : Recorded Invocation UserDevicesOutput := do
  check (required input.userID errMissingUserID)
  check (validateIdentifier "user_id" input.userID)
  let devices ← configured tools.devices errNilDeviceLister
  check (tools.authorise context input.userID)
  let listing ← invoke (.userDevices input.userID)
    (devices context input.userID)
  return {
    userID := input.userID
    devices := (capDevices listing.devices input.limit).1
    count := (capDevices listing.devices input.limit).1.length
    truncated := (capDevices listing.devices input.limit).2
    stale := listing.stale }

def pipelineMetrics (tools : Tools) (context : Context) :
    Recorded Invocation PipelineMetricsOutput := do
  let metrics ← configured tools.metrics errNilMetricsReader
  check (tools.authoriseFleet context)
  let values ← invoke .pipelineMetrics (metrics context)
  return ⟨values⟩

/-- The command that a reset publishes. -/
def resetCommand (tools : Tools) (context : Context)
    (input : ResetCountersInput) : Command where
  kind := .resetCounters
  userID := input.userID
  deviceID := input.deviceID
  actor := actor context input.actor
  issuedAt := tools.now

/-- Publish a command that resets a device. -/
def resetCounters (tools : Tools) (context : Context)
    (input : ResetCountersInput) :
    Recorded Invocation ResetCountersOutput := do
  let publish ← configured tools.commands errWritesDisabled
  check (required input.userID errMissingUserID)
  check (required input.deviceID errMissingDevice)
  check (required input.actor errMissingActor)
  check (validateIdentifier "user_id" input.userID)
  check (validateIdentifier "device_id" input.deviceID)
  check (validateIdentifier "actor" input.actor)
  check (tools.authorise context input.userID)
  check (tools.resetCommand context input).validate
  let accepted ← invoke
    (.publishCommand (tools.resetCommand context input))
    (match publish context (tools.resetCommand context input) with
    | some fault => .error fault
    | none => .ok true)
  return ⟨accepted, (tools.resetCommand context input).kind.string⟩

/-- How long a watch waits: the product of a duration wraps. -/
def waitFor (timeoutSeconds : Int64) : Int64 :=
  let wait := timeoutSeconds * 1000000000
  let wait := if wait ≤ 0 then defaultWatchTimeout else wait
  if maxWatchTimeout < wait then maxWatchTimeout else wait

/-- What a watch answers when its wait ends. -/
def watchOutput (input : WatchDeviceInput) :
    Wakeup → Except Fault WatchDeviceOutput
  | .cancelled fault => .error fault
  | .expired =>
    .ok {
      userID := input.userID
      deviceID := input.deviceID
      updated := false
      timedOut := true
      waitedFor := waitFor input.timeoutSeconds
      state := .zero }
  | .received none => .error errWatchClosed
  | .received (some state) =>
    .ok {
      userID := input.userID
      deviceID := input.deviceID
      updated := true
      timedOut := false
      waitedFor := waitFor input.timeoutSeconds
      state := stateOutput state }

/-- Wait for the next update of a device. -/
def watchDevice (tools : Tools) (context : Context)
    (input : WatchDeviceInput) : Recorded Invocation WatchDeviceOutput := do
  check (required input.userID errMissingUserID)
  check (required input.deviceID errMissingDevice)
  let watch ← configured tools.watcher errNilDeviceWatcher
  check (validateIdentifier "user_id" input.userID)
  check (validateIdentifier "device_id" input.deviceID)
  check (tools.authorise context input.userID)
  check (if (tools.watching : Int) < tools.watchSlots.toInt then none
    else some errTooManyWatches)
  invoke (.watchDevice input.userID input.deviceID)
    ((watch context input.userID input.deviceID).bind (watchOutput input))

end Tools

/-! ## Requests -/

/-- A call of one of the tools. -/
inductive Request where
  | deviceState (input : DeviceStateInput)
  | userDevices (input : UserDevicesInput)
  | pipelineMetrics
  | resetCounters (input : ResetCountersInput)
  | watchDevice (input : WatchDeviceInput)

/-- The user a request names. -/
def Request.userID : Request → Option String
  | .deviceState input => some input.userID
  | .userDevices input => some input.userID
  | .pipelineMetrics => none
  | .resetCounters input => some input.userID
  | .watchDevice input => some input.userID

/-- What the tools answer. -/
inductive Response where
  | deviceState (output : DeviceStateOutput)
  | userDevices (output : UserDevicesOutput)
  | pipelineMetrics (output : PipelineMetricsOutput)
  | resetCounters (output : ResetCountersOutput)
  | watchDevice (output : WatchDeviceOutput)

/-- Serve a request with the tool it is for. -/
def Tools.serve (tools : Tools) (context : Context) :
    Request → Recorded Invocation Response
  | .deviceState input =>
    Response.deviceState <$> tools.deviceState context input
  | .userDevices input =>
    Response.userDevices <$> tools.userDevices context input
  | .pipelineMetrics =>
    Response.pipelineMetrics <$> tools.pipelineMetrics context
  | .resetCounters input =>
    Response.resetCounters <$> tools.resetCounters context input
  | .watchDevice input =>
    Response.watchDevice <$> tools.watchDevice context input

/-! ## What the checks establish -/

namespace Tools

variable {tools : Tools} {context : Context} {principal : Principal}

theorem user_of_authorise
    (authenticated : principalFrom context = some principal)
    (ordinary : principal.hasScope scopeAdmin = false)
    {userID : String} (passes : tools.authorise context userID = none) :
    principal.userID ≠ "" ∧ userID = principal.userID := by
  simp only [authorise, authenticated, Principal.mayAccess, ordinary] at passes
  by_cases own : principal.userID ≠ "" ∧ principal.userID = userID
  · exact ⟨own.1, own.2.symm⟩
  · simp [own] at passes

/-- The check of the principal that a request has to pass. -/
def admits (tools : Tools) (context : Context) (request : Request) : Prop :=
  match request.userID with
  | some userID => tools.authorise context userID = none
  | none => tools.authoriseFleet context = none

/-- The call that a request leads to. -/
def invocation (tools : Tools) (context : Context) : Request → Invocation
  | .deviceState input => .deviceState input.userID input.deviceID
  | .userDevices input => .userDevices input.userID
  | .pipelineMetrics => .pipelineMetrics
  | .resetCounters input =>
    .publishCommand (tools.resetCommand context input)
  | .watchDevice input => .watchDevice input.userID input.deviceID

/-- Every tool makes one call at most, after the check of the principal. -/
theorem serve_guards (tools : Tools) (context : Context) (request : Request) :
    Guards (tools.admits context request) (tools.invocation context request)
      (tools.serve context request) := by
  cases request with
  | deviceState input =>
    apply Guards.map
    refine guards_check fun _ => guards_check fun _ => guards_check fun _ =>
      guards_check fun _ => guards_check fun passes => ?_
    exact Guards.map (guards_invoke passes _) _
  | userDevices input =>
    apply Guards.map
    refine guards_check fun _ => guards_check fun _ =>
      guards_configured fun _ => guards_check fun passes => ?_
    exact Guards.map (guards_invoke passes _) _
  | pipelineMetrics =>
    apply Guards.map
    refine guards_configured fun _ => guards_check fun passes => ?_
    exact Guards.map (guards_invoke passes _) _
  | resetCounters input =>
    apply Guards.map
    refine guards_configured fun _ => guards_check fun _ =>
      guards_check fun _ => guards_check fun _ => guards_check fun _ =>
      guards_check fun _ => guards_check fun _ => guards_check fun passes =>
      guards_check fun _ => ?_
    exact Guards.map (guards_invoke passes _) _
  | watchDevice input =>
    apply Guards.map
    refine guards_check fun _ => guards_check fun _ =>
      guards_configured fun _ => guards_check fun _ => guards_check fun _ =>
      guards_check fun passes => guards_check fun _ => ?_
    exact guards_invoke passes _

end Tools

end Ironclaw.MCPServer
