import Ironclaw.Lib.Calendar
import Ironclaw.RedisStore.Lock
import Ironclaw.Store.Memory

/-!
# The Redis hot store

The state of a device is a hash, the identities applied to it a sorted set
with the times of their application, and the devices of a user are a set.
`ApplyWindow` and `ResetDevice` run one script each.

A script reads and writes the fields of the hash as texts.  What it does to
them is said once, by a function on the numbers that the fields show.
-/

namespace Ironclaw.RedisStore

open Lib Lib.Redis Domain Store

def errDeviceNotFound : Fault :=
  .wrapped "redisstore" Domain.errDeviceNotFound

/--
What a store is made with.  The time to live is in seconds, as the source
passes it: `int64(dedupeTTL.Seconds())` for a positive duration.
-/
structure Settings where
  space : String
  ttl : Nat
  ttl_le : ttl ≤ 9223372037

def dedupeSchemaVersion : String := "v2"

section Keys

variable (settings : Settings) (userID deviceID : String)

def stateKey : String :=
  settings.space ++ ":\x7b" ++ userID ++ "\x7d:device:" ++ deviceID ++
    ":state"

def dedupeKey : String :=
  settings.space ++ ":\x7b" ++ userID ++ "\x7d:device:" ++ deviceID ++
    ":applied:" ++ dedupeSchemaVersion

def devicesKey : String :=
  settings.space ++ ":\x7b" ++ userID ++ "\x7d:devices"

def updatesChannel : String :=
  settings.space ++ ":\x7b" ++ userID ++ "\x7d:device:" ++ deviceID ++
    ":updates"

end Keys

/-! ## The scripts -/

/-- The keys of the apply script, in their order. -/
structure ScriptKeys where
  state : String
  dedupe : String
  devices : String
  updates : String

/-- The arguments of the apply script, in their order. -/
structure Argv where
  identity : String
  deviceID : String
  count : Int
  errorCount : Int
  bytes : Int
  p95Nanos : Int
  p99Nanos : Int
  windowID : Int
  lastSeen : String
  ttl : Int
  userID : String
  now : Int

section Scripts

variable (keys : ScriptKeys) (argv : Argv)

/-- The identity is kept until its score is a time to live old. -/
def remember : Script Unit := do
  zadd keys.dedupe (toNumber argv.now) argv.identity
  zremrangebyscore keys.dedupe
    (toNumber (toNumber argv.now - toNumber argv.ttl))
  expire keys.dedupe argv.ttl

def addCounters : Script Unit := do
  hsetnx keys.state "user_id" argv.userID
  hsetnx keys.state "device_id" argv.deviceID
  let _ ← hincrby keys.state "count" argv.count
  let _ ← hincrby keys.state "error_count" argv.errorCount
  let _ ← hincrby keys.state "bytes" argv.bytes

def setLastSeen : Script Unit :=
  if argv.lastSeen ≠ "" then
    hset keys.state [("last_seen", argv.lastSeen)]
  else pure ()

/-- The fields of a sample of percentiles. -/
def sampleFields : List (String × String) :=
  [("p95_nanos", numberText argv.p95Nanos),
    ("p99_nanos", numberText argv.p99Nanos),
    ("percentile_sample", numberText argv.count)]

def takePercentiles : Script Unit := do
  let stored ← hget keys.state "last_window_id"
  let current ← tonumber (stored.getD "-1")
  if current < toNumber argv.windowID then
    hset keys.state
      (("last_window_id", numberText argv.windowID) :: sampleFields argv)
    setLastSeen keys argv
  else if toNumber argv.windowID = current then
    let stored ← hget keys.state "percentile_sample"
    let sample ← tonumber (stored.getD "0")
    if sample < toNumber argv.count then
      hset keys.state (sampleFields argv)
    setLastSeen keys argv

/-- Count an emission that is not remembered. -/
def applyWindowScript : Script Int := do
  let score ← zscore keys.dedupe argv.identity
  if score.isSome then
    return 0
  remember keys argv
  sadd keys.devices argv.deviceID
  addCounters keys argv
  takePercentiles keys argv
  spublish keys.updates (numberText argv.windowID)
  return 1

/-- Zero the counters of a device that exists. -/
def resetDeviceScript (state updates : String) : Script Int := do
  if !(← keyExists state) then
    return 0
  hset state
    [("count", "0"), ("error_count", "0"), ("bytes", "0"),
      ("p95_nanos", "0"), ("p99_nanos", "0"), ("percentile_sample", "0")]
  spublish updates "reset"
  return 1

end Scripts

/-! ## The store -/

/-- The server, and the counters of the recorder. -/
structure Backend where
  server : Server
  metrics : Metrics

namespace Backend

variable (settings : Settings)

def new : Backend := ⟨Server.empty, ∅⟩

def increment (backend : Backend) (name : String) (delta : Int64) :
    Backend :=
  { backend with metrics := backend.metrics.increment name delta }

def scriptKeys (userID deviceID : String) : ScriptKeys where
  state := stateKey settings userID deviceID
  dedupe := dedupeKey settings userID deviceID
  devices := devicesKey settings userID
  updates := updatesChannel settings userID deviceID

/-- The text of the end of a window, empty for the zero time. -/
def lastSeenText (windowEnd : Time) : String :=
  if windowEnd.isZero then "" else Calendar.format windowEnd.unixSeconds

def argvOf (now : Time) (window : AggregateWindow) : Argv where
  identity := window.identity
  deviceID := window.key.deviceID
  count := window.count.toInt
  errorCount := window.errorCount.toInt
  bytes := window.bytes.toInt
  p95Nanos := window.p95Nanos.toInt
  p99Nanos := window.p99Nanos.toInt
  windowID := window.windowID.toInt
  lastSeen := lastSeenText window.windowEnd
  ttl := settings.ttl
  userID := window.key.userID
  now := now.unixSeconds

def applyWindow (now : Time) (window : AggregateWindow)
    (backend : Backend) : Backend × Option Fault :=
  match (applyWindowScript
      (scriptKeys settings window.key.userID window.key.deviceID)
      (argvOf settings now window)).run now.nanos backend.server with
  | (server, .error failure) =>
    ({ backend with server := server },
      some (.wrapped ("redisstore: applying window " ++ window.identity)
        (scriptFault failure)))
  | (server, .ok applied) =>
    let backend := { backend with server := server }
    if applied = 0 then
      (backend.increment metricWindowsDuplicate 1, none)
    else
      (((backend.increment metricWindowsApplied 1).increment
        metricEventsCounted window.count).increment
          metricErrorsCounted window.errorCount, none)

def resetDevice (now : Time) (userID deviceID : String)
    (backend : Backend) : Backend × Option Fault :=
  match (resetDeviceScript (stateKey settings userID deviceID)
      (updatesChannel settings userID deviceID)).run now.nanos
        backend.server with
  | (server, .error failure) =>
    ({ backend with server := server },
      some (.wrapped "redisstore: resetting device" (scriptFault failure)))
  | (server, .ok reset) =>
    let backend := { backend with server := server }
    if reset = 0 then (backend, some errDeviceNotFound)
    else (backend.increment metricDeviceResets 1, none)

/-- The integer of a field; a field that is absent or unreadable is 0. -/
def parseInt (value : Option String) : Int64 :=
  match readInt (value.getD "") with
  | none => 0
  | some number => if inRange number then Int64.ofInt number else 0

/-- The time of a field; a field that is absent or unreadable is zero. -/
def parseTime (value : Option String) : Time :=
  match Calendar.parse (value.getD "") with
  | none => Time.zero
  | some seconds => ⟨1000000000 * seconds⟩

def stateOf (userID deviceID : String) (fields : GoMap String String) :
    DeviceState where
  userID := userID
  deviceID := deviceID
  count := parseInt (fields.lookup "count")
  errorCount := parseInt (fields.lookup "error_count")
  bytes := parseInt (fields.lookup "bytes")
  p95Nanos := parseInt (fields.lookup "p95_nanos")
  p99Nanos := parseInt (fields.lookup "p99_nanos")
  lastWindowID := parseInt (fields.lookup "last_window_id")
  lastSeen := parseTime (fields.lookup "last_seen")
  stale := false

def deviceState (now : Time) (userID deviceID : String)
    (backend : Backend) : Except Fault DeviceState :=
  match backend.server.hashOf now.nanos
      (stateKey settings userID deviceID) with
  | none =>
    .error (.wrapped "redisstore: reading device state"
      (scriptFault .wrongType))
  | some fields =>
    if fields.size = 0 then .error errDeviceNotFound
    else .ok (stateOf userID deviceID fields)

def userDevices (now : Time) (userID : String) (backend : Backend) :
    Except Fault DeviceListing :=
  match backend.server.membersOf now.nanos (devicesKey settings userID) with
  | none =>
    .error (.wrapped "redisstore: listing devices" (scriptFault .wrongType))
  | some devices => .ok (.ascending devices)

/-! ## Calls whose script succeeds -/

variable {settings : Settings} {now : Time} {backend : Backend}
variable {server : Server} {reply : Int}

theorem applyWindow_of_run {window : AggregateWindow}
    (ran : (applyWindowScript
        (scriptKeys settings window.key.userID window.key.deviceID)
        (argvOf settings now window)).run now.nanos backend.server =
      (server, .ok reply)) :
    (backend.applyWindow settings now window).2 = none ∧
      (backend.applyWindow settings now window).1.server = server := by
  rw [applyWindow, ran]
  simp only
  split
  · exact ⟨rfl, rfl⟩
  · exact ⟨rfl, rfl⟩

theorem resetDevice_of_run {userID deviceID : String}
    (ran : (resetDeviceScript (stateKey settings userID deviceID)
        (updatesChannel settings userID deviceID)).run now.nanos
          backend.server = (server, .ok reply)) :
    (backend.resetDevice settings now userID deviceID).2 =
        (if reply = 0 then some errDeviceNotFound else none) ∧
      (backend.resetDevice settings now userID deviceID).1.server =
        server := by
  rw [resetDevice, ran]
  simp only
  split
  · exact ⟨rfl, rfl⟩
  · exact ⟨rfl, rfl⟩

end Backend

end Ironclaw.RedisStore
