import Ironclaw.Domain.Tally

/-!
# The in-memory hot store

`ApplyWindow` merges an emission into the record of its device unless its
identity was applied before; `ResetDevice` clears the counters and keeps the
identities.  Every change is offered to the subscribers of the device, whose
channels hold a bounded number of updates.

The lock of the source is held over each of these calls, so a call is one
function on the store.
-/

namespace Ironclaw.Store

open Lib Domain AList String Metrics

def errDeviceNotFound : Fault :=
  .wrapped "store" Domain.errDeviceNotFound

def metricWindowsApplied : String := "windows_applied"
def metricWindowsDuplicate : String := "windows_duplicate"
def metricEventsCounted : String := "events_counted"
def metricErrorsCounted : String := "errors_counted"
def metricDeviceResets : String := "device_resets"
def metricWatchDropped : String := "watch_updates_dropped"

/-- The number of updates a subscriber's channel holds. -/
def watchBuffer : Nat := 8

/-! ## Records -/

/-- A device, with the emissions it counted. -/
structure DeviceRecord where
  state : DeviceState
  applied : Finset String
  percentileSample : Int64

namespace DeviceRecord

def fresh (userID deviceID : String) : DeviceRecord where
  state := {
    userID := userID
    deviceID := deviceID
    count := 0
    errorCount := 0
    bytes := 0
    p95Nanos := 0
    p99Nanos := 0
    lastWindowID := 0
    lastSeen := Time.zero
    stale := false }
  applied := ∅
  percentileSample := 0

/-- The counters and the identity of an emission, merged into a record. -/
def add (record : DeviceRecord) (window : AggregateWindow) : DeviceRecord :=
  { record with
    applied := insert window.identity record.applied
    state := { record.state with
      count := record.state.count + window.count
      errorCount := record.state.errorCount + window.errorCount
      bytes := record.state.bytes + window.bytes } }

/-- The percentiles of an emission, with the size of their sample. -/
def sample (record : DeviceRecord) (window : AggregateWindow) :
    DeviceRecord :=
  { record with
    percentileSample := window.count
    state := { record.state with
      p95Nanos := window.p95Nanos
      p99Nanos := window.p99Nanos } }

/-- The effect of an emission that was not applied before. -/
def merge (record : DeviceRecord) (window : AggregateWindow) :
    DeviceRecord :=
  let record := record.add window
  if record.state.lastWindowID < window.windowID then
    let record := record.sample window
    { record with
      state := { record.state with
        lastWindowID := window.windowID
        lastSeen := window.windowEnd } }
  else if window.windowID = record.state.lastWindowID then
    let record :=
      if record.percentileSample < window.count then record.sample window
      else record
    if window.windowEnd.after record.state.lastSeen then
      { record with
        state := { record.state with lastSeen := window.windowEnd } }
    else record
  else record

/-- An emission as it arrives: identities already applied change nothing. -/
def receive (record : DeviceRecord) (window : AggregateWindow) :
    DeviceRecord :=
  if window.identity ∈ record.applied then record else record.merge window

def reset (record : DeviceRecord) : DeviceRecord :=
  { record with
    percentileSample := 0
    state := { record.state with
      count := 0
      errorCount := 0
      bytes := 0
      p95Nanos := 0
      p99Nanos := 0 } }

end DeviceRecord

/-- The part of a state that no emission changes. -/
def DeviceRecord.label (record : DeviceRecord) : String × String × Bool :=
  (record.state.userID, record.state.deviceID, record.state.stale)

theorem label_merge (record : DeviceRecord) (window : AggregateWindow) :
    (record.merge window).label = record.label := by
  simp only [DeviceRecord.merge]
  split
  · rfl
  · split
    · split
      · split <;> rfl
      · split <;> rfl
    · rfl

/-! ## The store -/

/-- A subscriber: the updates buffered in its channel. -/
structure Watcher where
  updates : List DeviceState
  closed : Bool
deriving DecidableEq

/--
The maps of the store.  Subscribers are shared references in the source: here
`watchers` lists indices into `subscribers`.  `panicked` records a send on a
closed channel.
-/
structure Memory where
  devices : GoMap String DeviceRecord
  byUser : GoMap String (Finset String)
  metrics : Metrics
  watchers : GoMap String (List Nat)
  subscribers : List Watcher
  panicked : Bool

def deviceKey (userID deviceID : String) : String :=
  "\x7b" ++ userID ++ "\x7d:" ++ deviceID

/-- A user whose keys cannot be read in another way. -/
def Plain (userID : String) : Prop := '\x7d' ∉ userID.toList

instance (userID : String) : Decidable (Plain userID) :=
  inferInstanceAs (Decidable ('\x7d' ∉ userID.toList))

theorem toList_deviceKey (userID deviceID : String) :
    (deviceKey userID deviceID).toList = '\x7b' :: (userID.toList ++
        '\x7d' :: (':' :: deviceID.toList)) := by
  simp [deviceKey, toList_append]

theorem deviceKey_injective {userID deviceID otherUser otherDevice : String}
    (plain : Plain userID) (otherPlain : Plain otherUser)
    (equal : deviceKey userID deviceID = deviceKey otherUser otherDevice) :
    userID = otherUser ∧ deviceID = otherDevice := by
  have texts := congrArg toList equal
  rw [toList_deviceKey, toList_deviceKey] at texts
  have parts := Text.split_at_first plain otherPlain (List.cons.inj texts).2
  exact ⟨toList_inj.mp parts.1, toList_inj.mp (List.cons.inj parts.2).2⟩

/-- The key of the device an emission belongs to. -/
def keyOf (window : AggregateWindow) : String :=
  deviceKey window.key.userID window.key.deviceID

namespace Memory

variable {memory : Memory}

def new : Memory where
  devices := ∅
  byUser := ∅
  metrics := ∅
  watchers := ∅
  subscribers := []
  panicked := false

def increment (memory : Memory) (name : String) (delta : Int64) : Memory :=
  { memory with metrics := memory.metrics.increment name delta }

/-- Offer a state to one subscriber after the other, until one panics. -/
def notifyEach (state : DeviceState) : List Nat → Memory → Memory
  | [], memory => memory
  | subscriber :: rest, memory =>
    match memory.subscribers[subscriber]? with
    | none => notifyEach state rest memory
    | some watcher =>
      if watcher.closed then { memory with panicked := true }
      else if watcher.updates.length < watchBuffer then
        notifyEach state rest { memory with
          subscribers := memory.subscribers.set subscriber
            { watcher with updates := watcher.updates ++ [state] } }
      else
        notifyEach state rest (memory.increment metricWatchDropped 1)

/-- Offer a state to the watchers of a device. -/
def notify (key : String) (state : DeviceState) (memory : Memory) : Memory :=
  memory.notifyEach state ((memory.watchers.lookup key).getD [])

/-- The record of a device, created and indexed on first use. -/
def recordFor (window : AggregateWindow) (memory : Memory) :
    Memory × DeviceRecord :=
  match memory.devices.lookup (keyOf window) with
  | some record => (memory, record)
  | none =>
    let record := DeviceRecord.fresh window.key.userID window.key.deviceID
    let listed := (memory.byUser.lookup window.key.userID).getD ∅
    ({ memory with
        devices := memory.devices.insert (keyOf window) record
        byUser := memory.byUser.insert window.key.userID
          (insert window.key.deviceID listed) },
      record)

/-- Count an emission that was not counted before. -/
def applyWindow
    (context : Option Fault) (window : AggregateWindow) (memory : Memory) :
    Memory × Option Fault :=
  match context with
  | some fault => (memory, some fault)
  | none =>
    let (memory, record) := memory.recordFor window
    if window.identity ∈ record.applied then
      (memory.increment metricWindowsDuplicate 1, none)
    else
      let record := record.merge window
      let memory := { memory with
        devices := memory.devices.insert (keyOf window) record
        metrics := ((memory.metrics.increment metricWindowsApplied 1).increment
          metricEventsCounted window.count).increment
            metricErrorsCounted window.errorCount }
      (memory.notify (keyOf window) record.state, none)

/-- Zero the counters; what was applied stays known. -/
def resetDevice
    (context : Option Fault) (userID deviceID : String) (memory : Memory) :
    Memory × Option Fault :=
  match context with
  | some fault => (memory, some fault)
  | none =>
    match memory.devices.lookup (deviceKey userID deviceID) with
    | none => (memory, some errDeviceNotFound)
    | some record =>
      let record := record.reset
      let memory := { memory with
        devices := memory.devices.insert
          (deviceKey userID deviceID) record
        metrics := memory.metrics.increment metricDeviceResets 1 }
      (memory.notify (deviceKey userID deviceID) record.state, none)

def deviceState
    (context : Option Fault) (userID deviceID : String) (memory : Memory) :
    Except Fault DeviceState :=
  match context with
  | some fault => .error fault
  | none =>
    match memory.devices.lookup (deviceKey userID deviceID) with
    | none => .error errDeviceNotFound
    | some record => .ok record.state

/-- The devices of a user, in ascending order. -/
def userDevices
    (context : Option Fault) (userID : String) (memory : Memory) :
    Except Fault DeviceListing :=
  match context with
  | some fault => .error fault
  | none =>
    .ok (.ascending ((memory.byUser.lookup userID).getD ∅))

def pipelineMetrics (context : Option Fault) (memory : Memory) :
    Except Fault Metrics :=
  match context with
  | some fault => .error fault
  | none => .ok memory.metrics

/-! ## What each call changes -/

/-- Offering a state changes no record and no listing. -/
theorem maps_notifyEach
    (state : DeviceState) (subscribers : List Nat) (memory : Memory) :
    (memory.notifyEach state subscribers).devices = memory.devices ∧
      (memory.notifyEach state subscribers).byUser = memory.byUser := by
  induction subscribers generalizing memory with
  | nil => exact ⟨rfl, rfl⟩
  | cons subscriber rest induction =>
    simp only [notifyEach]
    split
    · exact induction memory
    · split
      · exact ⟨rfl, rfl⟩
      · split
        · exact induction _
        · exact induction _

@[simp]
theorem devices_notify
    (key : String) (state : DeviceState) (memory : Memory) :
    (memory.notify key state).devices = memory.devices :=
  (maps_notifyEach state _ memory).1

@[simp]
theorem byUser_notify (key : String) (state : DeviceState) (memory : Memory) :
    (memory.notify key state).byUser = memory.byUser :=
  (maps_notifyEach state _ memory).2

theorem value_notify (key : String) (state : DeviceState) (memory : Memory)
    {name : String} (different : name ≠ metricWatchDropped) :
    (memory.notify key state).metrics.value name =
      memory.metrics.value name := by
  rw [notify]
  generalize (memory.watchers.lookup key).getD [] = subscribers
  induction subscribers generalizing memory with
  | nil => rfl
  | cons subscriber rest induction =>
    simp only [notifyEach]
    split
    · exact induction memory
    · split
      · rfl
      · split
        · exact induction _
        · rw [induction]
          exact value_increment_of_ne _ _ different

theorem recordFor_snd (window : AggregateWindow) (memory : Memory) :
    (memory.recordFor window).2 = (memory.devices.lookup (keyOf window)).getD
        (DeviceRecord.fresh window.key.userID window.key.deviceID) := by
  rw [recordFor]
  split
  · rename_i record found
    rw [found]
    rfl
  · rename_i absent
    rw [absent]
    rfl

theorem metrics_recordFor (window : AggregateWindow) (memory : Memory) :
    (memory.recordFor window).1.metrics = memory.metrics := by
  rw [recordFor]
  split <;> rfl

theorem devices_recordFor_self (window : AggregateWindow) (memory : Memory) :
    (memory.recordFor window).1.devices.lookup (keyOf window) =
      some (memory.recordFor window).2 := by
  rw [recordFor]
  split
  · assumption
  · exact lookup_insert _

theorem devices_recordFor_of_ne {window : AggregateWindow} {key : String}
    (different : key ≠ keyOf window) :
    (memory.recordFor window).1.devices.lookup key =
      memory.devices.lookup key := by
  rw [recordFor]
  split
  · rfl
  · exact lookup_insert_ne different

theorem devices_applyWindow_self
    (window : AggregateWindow) (memory : Memory) :
    (memory.applyWindow none window).1.devices.lookup (keyOf window) =
      some (((memory.devices.lookup (keyOf window)).getD
        (DeviceRecord.fresh window.key.userID
          window.key.deviceID)).receive window) := by
  rw [← recordFor_snd, DeviceRecord.receive, applyWindow]
  simp only
  split
  · exact devices_recordFor_self window memory
  · rw [devices_notify]
    exact lookup_insert _

theorem devices_applyWindow_of_ne {window : AggregateWindow} {key : String}
    (different : key ≠ keyOf window) :
    (memory.applyWindow none window).1.devices.lookup key =
      memory.devices.lookup key := by
  rw [applyWindow]
  simp only
  split
  · exact devices_recordFor_of_ne different
  · rw [devices_notify, lookup_insert_ne different]
    exact devices_recordFor_of_ne different

/-- A reset changes the record of its device, if there is one. -/
theorem devices_resetDevice_self
    (userID deviceID : String) (memory : Memory) :
    (memory.resetDevice none userID deviceID).1.devices.lookup
        (deviceKey userID deviceID) =
      (memory.devices.lookup (deviceKey userID deviceID)).map
        DeviceRecord.reset := by
  rw [resetDevice]
  simp only
  split
  · rename_i absent
    rw [absent]
    rfl
  · rename_i record found
    rw [devices_notify, lookup_insert, found]
    rfl

theorem devices_resetDevice_of_ne {userID deviceID key : String}
    (different : key ≠ deviceKey userID deviceID) :
    (memory.resetDevice none userID deviceID).1.devices.lookup key =
      memory.devices.lookup key := by
  rw [resetDevice]
  simp only
  split
  · rfl
  · rw [devices_notify]
    exact lookup_insert_ne different

/-! ### The listings -/

/-- The devices listed for a user. -/
def listed (userID : String) (memory : Memory) : Finset String :=
  (memory.byUser.lookup userID).getD ∅

/-- An emission lists its device when it creates the record. -/
theorem listed_applyWindow
    (userID : String) (window : AggregateWindow) (memory : Memory) :
    (memory.applyWindow none window).1.listed userID =
      if window.key.userID = userID ∧
          memory.devices.lookup (keyOf window) = none then
        insert window.key.deviceID (memory.listed userID)
      else memory.listed userID := by
  have kept : (memory.applyWindow none window).1.byUser =
      (memory.recordFor window).1.byUser := by
    rw [applyWindow]
    simp only
    split
    · rfl
    · rw [byUser_notify]
  rw [listed, kept, recordFor]
  cases found : memory.devices.lookup (keyOf window) with
  | some record =>
    rw [if_neg fun created => Option.some_ne_none _ created.2]
    rfl
  | none =>
    by_cases same : window.key.userID = userID
    · rw [if_pos ⟨same, rfl⟩, ← same]
      simp only [lookup_insert]
      rfl
    · rw [if_neg fun created => same created.1]
      simp only [lookup_insert_ne (Ne.symm same)]
      rfl

theorem listed_resetDevice
    (userID otherUser deviceID : String) (memory : Memory) :
    (memory.resetDevice none otherUser deviceID).1.listed userID =
      memory.listed userID := by
  rw [listed, resetDevice]
  simp only
  split
  · rfl
  · rw [byUser_notify]
    rfl

/-- Windows that reached the store, applied or recognised. -/
def windowsReceived (memory : Memory) : Int64 :=
  memory.metrics.value metricWindowsApplied +
    memory.metrics.value metricWindowsDuplicate

theorem windowsReceived_applyWindow
    (window : AggregateWindow) (memory : Memory) :
    (memory.applyWindow none window).1.windowsReceived =
      memory.windowsReceived + 1 := by
  rw [applyWindow]
  simp only
  split
  · simp only [windowsReceived, increment, metrics_recordFor,
      value_increment_self]
    rw [value_increment_of_ne _ _ (by decide), add_assoc]
  · simp only [windowsReceived]
    rw [value_notify _ _ _ (by decide), value_notify _ _ _ (by decide)]
    simp only [metrics_recordFor]
    rw [value_increment_of_ne _ _ (by decide),
      value_increment_of_ne _ _ (by decide),
      value_increment_self,
      value_increment_of_ne _ _ (by decide),
      value_increment_of_ne _ _ (by decide),
      value_increment_of_ne _ _ (by decide), add_right_comm]

theorem windowsReceived_resetDevice
    (userID deviceID : String) (memory : Memory) :
    (memory.resetDevice none userID deviceID).1.windowsReceived =
      memory.windowsReceived := by
  rw [resetDevice]
  simp only
  split
  · rfl
  · simp only [windowsReceived]
    rw [value_notify _ _ _ (by decide), value_notify _ _ _ (by decide),
      value_increment_of_ne _ _ (by decide),
      value_increment_of_ne _ _ (by decide)]

end Memory

end Ironclaw.Store
