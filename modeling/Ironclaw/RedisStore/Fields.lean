import Ironclaw.RedisStore.Store

/-!
# What the scripts do to a device

The fields of a device's hash are texts of integers.  A script that succeeds
changes the integers as the functions below say, moves the identity into the
sorted set, lists the device, publishes one message, and touches nothing else.
-/

namespace Ironclaw.RedisStore

open Lib Lib.Redis Domain Store AList Script Server String

/-! ## Keys of one device -/

section Keys

variable (settings : Settings) (userID deviceID : String)

/-- What the keys of a user begin with. -/
def userSpace : List Char :=
  settings.space.toList ++ ':' :: '\x7b' ::
    (userID.toList ++ ['\x7d', ':', 'd', 'e', 'v', 'i', 'c', 'e'])

theorem toList_stateKey : (stateKey settings userID deviceID).toList =
      userSpace settings userID ++
        ':' :: (deviceID.toList ++ [':', 's', 't', 'a', 't', 'e']) := by
  simp [stateKey, userSpace, toList_append]

theorem toList_dedupeKey : (dedupeKey settings userID deviceID).toList =
      userSpace settings userID ++
        ':' :: (deviceID.toList ++ [':', 'a', 'p', 'p', 'l', 'i', 'e', 'd',
          ':', 'v', '2']) := by
  simp [dedupeKey, dedupeSchemaVersion, userSpace, toList_append]

theorem toList_devicesKey : (devicesKey settings userID).toList =
      userSpace settings userID ++ ['s'] := by
  simp [devicesKey, userSpace, toList_append]

end Keys

section Distinct

variable {settings : Settings} {userID otherUser : String}
variable {deviceID otherDevice : String}

section Plain

variable (plain : Plain userID) (otherPlain : Plain otherUser)
include plain otherPlain

theorem userSpace_append {rest otherRest : List Char}
    (equal : userSpace settings userID ++ rest =
      userSpace settings otherUser ++ otherRest) :
    userID = otherUser ∧ rest = otherRest := by
  simp only [userSpace, List.append_assoc, List.cons_append,
    List.nil_append] at equal
  have inner := List.append_cancel_left equal
  simp only [List.cons.injEq, true_and] at inner
  have parts := Text.split_at_first plain otherPlain inner
  refine ⟨toList_inj.mp parts.1, ?_⟩
  simpa using parts.2

theorem stateKey_injective
    (equal : stateKey settings userID deviceID =
      stateKey settings otherUser otherDevice) :
    userID = otherUser ∧ deviceID = otherDevice := by
  have texts := congrArg toList equal
  rw [toList_stateKey, toList_stateKey] at texts
  have parts := userSpace_append plain otherPlain texts
  have devices := List.append_cancel_right (List.cons.inj parts.2).2
  exact ⟨parts.1, toList_inj.mp devices⟩

theorem dedupeKey_injective
    (equal : dedupeKey settings userID deviceID =
      dedupeKey settings otherUser otherDevice) :
    userID = otherUser ∧ deviceID = otherDevice := by
  have texts := congrArg toList equal
  rw [toList_dedupeKey, toList_dedupeKey] at texts
  have parts := userSpace_append plain otherPlain texts
  have devices := List.append_cancel_right (List.cons.inj parts.2).2
  exact ⟨parts.1, toList_inj.mp devices⟩

theorem devicesKey_injective
    (equal : devicesKey settings userID = devicesKey settings otherUser) :
    userID = otherUser := by
  have texts := congrArg toList equal
  rw [toList_devicesKey, toList_devicesKey] at texts
  exact (userSpace_append plain otherPlain texts).1

end Plain

theorem stateKey_ne_dedupeKey : stateKey settings userID deviceID ≠
      dedupeKey settings otherUser otherDevice := by
  intro equal
  have last := congrArg (fun text => text.toList.getLast?) equal
  rw [toList_stateKey, toList_dedupeKey] at last
  simp [List.getLast?_append, List.getLast?_cons] at last

theorem stateKey_ne_devicesKey :
    stateKey settings userID deviceID ≠ devicesKey settings otherUser := by
  intro equal
  have last := congrArg (fun text => text.toList.getLast?) equal
  rw [toList_stateKey, toList_devicesKey] at last
  simp [List.getLast?_append, List.getLast?_cons] at last

theorem dedupeKey_ne_devicesKey :
    dedupeKey settings userID deviceID ≠ devicesKey settings otherUser := by
  intro equal
  have last := congrArg (fun text => text.toList.getLast?) equal
  rw [toList_dedupeKey, toList_devicesKey] at last
  simp [List.getLast?_append, List.getLast?_cons] at last

end Distinct

/-! ## The numbers of a hash -/

/-- What the fields of a device show, where they are present. -/
structure Row where
  userID : Option String
  deviceID : Option String
  count : Option Int
  errorCount : Option Int
  bytes : Option Int
  p95Nanos : Option Int
  p99Nanos : Option Int
  lastWindowID : Option Int
  percentileSample : Option Int
  lastSeen : Option String

namespace Row

def empty : Row :=
  ⟨none, none, none, none, none, none, none, none, none, none⟩

/-- The names of the device, written once. -/
def name (argv : Argv) (row : Row) : Row :=
  { row with
    userID := some (row.userID.getD argv.userID)
    deviceID := some (row.deviceID.getD argv.deviceID) }

def addCount (argv : Argv) (row : Row) : Row :=
  { row with count := some (row.count.getD 0 + argv.count) }

def addErrors (argv : Argv) (row : Row) : Row :=
  { row with
    errorCount := some (row.errorCount.getD 0 + argv.errorCount) }

def addBytes (argv : Argv) (row : Row) : Row :=
  { row with bytes := some (row.bytes.getD 0 + argv.bytes) }

/-- The counters of an emission, added. -/
def add (argv : Argv) (row : Row) : Row :=
  (((row.name argv).addCount argv).addErrors argv).addBytes argv

/-- The counters until one of them leaves 64 bits, and whether none does. -/
def tally (argv : Argv) (row : Row) : Row × Bool :=
  let named := row.name argv
  if inRange (row.count.getD 0 + argv.count) then
    let counted := named.addCount argv
    if inRange (row.errorCount.getD 0 + argv.errorCount) then
      let charged := counted.addErrors argv
      if inRange (row.bytes.getD 0 + argv.bytes) then
        (charged.addBytes argv, true)
      else (charged, false)
    else (counted, false)
  else (named, false)

def sample (argv : Argv) (row : Row) : Row :=
  { row with
    p95Nanos := some argv.p95Nanos
    p99Nanos := some argv.p99Nanos
    percentileSample := some argv.count }

def see (argv : Argv) (row : Row) : Row :=
  if argv.lastSeen ≠ "" then { row with lastSeen := some argv.lastSeen }
  else row

/-- The percentiles and the last window after an emission. -/
def rank (argv : Argv) (row : Row) : Row :=
  let current := toNumber (row.lastWindowID.getD (-1))
  if current < toNumber argv.windowID then
    ({ row with lastWindowID := some argv.windowID }.sample argv).see argv
  else if toNumber argv.windowID = current then
    (if toNumber (row.percentileSample.getD 0) < toNumber argv.count then
      row.sample argv
    else row).see argv
  else row

def reset (row : Row) : Row :=
  { row with
    count := some 0
    errorCount := some 0
    bytes := some 0
    p95Nanos := some 0
    p99Nanos := some 0
    percentileSample := some 0 }

end Row

/-- The fields of a device. -/
def deviceFields : List String :=
  ["user_id", "device_id", "count", "error_count", "bytes", "p95_nanos",
    "p99_nanos", "last_window_id", "percentile_sample", "last_seen"]

/-- The hash shows a row, and nothing else. -/
structure Shows (fields : GoMap String String) (row : Row) : Prop where
  userID : fields.lookup "user_id" = row.userID
  deviceID : fields.lookup "device_id" = row.deviceID
  count : fields.lookup "count" = row.count.map numberText
  errorCount : fields.lookup "error_count" = row.errorCount.map numberText
  bytes : fields.lookup "bytes" = row.bytes.map numberText
  p95Nanos : fields.lookup "p95_nanos" = row.p95Nanos.map numberText
  p99Nanos : fields.lookup "p99_nanos" = row.p99Nanos.map numberText
  lastWindowID :
    fields.lookup "last_window_id" = row.lastWindowID.map numberText
  percentileSample :
    fields.lookup "percentile_sample" = row.percentileSample.map numberText
  lastSeen : fields.lookup "last_seen" = row.lastSeen
  only : ∀ field, field ∉ deviceFields → fields.lookup field = none

theorem shows_empty : Shows ∅ Row.empty :=
  ⟨rfl, rfl, rfl, rfl, rfl, rfl, rfl, rfl, rfl, rfl, fun _ _ => rfl⟩

theorem readInt_getD
    {field : Option String} {number : Option Int} {text : String}
    {default : Int} (shown : field = number.map numberText)
    (read : readInt text = some default) :
    readInt (field.getD text) = some (number.getD default) := by
  rw [shown]
  cases number with
  | none => exact read
  | some number => exact readInt_numberText number

theorem lookup_setNew
    (fields : GoMap String String) (field content other : String) :
    (setNew field content fields).lookup other =
      if other = field then some ((fields.lookup field).getD content)
      else fields.lookup other := by
  rw [setNew]
  split
  · rename_i present
    rcases Option.isSome_iff_exists.mp present with ⟨found, known⟩
    split
    · rename_i same
      rw [same, known, Option.getD_some]
    · rfl
  · rename_i absent
    split
    · rename_i same
      rw [same, lookup_insert, Option.not_isSome_iff_eq_none.mp absent,
        Option.getD_none]
    · rename_i different
      exact lookup_insert_ne different

section Specifications

variable {keys : ScriptKeys} {argv : Argv} {now : Int} {server : Server}
variable {fields : GoMap String String} {row : Row}
variable {scores : GoMap String Int}

theorem Shows.name (shown : Shows fields row) :
    Shows (setNew "device_id" argv.deviceID
      (setNew "user_id" argv.userID fields)) (row.name argv) := by
  cases shown
  constructor <;> simp +contextual [deviceFields, lookup_setNew, Row.name, *]

theorem Shows.addCount (shown : Shows fields row) :
    Shows (fields.insert "count"
      (numberText (row.count.getD 0 + argv.count))) (row.addCount argv) := by
  cases shown
  constructor <;> simp +contextual [deviceFields,
    lookup_insert_ne, Row.addCount, *]

theorem Shows.addErrors (shown : Shows fields row) :
    Shows (fields.insert "error_count"
      (numberText (row.errorCount.getD 0 + argv.errorCount)))
        (row.addErrors argv) := by
  cases shown
  constructor <;> simp +contextual [deviceFields,
    lookup_insert_ne, Row.addErrors, *]

theorem Shows.addBytes (shown : Shows fields row) :
    Shows (fields.insert "bytes"
      (numberText (row.bytes.getD 0 + argv.bytes))) (row.addBytes argv) := by
  cases shown
  constructor <;> simp +contextual [deviceFields,
    lookup_insert_ne, Row.addBytes, *]

/-- The counters after an emission, and the failure if one has no 64 bits. -/
theorem run_addCounters (found : server.hashOf now keys.state = some fields)
    (shown : Shows fields row) :
    ∃ after, Shows after (row.tally argv).1 ∧
      (addCounters keys argv).run now server =
        (server.put now keys.state (.hash after),
          if (row.tally argv).2 then .ok () else .error .overflow) := by
  have zero : readInt "0" = some 0 := by decide
  have named : Shows (setNew "device_id" argv.deviceID
      (setNew "user_id" argv.userID fields)) (row.name argv) := shown.name
  have counted : Shows _ ((row.name argv).addCount argv) := named.addCount
  have charged : Shows _ (((row.name argv).addCount argv).addErrors argv) :=
    counted.addErrors
  have names : ∀ {next : Script Unit},
      (do
        hsetnx keys.state "user_id" argv.userID
        hsetnx keys.state "device_id" argv.deviceID
        next : Script Unit).run now server =
      next.run now (server.put now keys.state (.hash
        (setNew "device_id" argv.deviceID
          (setNew "user_id" argv.userID fields)))) := by
    intro next
    rw [run_bind (run_hsetnx found argv.userID),
      run_bind (run_hsetnx (hashOf_put _) argv.deviceID), put_put]
  rw [addCounters, names, Row.tally]
  split
  · rename_i count
    rw [run_bind (run_hincrby (hashOf_put _)
      (readInt_getD named.count zero) count), put_put]
    split
    · rename_i errorCount
      rw [run_bind (run_hincrby (hashOf_put _)
        (readInt_getD counted.errorCount zero) errorCount), put_put]
      split
      · rename_i bytes
        refine ⟨_, charged.addBytes, ?_⟩
        rw [run_bind (run_hincrby (hashOf_put _)
          (readInt_getD charged.bytes zero) bytes), put_put]
        rfl
      · rename_i bytes
        exact ⟨_, charged, run_bind_error (run_hincrby_overflow
          (hashOf_put _) (readInt_getD charged.bytes zero)
            (Bool.eq_false_iff.mpr bytes))⟩
    · rename_i errorCount
      exact ⟨_, counted, run_bind_error (run_hincrby_overflow
        (hashOf_put _) (readInt_getD counted.errorCount zero)
          (Bool.eq_false_iff.mpr errorCount))⟩
  · rename_i count
    exact ⟨_, named, run_bind_error (run_hincrby_overflow (hashOf_put _)
      (readInt_getD named.count zero) (Bool.eq_false_iff.mpr count))⟩

/-- The last window's end is written unless it is the zero time. -/
theorem run_setLastSeen {deadline : Option Int}
    (live : server.live now keys.state = some ⟨.hash fields, deadline⟩)
    (shown : Shows fields row) :
    ∃ after, Shows after (row.see argv) ∧
      (setLastSeen keys argv).run now server =
        (server.put now keys.state (.hash after), .ok ()) := by
  rw [setLastSeen, Row.see]
  split
  · refine ⟨_, ?_, run_hset (hashOf_of_live live) _⟩
    cases shown
    constructor <;>
      simp +contextual [deviceFields, setAll, lookup_insert_ne, *]
  · refine ⟨fields, shown, ?_⟩
    rw [put_of_live live]
    rfl

theorem run_hset_setLastSeen
    (found : server.hashOf now keys.state = some fields)
    {pairs : List (String × String)}
    (shown : Shows (setAll pairs fields) row) :
    ∃ after, Shows after (row.see argv) ∧ (do
        hset keys.state pairs
        setLastSeen keys argv : Script Unit).run now server =
        (server.put now keys.state (.hash after), .ok ()) := by
  rcases run_setLastSeen (live_put_self server) shown with
    ⟨after, shownAfter, ran⟩
  refine ⟨after, shownAfter, ?_⟩
  rw [run_bind (run_hset found pairs), ran, put_put]

theorem Shows.sample (shown : Shows fields row) :
    Shows (setAll (sampleFields argv) fields) (row.sample argv) := by
  cases shown
  constructor <;> simp +contextual [deviceFields, setAll,
    sampleFields, Row.sample, lookup_insert_ne, *]

theorem Shows.sample_last (shown : Shows fields row) : Shows
      (setAll (("last_window_id", numberText argv.windowID) ::
        sampleFields argv) fields)
      ({ row with lastWindowID := some argv.windowID }.sample argv) := by
  have last : Shows
      (fields.insert "last_window_id" (numberText argv.windowID))
      { row with lastWindowID := some argv.windowID } := by
    cases shown
    constructor <;> simp +contextual [deviceFields, lookup_insert_ne, *]
  exact last.sample

/-- The percentiles after an emission, read as the script reads them. -/
theorem run_takePercentiles {deadline : Option Int}
    (live : server.live now keys.state = some ⟨.hash fields, deadline⟩)
    (shown : Shows fields row) :
    ∃ after, Shows after (row.rank argv) ∧
      (takePercentiles keys argv).run now server =
        (server.put now keys.state (.hash after), .ok ()) := by
  have found := hashOf_of_live live
  have current : readInt ((fields.lookup "last_window_id").getD "-1") =
      some (row.lastWindowID.getD (-1)) :=
    readInt_getD shown.lastWindowID (by decide)
  have sample : readInt ((fields.lookup "percentile_sample").getD "0") =
      some (row.percentileSample.getD 0) :=
    readInt_getD shown.percentileSample (by decide)
  rw [takePercentiles, run_bind (run_hget found),
    run_bind (run_tonumber current), Row.rank]
  by_cases later : toNumber (row.lastWindowID.getD (-1)) <
      toNumber argv.windowID
  · rw [if_pos later]
    simp only [later, if_true]
    exact run_hset_setLastSeen found shown.sample_last
  · rw [if_neg later]
    simp only [later, if_false]
    by_cases same : toNumber argv.windowID =
        toNumber (row.lastWindowID.getD (-1))
    · rw [if_pos same, if_pos same, run_bind (run_hget found),
        run_bind (run_tonumber sample)]
      by_cases larger : toNumber (row.percentileSample.getD 0) <
          toNumber argv.count
      · rw [if_pos larger]
        simp only [larger, if_true]
        exact run_hset_setLastSeen found shown.sample
      · rw [if_neg larger]
        simp only [larger, if_false]
        exact run_setLastSeen live shown
    · rw [if_neg same, if_neg same]
      refine ⟨fields, shown, ?_⟩
      rw [put_of_live live]
      rfl

/-- The numbers of the clock that a double holds exactly. -/
structure Argv.Exact (argv : Argv) : Prop where
  now : argv.now.natAbs < 2 ^ 53
  ttl : argv.ttl.natAbs < 2 ^ 53
  cutoff : (argv.now - argv.ttl).natAbs < 2 ^ 53

/-- The identities after another one is remembered. -/
def remembered (identity : String) (reading ttl now : Int)
    (scores : GoMap String Int) : Option Held :=
  if ttl ≤ 0 then none
  else some ⟨.scored (scoresAbove (reading - ttl)
      (scores.insert identity reading)), some (now + 1000000000 * ttl)⟩

theorem run_remember (found : server.scoredOf now keys.dedupe = some scores)
    (exact : argv.Exact) :
    (remember keys argv).run now server = (server.set keys.dedupe
        (remembered argv.identity argv.now argv.ttl now scores),
        .ok ()) := by
  have kept : 0 < argv.ttl → (scoresAbove (argv.now - argv.ttl)
        (scores.insert argv.identity argv.now)).entries ≠ [] := by
    intro positive emptied
    have new : (scoresAbove (argv.now - argv.ttl)
        (scores.insert argv.identity argv.now)).lookup argv.identity =
          some argv.now :=
      lookup_scoresAbove.mpr ⟨lookup_insert _, by omega⟩
    have member := mem_lookup_iff.mp new
    rw [emptied] at member
    cases member
  rw [remember, toNumber_eq exact.now, toNumber_eq exact.ttl,
    toNumber_eq exact.cutoff, run_bind (run_zadd found argv.now),
    run_trim_expire (scoredOf_put _) _ _ kept, put_eq_set,
    set_set]
  rfl

/-! ## The apply script -/

/-- A key that never expires holds the hash of a device, or nothing yet. -/
def HashAt (server : Server) (key : String) (row : Row) : Prop :=
  (server.keys key = none ∧ row = Row.empty) ∨
    ∃ fields, server.keys key = some ⟨.hash fields, none⟩ ∧
      Shows fields row ∧ row.count.isSome = true

/-- A key that never expires holds a set, or nothing yet. -/
def SetAt (server : Server) (key : String) (elements : Finset String) :
    Prop :=
  (server.keys key = none ∧ elements = ∅) ∨
    server.keys key = some ⟨.members elements, none⟩

theorem HashAt.hashOf
    {key : String} (stored : HashAt server key row) (now : Int) :
    ∃ fields, Shows fields row ∧ server.hashOf now key = some fields ∧
      (server.live now key).bind Held.deadline = none := by
  rcases stored with ⟨absent, rfl⟩ | ⟨fields, found, shown, _⟩
  · refine ⟨∅, shows_empty, hashOf_of_absent absent, ?_⟩
    rw [live_of_absent absent]
    rfl
  · have live := @Server.live_of_keys now _ _ _ found
    refine ⟨fields, shown, hashOf_of_live live, ?_⟩
    rw [live]
    rfl

theorem SetAt.membersOf {key : String} {elements : Finset String}
    (stored : SetAt server key elements) (now : Int) :
    server.membersOf now key = some elements ∧
      (server.live now key).bind Held.deadline = none := by
  rcases stored with ⟨absent, rfl⟩ | found
  · rw [membersOf_of_absent absent, live_of_absent absent]
    exact ⟨rfl, rfl⟩
  · have live := @Server.live_of_keys now _ _ _ found
    rw [membersOf_of_live live, live]
    exact ⟨rfl, rfl⟩

/-- The keys of a script are three different ones. -/
structure ScriptKeys.Apart (keys : ScriptKeys) : Prop where
  state_dedupe : keys.state ≠ keys.dedupe
  state_devices : keys.state ≠ keys.devices
  dedupe_devices : keys.dedupe ≠ keys.devices

theorem apart_scriptKeys (settings : Settings) (userID deviceID : String) :
    (Backend.scriptKeys settings userID deviceID).Apart :=
  ⟨stateKey_ne_dedupeKey, stateKey_ne_devicesKey, dedupeKey_ne_devicesKey⟩

theorem run_applyWindowScript_known
    {score : Int} (found : server.scoredOf now keys.dedupe = some scores)
    (known : scores.lookup argv.identity = some score) :
    (applyWindowScript keys argv).run now server = (server, .ok 0) := by
  rw [applyWindowScript, run_bind (run_zscore found), known]
  rfl

/-- The counters of a row have 64 bits after an emission. -/
structure Row.Fits (argv : Argv) (row : Row) : Prop where
  count : inRange (row.count.getD 0 + argv.count) = true
  errorCount : inRange (row.errorCount.getD 0 + argv.errorCount) = true
  bytes : inRange (row.bytes.getD 0 + argv.bytes) = true

theorem Row.Fits.tally_eq (fits : row.Fits argv) :
    row.tally argv = (row.add argv, true) := by
  simp only [Row.tally, fits.count, fits.errorCount, fits.bytes, if_true]
  rfl

/-- The counter that leaves 64 bits first, if there is one. -/
inductive Row.Tallied (argv : Argv) (row : Row) : Row × Bool → Prop where
  | count (exceeds : inRange (row.count.getD 0 + argv.count) = false) :
      Row.Tallied argv row (row.name argv, false)
  | errorCount (count : inRange (row.count.getD 0 + argv.count) = true)
      (exceeds :
        inRange (row.errorCount.getD 0 + argv.errorCount) = false) :
      Row.Tallied argv row ((row.name argv).addCount argv, false)
  | bytes (count : inRange (row.count.getD 0 + argv.count) = true)
      (errorCount :
        inRange (row.errorCount.getD 0 + argv.errorCount) = true)
      (exceeds : inRange (row.bytes.getD 0 + argv.bytes) = false) :
      Row.Tallied argv row
        (((row.name argv).addCount argv).addErrors argv, false)
  | done (fits : row.Fits argv) : Row.Tallied argv row (row.add argv, true)

theorem tallied (argv : Argv) (row : Row) :
    row.Tallied argv (row.tally argv) := by
  rw [Row.tally]
  split
  · rename_i count
    split
    · rename_i errorCount
      split
      · rename_i bytes
        exact Row.Tallied.done ⟨count, errorCount, bytes⟩
      · rename_i bytes
        exact Row.Tallied.bytes count errorCount
          (Bool.eq_false_iff.mpr bytes)
    · rename_i errorCount
      exact Row.Tallied.errorCount count (Bool.eq_false_iff.mpr errorCount)
  · rename_i count
    exact Row.Tallied.count (Bool.eq_false_iff.mpr count)

theorem not_fits_iff : ¬row.Fits argv ↔ (row.tally argv).2 = false := by
  rw [not_iff_comm, Bool.not_eq_false]
  have ended := tallied argv row
  constructor
  · intro complete
    generalize row.tally argv = result at ended complete
    cases ended with
    | done fits => exact fits
    | count | errorCount | bytes => cases complete
  · intro fits
    rw [fits.tally_eq]

/-- The server once the identity is remembered and the device listed. -/
def listing (keys : ScriptKeys) (argv : Argv) (now : Int)
    (scores : GoMap String Int) (elements : Finset String)
    (server : Server) : Server :=
  (server.set keys.dedupe
    (remembered argv.identity argv.now argv.ttl now scores)).set
      keys.devices (some ⟨.members (insert argv.deviceID elements), none⟩)

section Fresh

variable {elements : Finset String}

theorem keys_listing_of_ne {key : String} (dedupe : key ≠ keys.dedupe)
    (devices : key ≠ keys.devices) :
    (listing keys argv now scores elements server).keys key =
      server.keys key :=
  (keys_set_of_ne devices).trans (keys_set_of_ne dedupe)

theorem keys_listing_dedupe (apart : keys.Apart) :
    (listing keys argv now scores elements server).keys keys.dedupe =
      remembered argv.identity argv.now argv.ttl now scores :=
  (keys_set_of_ne apart.dedupe_devices).trans (keys_set_self _)

variable (apart : keys.Apart) (exact : argv.Exact)
variable (found : server.scoredOf now keys.dedupe = some scores)
variable (fresh : scores.lookup argv.identity = none)
variable (hash : HashAt server keys.state row)
variable (set : SetAt server keys.devices elements)

include apart exact found fresh hash set

/-- What an unknown identity changes until its counters are added. -/
theorem run_applyWindowScript_counters :
    ∃ fields, Shows fields (row.tally argv).1 ∧
      (applyWindowScript keys argv).run now server =
        (do
          (if (row.tally argv).2 then pure () else fail .overflow)
          takePercentiles keys argv
          spublish keys.updates (numberText argv.windowID)
          pure 1 : Script Int).run now
        ((listing keys argv now scores elements server).set keys.state
          (some ⟨.hash fields, none⟩)) := by
  have marked : ∀ {other : Option Held},
      (server.set keys.dedupe other).membersOf now keys.devices =
          some elements ∧
        ((server.set keys.dedupe other).live now keys.devices).bind
          Held.deadline = none := by
    intro other
    rw [membersOf_set_of_ne apart.dedupe_devices.symm,
      live_set_of_ne apart.dedupe_devices.symm]
    exact set.membersOf now
  rcases hash.hashOf now with ⟨fields, shown, held, forever⟩
  have listed : (listing keys argv now scores elements server).hashOf now
          keys.state = some fields ∧
        ((listing keys argv now scores elements server).live now
          keys.state).bind Held.deadline = none := by
    rw [listing, hashOf_set_of_ne apart.state_devices,
      hashOf_set_of_ne apart.state_dedupe,
      live_set_of_ne apart.state_devices,
      live_set_of_ne apart.state_dedupe]
    exact ⟨held, forever⟩
  rcases @run_addCounters keys argv _ _ _ _ listed.1 shown with
    ⟨counted, shownCounted, ranCounters⟩
  refine ⟨counted, shownCounted, ?_⟩
  rw [applyWindowScript, run_bind (run_zscore found), fresh]
  apply (run_bind (run_remember found exact)).trans
  apply (run_bind (run_sadd marked.1 argv.deviceID)).trans
  rw [put_eq_set, marked.2, ← listing]
  rw [put_eq_set, listed.2] at ranCounters
  cases fits : (row.tally argv).2 with
  | true =>
    rw [fits] at ranCounters
    exact run_bind ranCounters
  | false =>
    rw [fits] at ranCounters
    exact run_bind_error ranCounters

/-- What an identity that the set does not know changes, and all of it. -/
theorem run_applyWindowScript_fresh (fits : row.Fits argv) :
    ∃ fields, Shows fields ((row.add argv).rank argv) ∧
      (applyWindowScript keys argv).run now server =
        (((listing keys argv now scores elements server).set keys.state
            (some ⟨.hash fields, none⟩)).publish
              keys.updates (numberText argv.windowID), .ok 1) := by
  rcases run_applyWindowScript_counters apart exact found fresh hash set with
    ⟨counted, shownCounted, ran⟩
  rw [fits.tally_eq] at shownCounted ran
  rcases run_takePercentiles (live_of_keys (keys_set_self _))
    shownCounted with ⟨ranked, shownRanked, ranPercentiles⟩
  refine ⟨ranked, shownRanked, ran.trans ?_⟩
  apply (run_bind (run_pure () _ _)).trans
  apply (run_bind ranPercentiles).trans
  rw [put_eq_set, live_of_keys (keys_set_self _), set_set]
  rfl

/-- A counter that leaves 64 bits ends the script with the ones before. -/
theorem run_applyWindowScript_overflow
    (refused : (row.tally argv).2 = false) :
    ∃ fields, Shows fields (row.tally argv).1 ∧
      (applyWindowScript keys argv).run now server =
        ((listing keys argv now scores elements server).set keys.state
          (some ⟨.hash fields, none⟩), .error .overflow) := by
  rcases run_applyWindowScript_counters apart exact found fresh hash set with
    ⟨counted, shown, ran⟩
  rw [refused] at ran
  exact ⟨counted, shown, ran⟩

end Fresh

/-! ## The reset script -/

theorem run_resetDeviceScript_absent
    {state updates : String} (absent : server.keys state = none) :
    (resetDeviceScript state updates).run now server = (server, .ok 0) := by
  have answered : (keyExists state).run now server = (server, .ok false) := by
    rw [run, keyExists, live_of_absent absent]
    rfl
  rw [resetDeviceScript, run_bind answered]
  rfl

theorem run_resetDeviceScript_present {state updates : String}
    (found : server.keys state = some ⟨.hash fields, none⟩)
    (shown : Shows fields row) :
    ∃ after, Shows after row.reset ∧
      (resetDeviceScript state updates).run now server =
        ((server.set state (some ⟨.hash after, none⟩)).publish updates
          "reset", .ok 1) := by
  have live := @Server.live_of_keys now _ _ _ found
  have answered : (keyExists state).run now server = (server, .ok true) := by
    rw [run, keyExists, live]
    rfl
  have zero : "0" = numberText 0 := by decide
  refine ⟨setAll [("count", "0"), ("error_count", "0"), ("bytes", "0"),
      ("p95_nanos", "0"), ("p99_nanos", "0"), ("percentile_sample", "0")]
      fields, ?_, ?_⟩
  · cases shown
    constructor <;> simp +contextual [deviceFields, setAll, Row.reset,
      lookup_insert_ne, *]
  · rw [resetDeviceScript, run_bind answered]
    apply (run_bind (run_hset (hashOf_of_live live) _)).trans
    rw [put_eq_set, live]
    rfl

end Specifications

end Ironclaw.RedisStore
