import Ironclaw.RedisStore.Mirror

/-!
# The Redis store refines the in-memory store

Both stores run the same history of calls.  After every call the hash of each
device in Redis shows the record of the device, its sorted set knows every
identity that may still be repeated, and the set of each user lists the same
devices.

What a store reports is read off these, so the two stores report the same.
-/

namespace Ironclaw.RedisStore

open Lib Lib.Redis Domain Store List Int64 Server Memory DeviceRecord

variable {visit : Visit} {settings : Settings}

/-! ## Histories -/

/-- A call and the time at which it is made. -/
abbrev TimedCall := Time × Call

/-- The user that a call names. -/
def userOf : Call → String
  | .applyWindow window => window.key.userID
  | .resetDevice userID _ => userID

def Backend.perform (settings : Settings) (backend : Backend)
    (call : TimedCall) : Backend :=
  match call.2 with
  | .applyWindow window => (backend.applyWindow settings call.1 window).1
  | .resetDevice userID deviceID =>
    (backend.resetDevice settings call.1 userID deviceID).1

/-- A new store after a history of calls. -/
def Backend.replay (settings : Settings) (calls : List TimedCall) :
    Backend :=
  calls.foldl (Backend.perform settings) Backend.new

theorem Backend.replay_concat
    (settings : Settings) (calls : List TimedCall) (call : TimedCall) :
    replay settings (calls ++ [call]) =
      (replay settings calls).perform settings call := by
  rw [replay, foldl_append]
  rfl

/-- The in-memory store after the same calls. -/
def memoryOf (calls : List TimedCall) : Memory :=
  Memory.replay (calls.map Prod.snd)

theorem memoryOf_concat (calls : List TimedCall) (call : TimedCall) :
    memoryOf (calls ++ [call]) = (memoryOf calls).perform call.2 := by
  rw [memoryOf, map_append, map_singleton, replay_concat, memoryOf]

/-- The visit that a call makes to a device. -/
def visitOf (userID deviceID : String) (call : TimedCall) : Option Visit :=
  (call.2.delivers (deviceKey userID deviceID)).map fun window =>
    (call.1, window)

def visitsOf (userID deviceID : String) (calls : List TimedCall) :
    List Visit :=
  calls.filterMap (visitOf userID deviceID)

theorem eq_of_delivers {key : String} {call : Call} {window : AggregateWindow}
    (made : call.delivers key = some window) :
    call = .applyWindow window ∧ keyOf window = key := by
  cases call with
  | resetDevice => cases made
  | applyWindow other =>
    simp only [Call.delivers] at made
    split at made
    · rename_i same
      cases made
      exact ⟨rfl, same⟩
    · cases made

theorem visitOf_eq_some {userID deviceID : String} {call : TimedCall}
    (made : visitOf userID deviceID call = some visit) :
    call = (visit.1, .applyWindow visit.2) ∧
      keyOf visit.2 = deviceKey userID deviceID := by
  rcases call with ⟨time, call⟩
  rcases Option.map_eq_some_iff.mp made with ⟨window, delivered, rfl⟩
  rcases eq_of_delivers delivered with ⟨rfl, same⟩
  exact ⟨rfl, same⟩

/-- The sum of a counter over the emissions counted since a reset. -/
def exactSum (counter : AggregateWindow → Int64) (key : String)
    (calls : List TimedCall) : Int :=
  ((counted key (calls.map Prod.snd)).map fun window =>
    (counter window).toInt).sum

/-- Whether a call delivers to a device what an earlier one delivered. -/
def redelivers : Call → Call → Bool
  | .applyWindow earlier, .applyWindow later =>
    keyOf later = keyOf earlier ∧ later.identity = earlier.identity
  | _, _ => false

/-- The counters of a device are integers that a double holds. -/
def SmallSums (key : String) (calls : List TimedCall) : Prop :=
  (exactSum AggregateWindow.count key calls).natAbs < 2 ^ 53 ∧
    (exactSum AggregateWindow.errorCount key calls).natAbs < 2 ^ 53 ∧
      (exactSum AggregateWindow.bytes key calls).natAbs < 2 ^ 53

/--
Histories of plain users: emissions with a positive count, a window number
that a double holds and an end that depends on it, and counters that a double
holds.
-/
structure Ordinary (calls : List TimedCall) : Prop where
  plain : ∀ call ∈ calls, Plain (userOf call.2)
  count_pos : ∀ time window, (time, .applyWindow window) ∈ calls →
    1 ≤ window.count
  windowID_range : ∀ time window, (time, .applyWindow window) ∈ calls →
    0 ≤ window.windowID ∧ window.windowID.toInt < 2 ^ 53
  windowEnd : ∃ ends : Int64 → Time, ∀ time window,
    (time, .applyWindow window) ∈ calls → window.windowEnd.isZero = false ∧
        window.windowEnd = ends window.windowID
  counts : ∀ time window, (time, .applyWindow window) ∈ calls →
    window.count.toInt.natAbs < 2 ^ 53 ∧
      window.errorCount.toInt.natAbs < 2 ^ 53 ∧
        window.bytes.toInt.natAbs < 2 ^ 53
  sums : ∀ earlier, earlier <+: calls → ∀ userID deviceID,
    SmallSums (deviceKey userID deviceID) earlier

/--
Ordinary histories with times that never decrease and repeats within the time
to live, both read in whole seconds: the script trims by such readings, so a
repeat at an age of less than a second below the time to live may come late.
-/
structure Admissible (settings : Settings) (calls : List TimedCall) : Prop
    extends Ordinary calls where
  ordered : calls.Pairwise fun earlier later =>
    earlier.1.nanos ≤ later.1.nanos
  inside : calls.Pairwise fun earlier later =>
    redelivers earlier.2 later.2 = true →
      later.1.unixSeconds < earlier.1.unixSeconds + (settings.ttl : Int)

/-- Times that the texts and the doubles of Redis can express. -/
structure Expressible (settings : Settings) (calls : List TimedCall) :
    Prop where
  ends : ∀ time window, (time, .applyWindow window) ∈ calls →
    window.windowEnd.after Time.zero = true ∧
      window.windowEnd.unixSeconds < 253402300800
  reads : ∀ call ∈ calls, settings.Reads call.1

/-- What the histories that both stores run have in common. -/
structure Permitted (settings : Settings) (ends : Int64 → Time)
    (calls : List TimedCall) : Prop where
  plain : ∀ call ∈ calls, Plain (userOf call.2)
  fitting : ∀ time window, (time, .applyWindow window) ∈ calls →
    Fitting ends window
  sums : ∀ earlier, earlier <+: calls → ∀ userID deviceID,
    SmallSums (deviceKey userID deviceID) earlier
  ordered : calls.Pairwise fun earlier later =>
    earlier.1.nanos ≤ later.1.nanos
  inside : ∀ userID deviceID, (visitsOf userID deviceID calls).Pairwise
    fun earlier later => later.identity = earlier.identity →
      later.1.unixSeconds < earlier.1.unixSeconds + (settings.ttl : Int)
  reads : ∀ call ∈ calls, settings.Reads call.1

theorem Admissible.permitted
    {calls : List TimedCall} (admissible : Admissible settings calls)
    (expressible : Expressible settings calls) :
    ∃ ends, Permitted settings ends calls := by
  rcases admissible.windowEnd with ⟨ends, windowEnd⟩
  refine ⟨ends, admissible.plain, ?_, admissible.sums, admissible.ordered,
    ?_, expressible.reads⟩
  · intro time window member
    have range := admissible.windowID_range time window member
    have times := expressible.ends time window member
    have counts := (admissible.counts time window member).1
    exact ⟨⟨admissible.count_pos time window member, range.1, times.1⟩,
      range.2, by omega, (windowEnd time window member).2, times.2⟩
  · intro userID deviceID
    rw [visitsOf, pairwise_filterMap]
    apply admissible.inside.imp
    intro earlier later inside visit made other otherMade same
    rcases visitOf_eq_some made with ⟨rfl, key⟩
    rcases visitOf_eq_some otherMade with ⟨rfl, otherKey⟩
    apply inside
    rw [redelivers, decide_eq_true_eq]
    exact ⟨otherKey.trans key.symm, same⟩

/-- The device that a call is about. -/
def deviceOf : Call → String × String
  | .applyWindow window => (window.key.userID, window.key.deviceID)
  | .resetDevice userID deviceID => (userID, deviceID)

/-- The call of a visit. -/
abbrev Visit.call (visit : Visit) : TimedCall :=
  (visit.1, .applyWindow visit.2)

/-- Whether the device of a visit has seen its identity. -/
abbrev Visit.Known (visit : Visit) (calls : List TimedCall) : Prop :=
  visit.identity ∈ keysOf Visit.identity
    (visitsOf visit.2.key.userID visit.2.key.deviceID calls)

section Histories

variable {ends : Int64 → Time}
variable {calls : List TimedCall} {call : TimedCall}
variable {userID deviceID : String}

theorem visitsOf_concat : visitsOf userID deviceID (calls ++ [call]) =
      visitsOf userID deviceID calls ++
        (visitOf userID deviceID call).toList := by
  rw [visitsOf, filterMap_append, ← visitsOf]
  cases made : visitOf userID deviceID call with
  | none | some => simp [made]

theorem map_visitsOf : (visitsOf userID deviceID calls).map Prod.snd =
      deliveries (deviceKey userID deviceID) (calls.map Prod.snd) := by
  rw [visitsOf, deliveries, map_filterMap, filterMap_map]
  apply filterMap_congr
  intro call _
  simp only [visitOf, Option.map_map, Function.comp_def, Option.map_id']

theorem keysOf_visitsOf :
    keysOf Visit.identity (visitsOf userID deviceID calls) =
      keysOf AggregateWindow.identity
        (deliveries (deviceKey userID deviceID) (calls.map Prod.snd)) := by
  rw [← map_visitsOf, keysOf, keysOf, map_map]
  rfl

theorem Permitted.of_concat
    (permitted : Permitted settings ends (calls ++ [call])) :
    Permitted settings ends calls where
  plain other member := permitted.plain other (mem_append_left _ member)
  fitting time window member :=
    permitted.fitting time window (mem_append_left _ member)
  sums earlier begins :=
    permitted.sums earlier (begins.trans (prefix_append _ _))
  ordered := (pairwise_append.mp permitted.ordered).1
  inside userID deviceID := by
    have inside := permitted.inside userID deviceID
    rw [visitsOf_concat] at inside
    exact (pairwise_append.mp inside).1
  reads other member := permitted.reads other (mem_append_left _ member)

theorem Permitted.order
    (permitted : Permitted settings ends (calls ++ [call])) :
    ∀ earlier ∈ calls, earlier.1.nanos ≤ call.1.nanos := by
  intro earlier member
  exact (pairwise_append.mp permitted.ordered).2.2 earlier member call
    mem_cons_self

theorem toInt_exactSum {counter : AggregateWindow → Int64} {key : String}
    (small : (exactSum counter key calls).natAbs < 2 ^ 53) :
    ((counted key (calls.map Prod.snd)).map counter).sum.toInt =
      exactSum counter key calls := by
  rw [exactSum] at small ⊢
  exact Word.toInt_sum_map (by omega) (by omega)

/-- The counters of a record are the exact sums of the history. -/
theorem counters_memoryOf {record : DeviceRecord}
    (found : (memoryOf calls).devices.lookup
      (deviceKey userID deviceID) = some record)
    (small : SmallSums (deviceKey userID deviceID) calls) :
    record.state.count.toInt = exactSum AggregateWindow.count
        (deviceKey userID deviceID) calls ∧
      record.state.errorCount.toInt = exactSum AggregateWindow.errorCount
        (deviceKey userID deviceID) calls ∧
      record.state.bytes.toInt = exactSum AggregateWindow.bytes
        (deviceKey userID deviceID) calls := by
  have described := replay_described (deviceKey userID deviceID)
    (calls.map Prod.snd)
  rw [← memoryOf, found] at described
  rcases DeviceState.counters_of_tally described.2.1.tally
    with ⟨count, errorCount, bytes⟩
  exact ⟨(congrArg toInt count).trans (toInt_exactSum small.1),
    (congrArg toInt errorCount).trans (toInt_exactSum small.2.1),
    (congrArg toInt bytes).trans (toInt_exactSum small.2.2)⟩

theorem applied_memoryOf {record : DeviceRecord}
    (found : (memoryOf calls).devices.lookup
      (deviceKey userID deviceID) = some record) :
    record.applied =
      keysOf Visit.identity (visitsOf userID deviceID calls) := by
  have described := replay_described (deviceKey userID deviceID)
    (calls.map Prod.snd)
  rw [← memoryOf, found] at described
  rw [keysOf_visitsOf]
  exact described.2.1.identities

theorem visitsOf_of_absent
    (absent : (memoryOf calls).devices.lookup
      (deviceKey userID deviceID) = none) :
    visitsOf userID deviceID calls = [] := by
  have described := replay_described (deviceKey userID deviceID)
    (calls.map Prod.snd)
  rw [← memoryOf, absent] at described
  apply map_eq_nil_iff.mp
  exact map_visitsOf.trans described

theorem visitsOf_concat_self :
    visitsOf visit.2.key.userID visit.2.key.deviceID (calls ++ [visit.call]) =
      visitsOf visit.2.key.userID visit.2.key.deviceID calls ++ [visit] := by
  rw [visitsOf_concat, visitOf, Call.delivers, if_pos (by rfl)]
  rfl

theorem visitsOf_concat_other
    (other : call.2.delivers (deviceKey userID deviceID) = none) :
    visitsOf userID deviceID (calls ++ [call]) =
      visitsOf userID deviceID calls := by
  rw [visitsOf_concat, visitOf, other]
  exact append_nil _

/-- What a call leaves as it is. -/
theorem concat_of_ne
    {key : String} (about : deviceOf call.2 = (userID, deviceID))
    (different : key ≠ deviceKey userID deviceID) :
    call.2.delivers key = none ∧
      (memoryOf (calls ++ [call])).devices.lookup key =
        (memoryOf calls).devices.lookup key := by
  rw [memoryOf_concat]
  rcases call with ⟨time, call⟩
  cases call with
  | applyWindow window =>
    cases about
    exact ⟨if_neg (Ne.symm different), devices_applyWindow_of_ne different⟩
  | resetDevice =>
    cases about
    exact ⟨rfl, devices_resetDevice_of_ne different⟩

/-- A call adds its device at most to the devices that are listed. -/
theorem listed_concat
    (about : deviceOf call.2 = (userID, deviceID)) (user : String) :
    (memoryOf calls).listed user ⊆ (memoryOf (calls ++ [call])).listed user ∧
      (user ≠ userID → (memoryOf (calls ++ [call])).listed user =
        (memoryOf calls).listed user) := by
  rw [memoryOf_concat]
  rcases call with ⟨time, call⟩
  cases call with
  | applyWindow window =>
    cases about
    rw [perform, listed_applyWindow]
    split
    · rename_i created
      exact ⟨Finset.subset_insert _ _,
        fun other => absurd created.1.symm other⟩
    · exact ⟨Finset.Subset.refl _, fun _ => rfl⟩
  | resetDevice =>
    rw [perform, listed_resetDevice]
    exact ⟨Finset.Subset.refl _, fun _ => rfl⟩

end Histories

/-! ## Agreement of the stores -/

/-- The hash of a device shows its record, and the device is listed. -/
structure Shown
    (settings : Settings) (ends : Int64 → Time) (userID deviceID : String)
    (record : DeviceRecord) (memory : Memory) (server : Server) :
    Prop where
  hash : ∃ fields row, server.keys (stateKey settings userID deviceID) =
        some ⟨.hash fields, none⟩ ∧
      Shows fields row ∧ Mirrors ends row record
  label : record.label = (userID, deviceID, false)
  listed : deviceID ∈ memory.listed userID

/-- After a history the server holds what the in-memory store holds. -/
structure Agrees
    (settings : Settings) (ends : Int64 → Time) (clock : Time)
    (calls : List TimedCall) (server : Server) : Prop where
  remembers : ∀ userID deviceID, Plain userID → ∃ content,
    Remembers settings (dedupeKey settings userID deviceID) clock
      (visitsOf userID deviceID calls) content server
  absent : ∀ userID deviceID, Plain userID →
    (memoryOf calls).devices.lookup (deviceKey userID deviceID) = none →
      server.keys (stateKey settings userID deviceID) = none
  shown : ∀ userID deviceID, Plain userID → ∀ record,
    (memoryOf calls).devices.lookup (deviceKey userID deviceID) =
        some record →
      Shown settings ends userID deviceID record (memoryOf calls) server
  listed : ∀ userID, Plain userID → SetAt server (devicesKey settings userID)
      ((memoryOf calls).listed userID)

section Steps

variable {ends : Int64 → Time} {clock : Time}
variable {calls : List TimedCall} {backend : Backend}

theorem Agrees.later {now : Time} {server : Server}
    (agrees : Agrees settings ends clock calls server)
    (order : clock.nanos ≤ now.nanos) :
    Agrees settings ends now calls server := by
  refine { agrees with remembers := ?_ }
  intro userID deviceID plain
  rcases agrees.remembers userID deviceID plain with ⟨content, remembers⟩
  exact ⟨content, remembers.later order rfl⟩

/-- The stores agree after a call if they agree about its device. -/
theorem Agrees.of_device
    {server after : Server} {userID deviceID : String} (call : TimedCall)
    (agrees : Agrees settings ends call.1 calls server)
    (about : deviceOf call.2 = (userID, deviceID)) (plain : Plain userID)
    (kept : ∀ {key}, key ≠ stateKey settings userID deviceID →
      key ≠ devicesKey settings userID →
      key ≠ dedupeKey settings userID deviceID →
        after.keys key = server.keys key)
    (remembers : ∃ content, Remembers settings
      (dedupeKey settings userID deviceID) call.1
      (visitsOf userID deviceID (calls ++ [call])) content after)
    (absent : (memoryOf (calls ++ [call])).devices.lookup
        (deviceKey userID deviceID) = none →
      after.keys (stateKey settings userID deviceID) = none)
    (shown : ∀ record, (memoryOf (calls ++ [call])).devices.lookup
        (deviceKey userID deviceID) = some record →
      Shown settings ends userID deviceID record
        (memoryOf (calls ++ [call])) after)
    (listed : SetAt after (devicesKey settings userID)
      ((memoryOf (calls ++ [call])).listed userID)) :
    Agrees settings ends call.1 (calls ++ [call]) after := by
  have states : ∀ {user device}, Plain user →
      deviceKey user device ≠ deviceKey userID deviceID →
      after.keys (stateKey settings user device) =
        server.keys (stateKey settings user device) := by
    intro user device otherPlain different
    refine kept ?_ stateKey_ne_devicesKey stateKey_ne_dedupeKey
    intro equal
    rcases stateKey_injective otherPlain plain equal with ⟨rfl, rfl⟩
    exact different rfl
  refine ⟨?_, ?_, ?_, ?_⟩
  · intro user device otherPlain
    by_cases same : deviceKey user device = deviceKey userID deviceID
    · rcases deviceKey_injective otherPlain plain same with ⟨rfl, rfl⟩
      exact remembers
    · rcases agrees.remembers user device otherPlain with ⟨others, remembered⟩
      rw [visitsOf_concat_other (@concat_of_ne calls _ _ _ _ about same).1]
      refine ⟨others, remembered.later (Int.le_refl _) ?_⟩
      apply kept stateKey_ne_dedupeKey.symm dedupeKey_ne_devicesKey
      intro equal
      rcases dedupeKey_injective otherPlain plain equal with ⟨rfl, rfl⟩
      exact same rfl
  · intro user device otherPlain missing
    by_cases same : deviceKey user device = deviceKey userID deviceID
    · rcases deviceKey_injective otherPlain plain same with ⟨rfl, rfl⟩
      exact absent missing
    · rw [(concat_of_ne about same).2] at missing
      rw [states otherPlain same]
      exact agrees.absent user device otherPlain missing
  · intro user device otherPlain record present
    by_cases same : deviceKey user device = deviceKey userID deviceID
    · rcases deviceKey_injective otherPlain plain same with ⟨rfl, rfl⟩
      exact shown record present
    · rw [(concat_of_ne about same).2] at present
      have before := agrees.shown user device otherPlain record present
      exact ⟨(states otherPlain same).symm ▸ before.hash, before.label,
        (listed_concat about user).1 before.listed⟩
  · intro user otherPlain
    by_cases same : user = userID
    · rw [same]
      exact listed
    · rw [(listed_concat about user).2 same, SetAt, kept]
      · exact agrees.listed user otherPlain
      · exact stateKey_ne_devicesKey.symm
      · intro equal
        exact same (devicesKey_injective otherPlain plain equal)
      · exact dedupeKey_ne_devicesKey.symm

variable (agrees : Agrees settings ends visit.1 calls backend.server)
variable (plain : Plain visit.2.key.userID)

include agrees plain in
/-- A repeat of an identity changes neither store. -/
theorem Agrees.known (known : visit.Known calls)
    (inside : ∀ other ∈
        visitsOf visit.2.key.userID visit.2.key.deviceID calls,
      visit.identity = other.identity →
        visit.1.unixSeconds < other.1.unixSeconds + settings.ttl) :
    Agrees settings ends visit.1 (calls ++ [visit.call])
      (backend.applyWindow settings visit.1 visit.2).1.server := by
  rcases agrees.remembers visit.2.key.userID visit.2.key.deviceID plain with
    ⟨content, remembers⟩
  rw [(applyWindow_known remembers (Int.le_refl _) known inside).2]
  cases found : (memoryOf calls).devices.lookup (keyOf visit.2) with
  | none =>
    rw [Visit.Known, visitsOf_of_absent found] at known
    cases known
  | some record =>
    have repeated : visit.2.identity ∈ record.applied := by
      rw [applied_memoryOf found]
      exact known
    have lookup : (memoryOf (calls ++ [visit.call])).devices.lookup
        (keyOf visit.2) = some record := by
      rw [memoryOf_concat]
      apply (devices_applyWindow_self _ _).trans
      rw [found, Option.getD_some, receive, if_pos repeated]
    have shown := agrees.shown _ _ plain record found
    apply agrees.of_device visit.call rfl plain (fun _ _ _ => rfl)
    · rw [visitsOf_concat_self]
      exact ⟨content, remembers.repeated (Int.le_refl _) known⟩
    · intro absent
      cases lookup.symm.trans absent
    · intro other present
      cases lookup.symm.trans present
      exact ⟨shown.hash, shown.label, (listed_concat rfl _).1 shown.listed⟩
    · rw [memoryOf_concat, perform, listed_applyWindow, if_neg]
      · exact agrees.listed _ plain
      · rintro ⟨_, absent⟩
        cases found.symm.trans absent

/-- The sums of a history that goes on with a new identity. -/
theorem exactSum_concat_fresh
    {counter : AggregateWindow → Int64} (fresh : ¬visit.Known calls) :
    exactSum counter (keyOf visit.2) (calls ++ [visit.call]) =
      exactSum counter (keyOf visit.2) calls + (counter visit.2).toInt := by
  have unknown : visit.2.identity ∉ keysOf AggregateWindow.identity
      (deliveries (keyOf visit.2) (calls.map Prod.snd)) := by
    intro known
    apply fresh
    rw [Visit.Known, keysOf_visitsOf]
    exact known
  rw [exactSum, map_append, map_singleton,
    counted_concat_self rfl, if_neg unknown, map_append,
    sum_append, map_singleton, sum_singleton, exactSum]

/-- The record that an emission finds. -/
def recordBefore (calls : List TimedCall) (window : AggregateWindow) :
    DeviceRecord :=
  ((memoryOf calls).devices.lookup (keyOf window)).getD
    (DeviceRecord.fresh window.key.userID window.key.deviceID)

include agrees plain in
/-- What the script finds for a new identity, and what it makes of it. -/
theorem Agrees.ready
    (fitting : Fitting ends visit.2) (fresh : ¬visit.Known calls)
    (before : SmallSums (keyOf visit.2) calls)
    (after : SmallSums (keyOf visit.2) (calls ++ [visit.call])) :
    ∃ row, HashAt backend.server (visit.stateKey settings) row ∧
      row.Fits (visit.argv settings) ∧ Mirrors ends
        ((row.add (visit.argv settings)).rank (visit.argv settings))
        ((recordBefore calls visit.2).merge visit.2) := by
  cases found : (memoryOf calls).devices.lookup (keyOf visit.2) with
  | none =>
    refine ⟨Row.empty, Or.inl ⟨agrees.absent _ _ plain found, rfl⟩, ?_, ?_⟩
    · have whole : ∀ number : Int64, inRange (0 + number.toInt) = true := by
        intro number
        have lower := le_toInt number
        have upper := toInt_lt number
        rw [inRange, decide_eq_true_eq]
        omega
      exact ⟨whole _, whole _, whole _⟩
    · rw [recordBefore, found]
      exact mirrors_fresh fitting
  | some record =>
    rcases (agrees.shown _ _ plain record found).hash with
      ⟨fields, row, stored, shown, mirrors⟩
    rcases counters_memoryOf found before with ⟨count, errorCount, bytes⟩
    rcases mirrors.numbers with ⟨rowCount, rowError, rowBytes, _⟩
    have fits : ∀ {left right : Int64},
        (left.toInt + right.toInt).natAbs < 2 ^ 53 →
          inRange (left.toInt + right.toInt) = true ∧
            (left + right).toInt = left.toInt + right.toInt := by
      intro left right small
      constructor
      · rw [inRange, decide_eq_true_eq]
        omega
      · exact Word.toInt_add (by omega) (by omega)
    simp only [SmallSums, exactSum_concat_fresh fresh] at after
    rw [keyOf, ← count, ← errorCount, ← bytes] at after
    have unwrapped : Unwrapped visit.2 record :=
      ⟨(fits after.1).2, (fits after.2.1).2, (fits after.2.2).2⟩
    refine ⟨row, Or.inr ⟨fields, stored, shown, ?_⟩, ⟨?_, ?_, ?_⟩, ?_⟩
    · rw [mirrors.count]
      rfl
    · rw [rowCount]
      exact (fits after.1).1
    · rw [rowError]
      exact (fits after.2.1).1
    · rw [rowBytes]
      exact (fits after.2.2).1
    · rw [recordBefore, found]
      exact mirrors.merge fitting unwrapped

/-- What the in-memory store makes of a new identity. -/
theorem memoryOf_concat_fresh (fresh : ¬visit.Known calls) :
    (memoryOf (calls ++ [visit.call])).devices.lookup (keyOf visit.2) =
      some ((recordBefore calls visit.2).merge visit.2) := by
  have unknown : visit.2.identity ∉ (recordBefore calls visit.2).applied := by
    rw [recordBefore]
    cases found : (memoryOf calls).devices.lookup (keyOf visit.2) with
    | none => exact Finset.notMem_empty _
    | some record =>
      rw [Option.getD_some, applied_memoryOf found]
      exact fresh
  rw [memoryOf_concat]
  apply (devices_applyWindow_self _ _).trans
  rw [← recordBefore, receive, if_neg unknown]

include agrees plain

theorem recordBefore_label : (recordBefore calls visit.2).label =
      (visit.2.key.userID, visit.2.key.deviceID, false) := by
  rw [recordBefore]
  cases found : (memoryOf calls).devices.lookup (keyOf visit.2) with
  | none => rfl
  | some record => exact (agrees.shown _ _ plain record found).label

/-- The device of an emission is listed afterwards. -/
theorem Agrees.listings :
    (memoryOf (calls ++ [visit.call])).listed visit.2.key.userID =
      insert visit.2.key.deviceID
        ((memoryOf calls).listed visit.2.key.userID) := by
  rw [memoryOf_concat, perform, listed_applyWindow]
  cases found : (memoryOf calls).devices.lookup (keyOf visit.2) with
  | none => rw [if_pos ⟨rfl, rfl⟩]
  | some record =>
    have listed := (agrees.shown _ _ plain record found).listed
    rw [if_neg fun created => Option.some_ne_none _ created.2,
      Finset.insert_eq_of_mem listed]

/-- A new identity changes both stores in the same way. -/
theorem Agrees.fresh
    (reads : settings.Reads visit.1) (fitting : Fitting ends visit.2)
    (fresh : ¬visit.Known calls) (before : SmallSums (keyOf visit.2) calls)
    (after : SmallSums (keyOf visit.2) (calls ++ [visit.call])) :
    Agrees settings ends visit.1 (calls ++ [visit.call])
      (backend.applyWindow settings visit.1 visit.2).1.server := by
  rcases agrees.remembers visit.2.key.userID visit.2.key.deviceID plain with
    ⟨content, remembers⟩
  rcases agrees.ready plain fitting fresh before after with
    ⟨row, hash, fits, mirrors⟩
  rcases applyWindow_fresh remembers (Int.le_refl _) reads fresh hash
    (agrees.listed _ plain) fits with ⟨_, scores, applied, kept⟩
  apply agrees.of_device visit.call rfl plain (applied.others _)
  · rw [visitsOf_concat_self]
    exact kept
  · intro absent
    cases (memoryOf_concat_fresh fresh).symm.trans absent
  · intro record present
    cases (memoryOf_concat_fresh fresh).symm.trans present
    rcases applied.hash with ⟨fields, stored, shown⟩
    refine ⟨⟨fields, _, stored, shown, mirrors⟩,
      (label_merge _ _).trans (recordBefore_label agrees plain), ?_⟩
    rw [agrees.listings plain]
    exact Finset.mem_insert_self _ _
  · rw [agrees.listings plain]
    exact Or.inr applied.listed

omit agrees plain

/-- A reset finds a device in both stores or in neither. -/
theorem Agrees.resetDevice {userID deviceID : String} {now : Time}
    (agrees : Agrees settings ends clock calls backend.server)
    (plain : Plain userID) :
    ((memoryOf calls).devices.lookup (deviceKey userID deviceID) = none ∧
      (backend.resetDevice settings now userID deviceID).2 =
        some errDeviceNotFound ∧
      (backend.resetDevice settings now userID deviceID).1.server =
        backend.server) ∨ ∃ record fields row,
      (memoryOf calls).devices.lookup (deviceKey userID deviceID) =
          some record ∧
        (backend.resetDevice settings now userID deviceID).2 = none ∧
        Shows fields row ∧ Mirrors ends row record.reset ∧
        (backend.resetDevice settings now userID deviceID).1.server =
          (backend.server.set (stateKey settings userID deviceID)
            (some ⟨.hash fields, none⟩)).publish
              (updatesChannel settings userID deviceID) "reset" := by
  cases found : (memoryOf calls).devices.lookup
      (deviceKey userID deviceID) with
  | none =>
    left
    rcases Backend.resetDevice_of_run (run_resetDeviceScript_absent
      (agrees.absent userID deviceID plain found)) with ⟨result, server⟩
    exact ⟨rfl, result, server⟩
  | some record =>
    right
    rcases (agrees.shown userID deviceID plain record found).hash with
      ⟨fields, row, stored, shown, mirrors⟩
    rcases run_resetDeviceScript_present stored shown with
      ⟨after, shownAfter, ran⟩
    rcases Backend.resetDevice_of_run ran with ⟨result, server⟩
    exact ⟨record, after, row.reset, rfl, result, shownAfter,
      mirrors.reset, server⟩

/-- Both stores reset the device, or leave everything as it is. -/
theorem Agrees.reset {userID deviceID : String} {now : Time}
    (agrees : Agrees settings ends now calls backend.server)
    (plain : Plain userID) :
    Agrees settings ends now (calls ++ [(now, .resetDevice userID deviceID)])
      (backend.resetDevice settings now userID deviceID).1.server := by
  have self : (memoryOf (calls ++
      [(now, .resetDevice userID deviceID)])).devices.lookup
        (deviceKey userID deviceID) = ((memoryOf calls).devices.lookup
            (deviceKey userID deviceID)).map DeviceRecord.reset := by
    rw [memoryOf_concat]
    exact devices_resetDevice_self userID deviceID _
  have listings : (memoryOf (calls ++
      [(now, .resetDevice userID deviceID)])).listed userID =
        (memoryOf calls).listed userID := by
    rw [memoryOf_concat]
    exact listed_resetDevice userID userID deviceID _
  have kept : ∀ {key : String}, key ≠ stateKey settings userID deviceID →
      (backend.resetDevice settings now userID deviceID).1.server.keys key =
        backend.server.keys key := by
    intro key different
    rcases agrees.resetDevice plain with
      ⟨_, _, server⟩ | ⟨_, _, _, _, _, _, _, server⟩
    · rw [server]
    · rw [server]
      exact keys_set_of_ne different
  apply agrees.of_device (now, .resetDevice userID deviceID) rfl plain
    (fun different _ _ => kept different)
  · rcases agrees.remembers userID deviceID plain with ⟨content, remembers⟩
    rw [visitsOf_concat_other rfl]
    exact ⟨content, remembers.later (Int.le_refl _)
      (kept stateKey_ne_dedupeKey.symm)⟩
  · intro absent
    rw [self, Option.map_eq_none_iff] at absent
    rcases agrees.resetDevice plain with
      ⟨_, _, server⟩ | ⟨record, _, _, found, _⟩
    · rw [server]
      exact agrees.absent userID deviceID plain absent
    · cases found.symm.trans absent
  · intro record present
    rw [self] at present
    rcases Option.map_eq_some_iff.mp present with ⟨before, found, rfl⟩
    have shown := agrees.shown userID deviceID plain before found
    refine ⟨?_, shown.label, listings.symm ▸ shown.listed⟩
    rcases agrees.resetDevice plain with ⟨absent, _⟩ |
        ⟨other, fields, row, foundOther, _, shows_, mirrors, server⟩
    · cases found.symm.trans absent
    · cases found.symm.trans foundOther
      rw [server]
      exact ⟨fields, row, keys_set_self _, shows_, mirrors⟩
  · rw [listings, SetAt, kept stateKey_ne_devicesKey.symm]
    exact agrees.listed userID plain

end Steps

/-- The stores agree after every history that both can run. -/
theorem agrees_replay {ends : Int64 → Time} {calls : List TimedCall}
    (permitted : Permitted settings ends calls) :
    ∀ clock : Time, (∀ call ∈ calls, call.1.nanos ≤ clock.nanos) →
      Agrees settings ends clock calls
        (Backend.replay settings calls).server := by
  induction calls using List.reverseRecOn with
  | nil =>
    intro clock _
    exact {
      remembers := fun _ _ _ => ⟨none, remembers_nothing rfl⟩
      absent := fun _ _ _ _ => rfl
      shown := nofun
      listed := fun _ _ => Or.inl ⟨rfl, rfl⟩ }
  | append_singleton calls call induction =>
    intro clock past
    have before := induction permitted.of_concat call.1 permitted.order
    have plain := permitted.plain call (by simp)
    have small := permitted.sums calls (prefix_append _ _)
    have smallAfter := permitted.sums _ (prefix_refl _)
    have order : call.1.nanos ≤ clock.nanos := past call (by simp)
    rw [Backend.replay_concat]
    rcases call with ⟨now, call⟩
    cases call with
    | resetDevice userID deviceID =>
      exact (before.reset plain).later order
    | applyWindow window =>
      have inside := permitted.inside window.key.userID window.key.deviceID
      rw [@visitsOf_concat_self (now, window) calls] at inside
      by_cases known : Visit.Known (now, window) calls
      · refine (@Agrees.known (now, window) settings ends calls _
          before plain known ?_).later order
        intro other member
        exact (pairwise_append.mp inside).2.2 other member _ mem_cons_self
      · exact (@Agrees.fresh (now, window) settings ends calls _ before
          plain (permitted.reads (now, .applyWindow window) (by simp))
          (permitted.fitting now window (by simp)) known (small _ _)
          (smallAfter _ _)).later order

/-! ## What the stores report -/

section Reports

variable {ends : Int64 → Time} {clock : Time}
variable {calls : List TimedCall} {backend : Backend}
variable {userID : String}

theorem Agrees.deviceState
    (agrees : Agrees settings ends clock calls backend.server)
    (plain : Plain userID) (now : Time) (deviceID : String) :
    (∃ state, (memoryOf calls).deviceState none userID deviceID = .ok state ∧
      backend.deviceState settings now userID deviceID =
        .ok (wholeSeconds state)) ∨
    ((memoryOf calls).deviceState none userID deviceID =
        .error Store.errDeviceNotFound ∧
      backend.deviceState settings now userID deviceID =
        .error errDeviceNotFound) := by
  rw [Memory.deviceState, Backend.deviceState]
  cases found : (memoryOf calls).devices.lookup
      (deviceKey userID deviceID) with
  | none =>
    right
    rw [hashOf_of_absent (agrees.absent userID deviceID plain found)]
    exact ⟨rfl, rfl⟩
  | some record =>
    left
    have shown := agrees.shown userID deviceID plain record found
    rcases shown.hash with ⟨fields, row, stored, shows_, mirrors⟩
    have nonempty : fields.size ≠ 0 := by
      intro empty
      have count := shows_.count
      rw [GoMap.eq_empty_of_size empty, mirrors.count] at count
      cases count
    rw [hashOf_of_live (live_of_keys stored)]
    refine ⟨record.state, rfl, ?_⟩
    simp only [nonempty, if_false]
    rw [stateOf_of_mirrors shows_ mirrors shown.label]

theorem Agrees.userDevices
    (agrees : Agrees settings ends clock calls backend.server)
    (plain : Plain userID) (now : Time) :
    backend.userDevices settings now userID =
      (memoryOf calls).userDevices none userID := by
  rw [Backend.userDevices,
    ((agrees.listed userID plain).membersOf now.nanos).1]
  rfl

end Reports

/--
The two stores report the same states, the same devices and the same devices
as unknown, for every history whose numbers and times Redis can express.
-/
theorem redis_refines_memory
    (settings : Settings) (calls : List TimedCall)
    (admissible : Admissible settings calls)
    (expressible : Expressible settings calls)
    (now : Time) (userID deviceID : String) (plain : Plain userID) :
    let redis := Backend.replay settings calls
    let memory := memoryOf calls
    ((∃ state, memory.deviceState none userID deviceID = .ok state ∧
        redis.deviceState settings now userID deviceID =
          .ok (wholeSeconds state)) ∨
      (memory.deviceState none userID deviceID =
          .error Store.errDeviceNotFound ∧
        redis.deviceState settings now userID deviceID =
          .error errDeviceNotFound)) ∧
    redis.userDevices settings now userID = memory.userDevices none userID ∧
    (((memory.resetDevice none userID deviceID).2 = none ∧
        (redis.resetDevice settings now userID deviceID).2 = none) ∨
      ((memory.resetDevice none userID deviceID).2 =
          some Store.errDeviceNotFound ∧
        (redis.resetDevice settings now userID deviceID).2 =
          some errDeviceNotFound)) := by
  rcases admissible.permitted expressible with ⟨ends, permitted⟩
  rcases exists_later calls with ⟨clock, past⟩
  have agrees := agrees_replay permitted clock past
  refine ⟨agrees.deviceState plain now deviceID,
    agrees.userDevices plain now, ?_⟩
  rcases agrees.resetDevice plain with
    ⟨absent, result, _⟩ | ⟨record, _, _, found, result, _⟩
  · right
    refine ⟨?_, result⟩
    rw [Memory.resetDevice]
    simp only [absent]
  · left
    refine ⟨?_, result⟩
    rw [Memory.resetDevice]
    simp only [found]

/-! ### Histories with small counters -/

/-- Whether a call is about a plain user and a small emission. -/
def tame (ends : Time) : Call → Bool
  | .applyWindow window => Plain window.key.userID ∧ 1 ≤ window.count ∧
      (0 ≤ window.windowID ∧ window.windowID.toInt < 2 ^ 53) ∧
      (window.windowEnd.isZero = false ∧ window.windowEnd = ends) ∧
      window.count.toInt.natAbs ≤ 64 ∧
      window.errorCount.toInt.natAbs ≤ 64 ∧ window.bytes.toInt.natAbs ≤ 64
  | .resetDevice userID _ => Plain userID

theorem natAbs_sum_le
    {values : List Int} (small : ∀ value ∈ values, value.natAbs ≤ 64) :
    values.sum.natAbs ≤ 64 * values.length := by
  induction values with
  | nil => exact le_rfl
  | cons value rest induction =>
    rcases forall_mem_cons.mp small with ⟨first, others⟩
    have bound := induction others
    rw [sum_cons, length_cons]
    omega

theorem exactSum_small
    {calls : List TimedCall} {counter : AggregateWindow → Int64}
    (short : calls.length < 2 ^ 40)
    (small : ∀ time window, (time, .applyWindow window) ∈ calls →
      (counter window).toInt.natAbs ≤ 64) (key : String) :
    (exactSum counter key calls).natAbs < 2 ^ 53 := by
  have sublist := counted_sublist_deliveries key (calls.map Prod.snd)
  have length := sublist.length_le.trans (length_filterMap_le _ _)
  rw [length_map] at length
  have each : ∀ value ∈ (counted key (calls.map Prod.snd)).map fun window =>
      (counter window).toInt, value.natAbs ≤ 64 := by
    intro value listed
    rcases mem_map.mp listed with ⟨window, member, rfl⟩
    rcases mem_filterMap.mp (sublist.subset member) with ⟨call, called, made⟩
    rcases mem_map.mp called with ⟨⟨time, _⟩, timed, rfl⟩
    rcases eq_of_delivers made with ⟨rfl, _⟩
    exact small time window timed
  have bound := natAbs_sum_le each
  rw [length_map] at bound
  rw [exactSum]
  omega

theorem ordinary_of_tame {calls : List TimedCall} {ends : Time}
    (tamed : ∀ call ∈ calls, tame ends call.2 = true)
    (short : calls.length < 2 ^ 40) : Ordinary calls := by
  have small : ∀ time window, (time, .applyWindow window) ∈ calls → _ :=
    fun time window member => of_decide_eq_true (tamed _ member)
  constructor
  · rintro ⟨time, window | ⟨userID, deviceID⟩⟩ member
    · exact (small time window member).1
    · exact of_decide_eq_true (tamed _ member)
  · exact fun time window member => (small time window member).2.1
  · exact fun time window member => (small time window member).2.2.1
  · exact ⟨fun _ => ends, fun time window member =>
      (small time window member).2.2.2.1⟩
  · intro time window member
    have counts := (small time window member).2.2.2.2
    omega
  · intro earlier begins userID deviceID
    have fewer := begins.length_le
    have sums : ∀ counter : AggregateWindow → Int64,
        (∀ time window, (time, .applyWindow window) ∈ calls →
          (counter window).toInt.natAbs ≤ 64) →
        (exactSum counter (deviceKey userID deviceID) earlier).natAbs <
          2 ^ 53 :=
      fun counter bound => exactSum_small (by omega)
        (fun time window member => bound time window
          (begins.subset member)) _
    refine ⟨sums _ ?_, sums _ ?_, sums _ ?_⟩
    · exact fun time window member => (small time window member).2.2.2.2.1
    · exact fun time window member => (small time window member).2.2.2.2.2.1
    · exact fun time window member => (small time window member).2.2.2.2.2.2

/-- An emission, a reset and the emission once more. -/
def timedCalls : List TimedCall :=
  [(⟨1700000000000000000⟩, .applyWindow (exampleWindow "device-1")),
    (⟨1700000001000000000⟩, .resetDevice "user-1" "device-1"),
    (⟨1700000002000000000⟩, .applyWindow (exampleWindow "device-1"))]

theorem redis_refines_memory_example : ∃ state,
      (memoryOf timedCalls).deviceState none "user-1" "device-1" = .ok state ∧
        (Backend.replay exampleSettings timedCalls).deviceState
            exampleSettings ⟨1700000003000000000⟩ "user-1" "device-1" =
          .ok (wholeSeconds state) := by
  have ends : ∀ time window, (time, .applyWindow window) ∈ timedCalls →
      window.windowEnd.after Time.zero = true ∧
        window.windowEnd.unixSeconds < 253402300800 := by
    simp only [timedCalls, mem_cons, Prod.mk.injEq,
      Call.applyWindow.injEq, not_mem_nil, or_false, reduceCtorEq,
      and_false, false_or]
    rintro time window (⟨_, rfl⟩ | ⟨_, rfl⟩)
    · decide
    · decide
  have reads : ∀ call ∈ timedCalls, call.1.unixSeconds.natAbs < 2 ^ 53 ∧
      (call.1.unixSeconds - exampleSettings.ttl).natAbs < 2 ^ 53 := by
    decide
  have admissible : Admissible exampleSettings timedCalls :=
    ⟨@ordinary_of_tame _ ⟨1700000010000000000⟩ (by decide) (by decide),
      by decide, by decide⟩
  have expressible : Expressible exampleSettings timedCalls :=
    ⟨ends, fun call member => ⟨(reads call member).1, (reads call member).2⟩⟩
  rcases (redis_refines_memory exampleSettings timedCalls admissible
    expressible ⟨1700000003000000000⟩ "user-1" "device-1"
    (by decide)).1 with same | ⟨missing, _⟩
  · exact same
  · exact absurd missing (by decide)

/-! ### Histories on which the stores differ -/

/-- An emission at one time, another at a second, the first at a third. -/
def repeated (first second third : Int) : List TimedCall :=
  [(⟨first⟩, .applyWindow (exampleWindow "device-1")),
    (⟨second⟩, .applyWindow { exampleWindow "device-1" with sequence := 43 }),
    (⟨third⟩, .applyWindow (exampleWindow "device-1"))]

/-- A window that ends when the year 10000 begins. -/
def lateCalls : List TimedCall :=
  [(⟨1700000000000000000⟩, .applyWindow { exampleWindow "device-1" with
    windowEnd := ⟨253402300800000000000⟩ })]

/-- Every redelivery comes inside the time to live. -/
def InsideTTL (settings : Settings) (calls : List TimedCall) : Prop :=
  calls.Pairwise fun earlier later => redelivers earlier.2 later.2 = true →
    later.1.nanos < earlier.1.nanos + (settings.ttl : Int) * 1000000000

instance (settings : Settings) (calls : List TimedCall) :
    Decidable (InsideTTL settings calls) :=
  inferInstanceAs (Decidable (List.Pairwise _ calls))

/-- What the two stores report of the device. -/
def reports (calls : List TimedCall) :
    Option DeviceState × Option DeviceState :=
  (((Backend.replay exampleSettings calls).deviceState exampleSettings
      ⟨1700030000000000000⟩ "user-1" "device-1").toOption,
    ((memoryOf calls).deviceState none "user-1" "device-1").toOption)

/--
A redelivery 21599.2 seconds after the emission, with a time to live of 21600,
is counted again: the script has trimmed the identity by a reading in whole
seconds.  So is one after a clock that was set back.  The end of a window is
stored with four digits for the year, and a later year cannot be read back.
-/
theorem redis_differs_from_memory :
    let seconds := repeated 1700000000900000000 1700021600050000000
      1700021600100000000
    let setBack := repeated 1700000000000000000 1700030000000000000
      1700000100000000000
    (∀ calls ∈ [seconds, setBack, lateCalls],
      Ordinary calls ∧ InsideTTL exampleSettings calls) ∧
    (∀ calls ∈ [seconds, setBack],
      (reports calls).1.map DeviceState.count = some 3 ∧
        (reports calls).2.map DeviceState.count = some 2) ∧
    seconds.Pairwise (fun earlier later =>
      earlier.1.nanos ≤ later.1.nanos) ∧
    (reports lateCalls).1.map DeviceState.lastSeen = some Time.zero ∧
    (reports lateCalls).1 ≠ (reports lateCalls).2.map wholeSeconds := by
  intro seconds setBack
  refine ⟨?_, by decide, by decide, by decide, by decide⟩
  refine forall_mem_cons.mpr ⟨⟨?_, by decide⟩, forall_mem_cons.mpr
    ⟨⟨?_, by decide⟩, forall_mem_singleton.mpr ⟨?_, by decide⟩⟩⟩
  · exact @ordinary_of_tame _ ⟨1700000010000000000⟩ (by decide) (by decide)
  · exact @ordinary_of_tame _ ⟨1700000010000000000⟩ (by decide) (by decide)
  · exact @ordinary_of_tame _ ⟨253402300800000000000⟩ (by decide) (by decide)

end Ironclaw.RedisStore
