import Ironclaw.RedisStore.Refinement

/-!
# Scripts that abort

The apply script remembers the identity, lists the device and names the hash
before the increments, which Redis refuses when a counter would leave 64 bits.
What was written before the refused command stays written, so a redelivery is
taken for a duplicate.

An abort leaves everything as it was exactly where nothing was written: the
store remembers no identity because its time to live is no whole second, the
device is listed, and the increments before the refused one add zero.
-/

namespace Ironclaw.RedisStore

open Lib Lib.Redis Domain Store Script Server Backend Option

variable {settings : Settings} {visit : Visit} {server : Server} {row : Row}

/-! ## Rows -/

/-- The fields of a row are written in their order. -/
structure Row.Whole (row : Row) : Prop where
  named : row.count.isSome → row.userID.isSome ∧ row.deviceID.isSome
  count : row.errorCount.isSome → row.count.isSome
  errorCount : row.bytes.isSome → row.errorCount.isSome

theorem whole_empty : Row.empty.Whole := ⟨nofun, nofun, nofun⟩

theorem Row.Whole.tally (whole : row.Whole) (argv : Argv) :
    (row.tally argv).1.Whole := by
  have ended := tallied argv row
  generalize row.tally argv = result at ended ⊢
  cases ended with
  | count => exact ⟨fun _ => ⟨rfl, rfl⟩, whole.count, whole.errorCount⟩
  | errorCount =>
    exact ⟨fun _ => ⟨rfl, rfl⟩, fun _ => rfl, whole.errorCount⟩
  | bytes | done => exact ⟨fun _ => ⟨rfl, rfl⟩, fun _ => rfl, fun _ => rfl⟩

theorem Row.Whole.rank (whole : row.Whole) (argv : Argv) :
    (row.rank argv).Whole := by
  simp only [Row.rank, Row.see, Row.sample]
  split_ifs <;> exact ⟨whole.named, whole.count, whole.errorCount⟩

theorem Row.Whole.reset (whole : row.Whole) (present : row.count.isSome) :
    row.reset.Whole :=
  ⟨fun _ => whole.named present, fun _ => rfl, fun _ => rfl⟩

theorem Row.Whole.name_eq
    {argv : Argv} (whole : row.Whole) (present : row.count.isSome) :
    row.name argv = row := by
  rcases whole.named present with ⟨userID, deviceID⟩
  rcases isSome_iff_exists.mp userID with ⟨user, userID⟩
  rcases isSome_iff_exists.mp deviceID with ⟨device, deviceID⟩
  rw [Row.name, userID, deviceID, getD_some, getD_some, ← userID, ← deviceID]

/-- A counter that is refused exists, as what is added has 64 bits. -/
theorem isSome_of_overflow {counter : Option Int} {amount : Int64}
    (exceeds : inRange (counter.getD 0 + amount.toInt) = false) :
    counter.isSome := by
  cases counter with
  | none =>
    have lower := Int64.le_toInt amount
    have upper := Int64.toInt_lt amount
    rw [getD_none, zero_add, inRange, decide_eq_false_iff_not] at exceeds
    omega
  | some number => rfl

theorem isSome_count_tally (row : Row) :
    (row.tally (visit.argv settings)).1.count.isSome := by
  have ended := tallied (visit.argv settings) row
  generalize row.tally (visit.argv settings) = result at ended ⊢
  cases ended with
  | count exceeds => exact isSome_of_overflow exceeds
  | errorCount | bytes | done => rfl

theorem some_add_eq_iff
    {counter : Option Int} {amount : Int64} (present : counter.isSome) :
    some (counter.getD 0 + amount.toInt) = counter ↔ amount = 0 := by
  rcases isSome_iff_exists.mp present with ⟨number, rfl⟩
  have zero := @Int64.toInt_inj amount 0
  rw [getD_some, some_inj, ← zero]
  change _ ↔ amount.toInt = 0
  omega

/-- The increments before the refused one add nothing. -/
def Row.Stops (window : AggregateWindow) (row : Row) : Prop :=
  inRange (row.count.getD 0 + window.count.toInt) = false ∨
    (window.count = 0 ∧
      (inRange (row.errorCount.getD 0 + window.errorCount.toInt) = false ∨
        window.errorCount = 0))

/-- An abort keeps the row exactly where the increments before it are zero. -/
theorem Row.Whole.tally_kept (whole : row.Whole)
    (refused : (row.tally (visit.argv settings)).2 = false) :
    (row.Stops visit.2 → (row.tally (visit.argv settings)).1 = row) ∧
      ((row.tally (visit.argv settings)).1.count = row.count →
        (row.tally (visit.argv settings)).1.errorCount = row.errorCount →
          row.Stops visit.2) := by
  have ended := tallied (visit.argv settings) row
  generalize row.tally (visit.argv settings) = result at ended refused ⊢
  cases ended with
  | done => cases refused
  | count exceeds =>
    exact ⟨fun _ => whole.name_eq (isSome_of_overflow exceeds),
      fun _ _ => Or.inl exceeds⟩
  | errorCount count exceeds =>
    have present := whole.count (isSome_of_overflow exceeds)
    rw [whole.name_eq present]
    constructor
    · rintro (refused | ⟨zero, -⟩)
      · cases count.symm.trans refused
      · exact congrArg (fun count => { row with count := count })
          ((some_add_eq_iff present).mpr zero)
    · intro same _
      exact Or.inr ⟨(some_add_eq_iff present).mp same, Or.inl exceeds⟩
  | bytes count errorCount exceeds =>
    have errors := whole.errorCount (isSome_of_overflow exceeds)
    have present := whole.count errors
    rw [whole.name_eq present]
    constructor
    · rintro (refused | ⟨zero, refused | none⟩)
      · cases count.symm.trans refused
      · cases errorCount.symm.trans refused
      · exact congrArg₂
          (fun count errors =>
            { row with count := count, errorCount := errors })
          ((some_add_eq_iff present).mpr zero)
          ((some_add_eq_iff errors).mpr none)
    · intro same sameErrors
      exact Or.inr ⟨(some_add_eq_iff present).mp same,
        Or.inr ((some_add_eq_iff errors).mp sameErrors)⟩

/-! ## What every history leaves -/

/-- The keys of every device hold what the scripts write, or nothing. -/
structure Typed (settings : Settings) (server : Server) : Prop where
  dedupe : ∀ userID deviceID,
    server.keys (dedupeKey settings userID deviceID) = none ∨
      (settings.ttl ≠ 0 ∧ ∃ scores deadline,
        server.keys (dedupeKey settings userID deviceID) =
          some ⟨.scored scores, deadline⟩)
  devices : ∀ userID, ∃ elements,
    SetAt server (devicesKey settings userID) elements
  state : ∀ userID deviceID, ∃ row,
    HashAt server (stateKey settings userID deviceID) row ∧ row.Whole

theorem typed_new (settings : Settings) : Typed settings Server.empty where
  dedupe _ _ := Or.inl rfl
  devices _ := ⟨∅, Or.inl ⟨rfl, rfl⟩⟩
  state _ _ := ⟨Row.empty, Or.inl ⟨rfl, rfl⟩, whole_empty⟩

theorem SetAt.of_keys
    {key : String} {elements : Finset String} {after : Server}
    (stored : SetAt server key elements)
    (same : after.keys key = server.keys key) : SetAt after key elements := by
  rw [SetAt, same]
  exact stored

theorem HashAt.of_keys
    {key : String} {after : Server} (stored : HashAt server key row)
    (same : after.keys key = server.keys key) : HashAt after key row := by
  rw [HashAt, same]
  exact stored

/-- A script that writes another row of a device. -/
theorem Typed.set_state
    {fields : GoMap String String} (typed : Typed settings server)
    (userID deviceID : String) (shown : Shows fields row)
    (present : row.count.isSome) (whole : row.Whole) :
    Typed settings (server.set (stateKey settings userID deviceID)
      (some ⟨.hash fields, none⟩)) where
  dedupe user device := by
    rw [keys_set_of_ne stateKey_ne_dedupeKey.symm]
    exact typed.dedupe user device
  devices user := by
    rcases typed.devices user with ⟨elements, stored⟩
    exact ⟨elements,
      stored.of_keys (keys_set_of_ne stateKey_ne_devicesKey.symm)⟩
  state user device := by
    by_cases same : stateKey settings user device =
        stateKey settings userID deviceID
    · refine ⟨row, Or.inr ⟨fields, ?_, shown, present⟩, whole⟩
      rw [same, keys_set_self]
    · rcases typed.state user device with ⟨other, stored, old⟩
      exact ⟨other, stored.of_keys (keys_set_of_ne same), old⟩

section Visits

variable {elements : Finset String} {scores : GoMap String Int}
variable {fields : GoMap String String}

/-- The keys of the script for a visit. -/
def Visit.keys (settings : Settings) (visit : Visit) : ScriptKeys :=
  scriptKeys settings visit.2.key.userID visit.2.key.deviceID

theorem Visit.apart (settings : Settings) (visit : Visit) :
    (visit.keys settings).Apart :=
  apart_scriptKeys settings _ _

/-- The server after the identity, the listing and the row are written. -/
def written (settings : Settings) (visit : Visit) (scores : GoMap String Int)
    (elements : Finset String) (fields : GoMap String String)
    (server : Server) : Server :=
  (listing (visit.keys settings) (visit.argv settings) visit.1.nanos scores
    elements server).set (visit.stateKey settings)
      (some ⟨.hash fields, none⟩)

theorem keys_written_dedupe :
    (written settings visit scores elements fields server).keys
        (visit.dedupeKey settings) =
      remembered visit.identity visit.1.unixSeconds settings.ttl
        visit.1.nanos scores :=
  (keys_set_of_ne stateKey_ne_dedupeKey.symm).trans
    (keys_listing_dedupe (visit.apart settings))

theorem Typed.written (typed : Typed settings server) (visit : Visit)
    (scores : GoMap String Int) (elements : Finset String)
    (shown : Shows fields row) (present : row.count.isSome)
    (whole : row.Whole) :
    Typed settings
      (written settings visit scores elements fields server) := by
  refine Typed.set_state ⟨?_, ?_, ?_⟩ _ _ shown present whole
  · intro user device
    by_cases same : dedupeKey settings user device = visit.dedupeKey settings
    · have kept : (listing (visit.keys settings) (visit.argv settings)
          visit.1.nanos scores elements server).keys
            (visit.dedupeKey settings) = remembered visit.identity
              visit.1.unixSeconds settings.ttl visit.1.nanos scores :=
        keys_listing_dedupe (visit.apart settings)
      rw [same, kept, remembered]
      split
      · exact Or.inl rfl
      · exact Or.inr ⟨by omega, _, _, rfl⟩
    · rw [keys_listing_of_ne same dedupeKey_ne_devicesKey]
      exact typed.dedupe user device
  · intro user
    by_cases same : devicesKey settings user = visit.devicesKey settings
    · rw [same]
      exact ⟨_, Or.inr (keys_set_self _)⟩
    · rcases typed.devices user with ⟨known, stored⟩
      exact ⟨known, stored.of_keys
        (keys_listing_of_ne dedupeKey_ne_devicesKey.symm same)⟩
  · intro user device
    rcases typed.state user device with ⟨other, stored, old⟩
    exact ⟨other, stored.of_keys (keys_listing_of_ne
      stateKey_ne_dedupeKey stateKey_ne_devicesKey), old⟩

/-- What the script of a visit finds. -/
structure Finds
    (settings : Settings) (visit : Visit) (row : Row)
    (elements : Finset String) (scores : GoMap String Int)
    (server : Server) : Prop where
  scored : server.scoredOf visit.1.nanos (visit.dedupeKey settings) =
    some scores
  nothing : settings.ttl = 0 → scores = ∅
  set : SetAt server (visit.devicesKey settings) elements
  hash : HashAt server (visit.stateKey settings) row
  whole : row.Whole

theorem Typed.finds (typed : Typed settings server) (visit : Visit) :
    ∃ row elements scores,
      Finds settings visit row elements scores server := by
  rcases typed.devices visit.2.key.userID with ⟨elements, set⟩
  rcases typed.state visit.2.key.userID visit.2.key.deviceID with
    ⟨row, hash, whole⟩
  cases live : server.live visit.1.nanos (visit.dedupeKey settings) with
  | none =>
    exact ⟨row, elements, ∅, by rw [scoredOf, live], fun _ => rfl, set, hash,
      whole⟩
  | some kept =>
    have held := (filter_eq_some_iff.mp live).1
    rcases typed.dedupe visit.2.key.userID visit.2.key.deviceID with
      absent | ⟨positive, scores, deadline, stored⟩
    · cases absent.symm.trans held
    · cases stored.symm.trans held
      exact ⟨row, elements, scores, scoredOf_of_live live,
        fun zero => absurd zero positive, set, hash, whole⟩

/-! ## One emission -/

/-- How the script of an emission ends. -/
inductive Ends
    (settings : Settings) (visit : Visit) (row : Row)
    (elements : Finset String) (scores : GoMap String Int)
    (before : Server) : Server × Except Failure Int → Prop where
  | known (score : Int) (listed : scores.lookup visit.identity = some score) :
      Ends settings visit row elements scores before (before, .ok 0)
  | applied (fields : GoMap String String)
      (fits : row.Fits (visit.argv settings))
      (shown : Shows fields
        ((row.add (visit.argv settings)).rank (visit.argv settings))) :
      Ends settings visit row elements scores before
        ((written settings visit scores elements fields before).publish
          (visit.keys settings).updates
          (numberText (visit.argv settings).windowID), .ok 1)
  | aborted (fields : GoMap String String)
      (fresh : scores.lookup visit.identity = none)
      (refused : (row.tally (visit.argv settings)).2 = false)
      (shown : Shows fields (row.tally (visit.argv settings)).1) :
      Ends settings visit row elements scores before
        (written settings visit scores elements fields before,
          .error .overflow)

/-- The script of a visit. -/
def Visit.run (settings : Settings) (visit : Visit) (server : Server) :
    Server × Except Failure Int :=
  (applyWindowScript (visit.keys settings) (visit.argv settings)).run
    visit.1.nanos server

theorem Finds.ends (finds : Finds settings visit row elements scores server)
    (reads : settings.Reads visit.1) :
    Ends settings visit row elements scores server
      (visit.run settings server) := by
  have exact : (visit.argv settings).Exact := reads.exact visit.2
  cases fresh : scores.lookup visit.identity with
  | some score =>
    rw [Visit.run, run_applyWindowScript_known finds.scored fresh]
    exact Ends.known score fresh
  | none =>
    by_cases fits : row.Fits (visit.argv settings)
    · rcases run_applyWindowScript_fresh (visit.apart settings) exact
        finds.scored fresh finds.hash finds.set fits with ⟨fields, shown, ran⟩
      rw [Visit.run, ran]
      exact Ends.applied fields fits shown
    · have refused := not_fits_iff.mp fits
      rcases run_applyWindowScript_overflow (visit.apart settings) exact
        finds.scored fresh finds.hash finds.set refused with
        ⟨fields, shown, ran⟩
      rw [Visit.run, ran]
      exact Ends.aborted fields fresh refused shown

theorem applyWindow_run (backend : Backend) :
    (backend.applyWindow settings visit.1 visit.2).1.server =
        (visit.run settings backend.server).1 ∧
      ((backend.applyWindow settings visit.1 visit.2).2.isSome ↔
        ∃ failure, (visit.run settings backend.server).2 =
          .error failure) := by
  rw [applyWindow, ← Visit.keys, ← Visit.argv, ← Visit.run]
  rcases visit.run settings backend.server with ⟨after, failure | reply⟩
  · exact ⟨rfl, iff_of_true rfl ⟨failure, rfl⟩⟩
  · simp only
    split
    · exact ⟨rfl, by simp⟩
    · exact ⟨rfl, by simp⟩

/-- Every emission and every reset keeps the kinds of the keys. -/
theorem Typed.perform
    {backend : Backend} (typed : Typed settings backend.server)
    {call : TimedCall} (reads : settings.Reads call.1) :
    Typed settings (backend.perform settings call).server := by
  rcases call with ⟨now, window | ⟨userID, deviceID⟩⟩
  · rcases typed.finds (now, window) with ⟨row, elements, scores, finds⟩
    have ended := finds.ends reads
    have same := (@applyWindow_run settings (now, window) backend).1
    generalize Visit.run settings (now, window) backend.server = result
      at ended same
    change Typed settings (backend.applyWindow settings now window).1.server
    rw [same]
    cases ended with
    | known => exact typed
    | aborted fields fresh refused shown =>
      exact typed.written _ _ _ shown (isSome_count_tally row)
        (finds.whole.tally _)
    | applied fields fits shown =>
      have whole := finds.whole.tally (Visit.argv settings (now, window))
      rw [fits.tally_eq] at whole
      have after := typed.written (now, window) scores elements shown
        (by rw [(Row.counters_rank _ _).1]; rfl) (whole.rank _)
      exact ⟨after.dedupe, after.devices, after.state⟩
  · change Typed settings
      (backend.resetDevice settings now userID deviceID).1.server
    rcases typed.state userID deviceID with ⟨row, stored, whole⟩
    rcases stored with ⟨absent, -⟩ | ⟨fields, held, shown, present⟩
    · rw [(resetDevice_of_run (run_resetDeviceScript_absent absent)).2]
      exact typed
    · rcases run_resetDeviceScript_present held shown with
        ⟨after, shownAfter, ran⟩
      have reset := typed.set_state userID deviceID shownAfter rfl
        (whole.reset present)
      rw [(resetDevice_of_run ran).2]
      exact ⟨reset.dedupe, reset.devices, reset.state⟩

theorem typed_replay {calls : List TimedCall}
    (reads : ∀ call ∈ calls, settings.Reads call.1) :
    Typed settings (replay settings calls).server := by
  induction calls using List.reverseRecOn with
  | nil => exact typed_new settings
  | append_singleton calls call induction =>
    have before := induction fun earlier member =>
      reads earlier (List.mem_append_left _ member)
    rw [replay_concat]
    exact before.perform (reads call (by simp))

/-! ## An abort that leaves nothing behind -/

section Device

variable (settings : Settings) (visit : Visit)

/-- The hash, the identities and the listing of a device are as they were. -/
structure Untouched (before after : Server) : Prop where
  hash : ∀ field,
    (after.hashOf visit.1.nanos (visit.stateKey settings)).map
        (AList.lookup field) =
      (before.hashOf visit.1.nanos (visit.stateKey settings)).map
        (AList.lookup field)
  dedupe : ∀ identity,
    (after.scoredOf visit.1.nanos (visit.dedupeKey settings)).map
        (AList.lookup identity) =
      (before.scoredOf visit.1.nanos (visit.dedupeKey settings)).map
        (AList.lookup identity)
  devices : after.membersOf visit.1.nanos (visit.devicesKey settings) =
    before.membersOf visit.1.nanos (visit.devicesKey settings)

/-- Whether a counter of the device has 64 bits with an amount added. -/
def hasRoom (server : Server) (field : String) (amount : Int64) : Bool :=
  (counterOf server visit.1.nanos (visit.stateKey settings) field).any
    fun number => inRange (number + amount.toInt)

/--
The identity is remembered, or every counter has room, or nothing is written
before the increment that is refused.
-/
def Harmless (server : Server) : Prop :=
  (∃ scores score,
    server.scoredOf visit.1.nanos (visit.dedupeKey settings) = some scores ∧
      scores.lookup visit.identity = some score) ∨
  (hasRoom settings visit server "count" visit.2.count ∧
    hasRoom settings visit server "error_count" visit.2.errorCount ∧
    hasRoom settings visit server "bytes" visit.2.bytes) ∨
  (settings.ttl = 0 ∧
    (∃ elements,
      server.membersOf visit.1.nanos (visit.devicesKey settings) =
        some elements ∧ visit.2.key.deviceID ∈ elements) ∧
    (hasRoom settings visit server "count" visit.2.count = false ∨
      (visit.2.count = 0 ∧
        (hasRoom settings visit server "error_count" visit.2.errorCount =
          false ∨ visit.2.errorCount = 0))))

end Device

theorem Shows.lookup_eq
    {others : GoMap String String} (shown : Shows fields row)
    (same : Shows others row) (field : String) :
    fields.lookup field = others.lookup field := by
  by_cases member : field ∈ deviceFields
  · simp only [deviceFields, List.mem_cons, List.not_mem_nil,
      or_false] at member
    rcases member with rfl | rfl | rfl | rfl | rfl | rfl | rfl | rfl | rfl |
      rfl
    · exact shown.userID.trans same.userID.symm
    · exact shown.deviceID.trans same.deviceID.symm
    · exact shown.count.trans same.count.symm
    · exact shown.errorCount.trans same.errorCount.symm
    · exact shown.bytes.trans same.bytes.symm
    · exact shown.p95Nanos.trans same.p95Nanos.symm
    · exact shown.p99Nanos.trans same.p99Nanos.symm
    · exact shown.lastWindowID.trans same.lastWindowID.symm
    · exact shown.percentileSample.trans same.percentileSample.symm
    · exact shown.lastSeen.trans same.lastSeen.symm
  · rw [shown.only field member, same.only field member]

theorem map_numberText_injective :
    Function.Injective (Option.map numberText) := by
  apply Option.map_injective
  intro left right same
  have read := congrArg readInt same
  rw [readInt_numberText, readInt_numberText] at read
  exact some.inj read

theorem hashOf_written :
    (written settings visit scores elements fields server).hashOf
        visit.1.nanos (visit.stateKey settings) = some fields :=
  hashOf_of_live (live_of_keys (keys_set_self _))

theorem membersOf_written :
    (written settings visit scores elements fields server).membersOf
        visit.1.nanos (visit.devicesKey settings) =
      some (insert visit.2.key.deviceID elements) :=
  (membersOf_set_of_ne stateKey_ne_devicesKey.symm).trans
    (membersOf_of_live (live_of_keys (keys_set_self _)))

theorem scoredOf_written :
    (written settings visit scores elements fields server).scoredOf
        visit.1.nanos (visit.dedupeKey settings) =
      some (if settings.ttl = 0 then ∅
        else scoresAbove (visit.1.unixSeconds - settings.ttl)
          (scores.insert visit.identity visit.1.unixSeconds)) := by
  have stored := @keys_written_dedupe settings visit server elements scores
    fields
  rw [remembered] at stored
  split at stored
  · rw [if_pos (by omega), scoredOf, live_of_absent stored]
  · rw [if_neg (by omega)]
    apply scoredOf_of_live
    rw [live, stored, filter_some, if_pos]
    simp only [Held.expired, any_some, Bool.not_eq_true',
      decide_eq_false_iff_not]
    omega

namespace Finds

variable (finds : Finds settings visit row elements scores server)
include finds

theorem hasRoom_eq :
    hasRoom settings visit server "count" visit.2.count =
        inRange (row.count.getD 0 + visit.2.count.toInt) ∧
      hasRoom settings visit server "error_count" visit.2.errorCount =
        inRange (row.errorCount.getD 0 + visit.2.errorCount.toInt) ∧
      hasRoom settings visit server "bytes" visit.2.bytes =
        inRange (row.bytes.getD 0 + visit.2.bytes.toInt) := by
  rcases finds.hash.counters visit.1.nanos with ⟨count, errorCount, bytes⟩
  simp only [hasRoom, count, errorCount, bytes, any_some, and_self]

variable (fresh : scores.lookup visit.identity = none)
include fresh

/-- A store with a time to live remembers the identity. -/
theorem forgets
    (untouched : Untouched settings visit server
      (written settings visit scores elements fields server)) :
    settings.ttl = 0 := by
  by_contra positive
  have remembers := untouched.dedupe visit.identity
  rw [scoredOf_written, if_neg positive, finds.scored, map_some, map_some,
    fresh, some_inj] at remembers
  have listed : (scoresAbove (visit.1.unixSeconds - settings.ttl)
      (scores.insert visit.identity visit.1.unixSeconds)).lookup
        visit.identity = some visit.1.unixSeconds :=
    lookup_scoresAbove.mpr ⟨AList.lookup_insert _, by omega⟩
  cases listed.symm.trans remembers

/-- What the script has written when an increment is refused. -/
theorem untouched_iff (refused : (row.tally (visit.argv settings)).2 = false)
    (shown : Shows fields (row.tally (visit.argv settings)).1) :
    Untouched settings visit server
        (written settings visit scores elements fields server) ↔
      Harmless settings visit server := by
  rcases finds.hash.hashOf visit.1.nanos with ⟨before, shownBefore, held, -⟩
  have members := (finds.set.membersOf visit.1.nanos).1
  have kept := finds.whole.tally_kept refused
  rcases finds.hasRoom_eq with ⟨count, errorCount, bytes⟩
  rw [Harmless, count, errorCount, bytes]
  constructor
  · intro untouched
    have listed := untouched.devices
    rw [membersOf_written, members, some_inj,
      Finset.insert_eq_self] at listed
    have same : ∀ field, fields.lookup field = before.lookup field := by
      intro field
      have equal := untouched.hash field
      rw [hashOf_written, held] at equal
      exact some.inj equal
    refine Or.inr (Or.inr ⟨finds.forgets fresh untouched,
      ⟨elements, members, listed⟩, kept.2 ?_ ?_⟩)
    · apply map_numberText_injective
      rw [← shown.count, ← shownBefore.count, same]
    · apply map_numberText_injective
      rw [← shown.errorCount, ← shownBefore.errorCount, same]
  · rintro (⟨others, score, same, listed⟩ | ⟨fits, errors, bytes⟩ |
      ⟨forgets, ⟨others, same, listed⟩, stops⟩)
    · cases finds.scored.symm.trans same
      cases fresh.symm.trans listed
    · exact absurd ⟨fits, errors, bytes⟩ (not_fits_iff.mpr refused)
    · cases members.symm.trans same
      rw [kept.1 stops] at shown
      refine ⟨?_, ?_, ?_⟩
      · intro field
        rw [hashOf_written, held, map_some, map_some,
          shown.lookup_eq shownBefore]
      · intro identity
        rw [scoredOf_written, if_pos forgets, finds.scored,
          finds.nothing forgets]
      · rw [membersOf_written, members, Finset.insert_eq_of_mem listed]

end Finds

/-- A store without a time to live takes nothing for a duplicate. -/
theorem Typed.not_duplicate
    (typed : Typed settings server) (forgets : settings.ttl = 0)
    (reads : settings.Reads visit.1) :
    (visit.run settings server).2 ≠ .ok 0 := by
  rcases typed.finds visit with ⟨row, elements, scores, finds⟩
  have ended := finds.ends reads
  generalize visit.run settings server = result at ended ⊢
  cases ended with
  | known score listed =>
    rw [finds.nothing forgets] at listed
    cases listed
  | applied => exact nofun
  | aborted => exact nofun

end Visits

/--
In every state that a store reaches, an emission whose script aborts leaves
the hash, the identities and the listing of the device as they were, and its
redelivery is not taken for a duplicate, exactly under the condition: where
the script does abort, the store has no whole second to live, the device is
listed, and the increments before the refused one add zero.
-/
theorem aborted_apply_changes_nothing
    (settings : Settings) (calls : List TimedCall)
    (reads : ∀ call ∈ calls, settings.Reads call.1) (now : Time)
    (reading : settings.Reads now) (window : AggregateWindow) :
    let backend := Backend.replay settings calls
    let result := backend.applyWindow settings now window
    (result.2.isSome →
      Untouched settings (now, window) backend.server result.1.server ∧
        ∀ later, settings.Reads later →
          (Visit.run settings (later, window) result.1.server).2 ≠ .ok 0) ↔
      Harmless settings (now, window) backend.server := by
  intro backend result
  have typed : Typed settings backend.server := typed_replay reads
  have typedAfter : Typed settings result.1.server :=
    @Typed.perform settings backend typed (now, .applyWindow window) reading
  rcases typed.finds (now, window) with ⟨row, elements, scores, finds⟩
  have ended := finds.ends reading
  have ran := @applyWindow_run settings (now, window) backend
  generalize Visit.run settings (now, window) backend.server = outcome
    at ended ran
  rw [show result.1.server = outcome.1 from ran.1] at typedAfter ⊢
  rw [show result.2.isSome = true ↔ _ from ran.2]
  cases ended with
  | known score listed =>
    apply iff_of_true
    · rintro ⟨_, same⟩
      cases same
    · exact Or.inl ⟨scores, score, finds.scored, listed⟩
  | applied fields fits shown =>
    rcases finds.hasRoom_eq with ⟨count, errorCount, bytes⟩
    apply iff_of_true
    · rintro ⟨_, same⟩
      cases same
    · rw [Harmless, count, errorCount, bytes]
      exact Or.inr (Or.inl ⟨fits.count, fits.errorCount, fits.bytes⟩)
  | aborted fields fresh refused shown =>
    have condition := finds.untouched_iff fresh refused shown
    constructor
    · intro safe
      exact condition.mp (safe ⟨_, rfl⟩).1
    · intro harmless _
      have untouched := condition.mpr harmless
      refine ⟨untouched, fun later => ?_⟩
      exact @Typed.not_duplicate settings (later, window) _ typedAfter
        (finds.forgets fresh untouched)

/-- A store whose time to live is shorter than a second. -/
def briefSettings : Settings := ⟨"ironclaw", 0, by decide⟩

/-- An emission that fills the count of its device. -/
def fillingCalls : List TimedCall :=
  [(⟨1700000000000000000⟩, .applyWindow
    { exampleWindow "device-1" with count := 9223372036854775807 })]

/-- The next emission of the device. -/
def refusedWindow : AggregateWindow :=
  { exampleWindow "device-1" with sequence := 43 }

theorem aborted_apply_changes_nothing_example :
    let backend := Backend.replay briefSettings fillingCalls
    let aborted := backend.applyWindow briefSettings
      ⟨1700000001000000000⟩ refusedWindow
    aborted.2.isSome ∧ Untouched briefSettings
      (⟨1700000001000000000⟩, refusedWindow) backend.server
        aborted.1.server := by
  intro backend aborted
  have failed : aborted.2.isSome := by decide
  have reads : ∀ call ∈ fillingCalls, briefSettings.Reads call.1 := by
    intro call member
    cases List.mem_singleton.mp member
    exact ⟨by decide, by decide⟩
  have condition := aborted_apply_changes_nothing briefSettings fillingCalls
    reads ⟨1700000001000000000⟩ ⟨by decide, by decide⟩ refusedWindow
  have harmless : Harmless briefSettings
      (⟨1700000001000000000⟩, refusedWindow) backend.server :=
    Or.inr (Or.inr ⟨rfl, ⟨{"device-1"}, rfl, by decide⟩,
      Or.inl (by decide)⟩)
  exact ⟨failed, (condition.mpr harmless failed).1⟩

/--
With the default time to live, the aborted script has remembered the identity.
Even after a reset, when the emission would fit, its redelivery is taken for a
duplicate and counts nothing.
-/
theorem aborted_apply_is_remembered :
    let backend := Backend.replay exampleSettings fillingCalls
    let aborted := backend.applyWindow exampleSettings
      ⟨1700000001000000000⟩ refusedWindow
    let reset := (aborted.1.resetDevice exampleSettings
      ⟨1700000002000000000⟩ "user-1" "device-1").1
    let redelivered := reset.applyWindow exampleSettings
      ⟨1700000003000000000⟩ refusedWindow
    aborted.2.isSome = true ∧ (backend.server.scoredOf 1700000001000000000
        (dedupeKey exampleSettings "user-1" "device-1")).map
          (fun scores => scores.lookup refusedWindow.identity) = some none ∧
      (aborted.1.server.scoredOf 1700000001000000000
        (dedupeKey exampleSettings "user-1" "device-1")).map
          (fun scores => scores.lookup refusedWindow.identity) =
            some (some 1700000001) ∧
      redelivered.2 = none ∧
        redelivered.1.metrics.value metricWindowsDuplicate = 1 ∧
          counterOf redelivered.1.server 1700000003000000000
            (stateKey exampleSettings "user-1" "device-1") "count" =
              some 0 := by
  decide

end Ironclaw.RedisStore
