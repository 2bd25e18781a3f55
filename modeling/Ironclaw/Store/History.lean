import Ironclaw.Lib.Distinct
import Ironclaw.Store.Memory
import Mathlib.Data.List.DropRight
import Mathlib.Data.List.MinMax
import Mathlib.Order.Bounds.Basic

/-!
# What the hot store holds after any calls

The state of a device is a function of the calls made on it.  The counters
sum the emissions first applied after the last reset, the last window and the
time it was seen come from all emissions ever applied, and the percentiles
are those of the largest emission of the last window since the reset.

The description is proved by adding one call at the end of a history, with
one lemma for what a record does when it merges an emission.
-/

namespace Ironclaw.Store

open Lib Domain List Int64 Memory DeviceRecord
open AggregateWindow (identity)

variable {window : AggregateWindow} {key : String} {record : DeviceRecord}

/-- A call on the store with a live context. -/
inductive Call where
  | applyWindow (window : AggregateWindow)
  | resetDevice (userID deviceID : String)
deriving DecidableEq

namespace Memory

def perform (memory : Memory) : Call → Memory
  | .applyWindow window => (memory.applyWindow none window).1
  | .resetDevice userID deviceID =>
    (memory.resetDevice none userID deviceID).1

/-- A new store after a history of calls. -/
def replay (calls : List Call) : Memory := calls.foldl perform Memory.new

theorem replay_concat (calls : List Call) (call : Call) :
    replay (calls ++ [call]) = (replay calls).perform call := by
  simp [replay]

end Memory

/-! ## Histories of one device -/

/-- The emission a call delivers to a device. -/
def Call.delivers (key : String) : Call → Option AggregateWindow
  | .applyWindow window => if keyOf window = key then some window else none
  | .resetDevice _ _ => none

def Call.resets (key : String) : Call → Bool
  | .applyWindow _ => false
  | .resetDevice userID deviceID => deviceKey userID deviceID = key

/-- The emissions delivered to a device, redeliveries included. -/
def deliveries (key : String) (calls : List Call) : List AggregateWindow :=
  calls.filterMap (Call.delivers key)

/-- The calls up to the last reset of a device. -/
def untilReset (key : String) (calls : List Call) : List Call :=
  calls.rdropWhile fun call => !call.resets key

/-- The calls after the last reset of a device. -/
def sinceReset (key : String) (calls : List Call) : List Call :=
  calls.rtakeWhile fun call => !call.resets key

/-- The emissions ever applied to a device, in order. -/
def applied (key : String) (calls : List Call) : List AggregateWindow :=
  firstBy identity ∅ (deliveries key calls)

/-- The emissions first applied to a device after its last reset. -/
def counted (key : String) (calls : List Call) : List AggregateWindow :=
  firstBy identity
    (keysOf identity (deliveries key (untilReset key calls)))
    (deliveries key (sinceReset key calls))

variable {call : Call} {calls : List Call}

section Histories

theorem deliveries_append (first second : List Call) :
    deliveries key (first ++ second) =
      deliveries key first ++ deliveries key second :=
  filterMap_append

theorem deliveries_concat_self (same : keyOf window = key) :
    deliveries key (calls ++ [.applyWindow window]) =
      deliveries key calls ++ [window] := by
  rw [deliveries_append]
  simp [deliveries, Call.delivers, same]

theorem deliveries_concat_other (other : call.delivers key = none) :
    deliveries key (calls ++ [call]) = deliveries key calls := by
  rw [deliveries_append]
  simp [deliveries, other]

theorem deliveries_split : deliveries key (untilReset key calls) ++
        deliveries key (sinceReset key calls) =
      deliveries key calls := by
  rw [← deliveries_append, untilReset, sinceReset,
    rdropWhile_append_rtakeWhile]

theorem applied_concat_self (same : keyOf window = key) :
    applied key (calls ++ [.applyWindow window]) = if window.identity ∈
          keysOf identity (deliveries key calls) then
        applied key calls else applied key calls ++ [window] := by
  rw [applied, deliveries_concat_self same, firstBy_concat,
    Finset.empty_union]
  rfl

theorem applied_concat_other (other : call.delivers key = none) :
    applied key (calls ++ [call]) = applied key calls := by
  rw [applied, deliveries_concat_other other]
  rfl

theorem counted_concat_of_not_resets (continues : call.resets key = false) :
    counted key (calls ++ [call]) = firstBy identity
        (keysOf identity
          (deliveries key (untilReset key calls)))
        (deliveries key (sinceReset key calls ++ [call])) := by
  rw [counted, untilReset, sinceReset,
    rdropWhile_concat_pos _ _ _ (by simp [continues]),
    rtakeWhile_concat_pos _ _ _ (by simp [continues])]
  rfl

theorem counted_concat_self (same : keyOf window = key) :
    counted key (calls ++ [.applyWindow window]) = if window.identity ∈
          keysOf identity (deliveries key calls) then
        counted key calls else counted key calls ++ [window] := by
  rw [counted_concat_of_not_resets rfl, deliveries_concat_self same,
    firstBy_concat, ← keysOf_append, deliveries_split]
  rfl

theorem counted_concat_other
    (other : call.delivers key = none) (continues : call.resets key = false) :
    counted key (calls ++ [call]) = counted key calls := by
  rw [counted_concat_of_not_resets continues, deliveries_concat_other other]
  rfl

theorem counted_concat_reset (resets : call.resets key = true) :
    counted key (calls ++ [call]) = [] := by
  rw [counted, sinceReset, rtakeWhile_concat_neg _ _ _ (by simp [resets])]
  rfl

theorem counted_sublist_deliveries (key : String) (calls : List Call) :
    (counted key calls).Sublist (deliveries key calls) := by
  have split := @deliveries_split key calls
  exact (firstBy_sublist _ _).trans (split ▸ sublist_append_right _ _)

end Histories

/-! ## The record a history describes -/

/-- The emission whose percentiles are reported: the first largest one. -/
def reported (lastWindowID : Int64) (windows : List AggregateWindow) :
    Option AggregateWindow :=
  -- The order is named, as instance search may find a noncomputable one.
  @List.argmax _ _ Int.instLinearOrder.toPreorder Int.decLt
    (fun window => window.count.toInt)
    (windows.filter fun window => window.windowID = lastWindowID)

/-- Windows as the aggregator emits them. -/
structure Emitted (window : AggregateWindow) : Prop where
  count_pos : 1 ≤ window.count
  windowID_nonneg : 0 ≤ window.windowID
  windowEnd_after : window.windowEnd.after Time.zero = true

/--
The additive part of a record: the identities it knows and the counters of
the emissions counted since the last reset.
-/
structure Sums
    (known : Finset String) (counted : List AggregateWindow)
    (record : DeviceRecord) : Prop where
  identities : record.applied = known
  tally : record.state.tally = (counted.map AggregateWindow.tally).sum

/--
The latest window of a record, among the emissions ever applied, and the
percentiles reported for it, among the emissions counted.
-/
structure Latest
    (applied counted : List AggregateWindow)
    (record : DeviceRecord) : Prop where
  counted_applied : ∀ window ∈ counted, window ∈ applied
  untouched : applied = [] →
    record.state.lastWindowID = 0 ∧ record.state.lastSeen = Time.zero
  last_le : ∀ window ∈ applied, window.windowID ≤ record.state.lastWindowID
  last_mem : applied ≠ [] → ∃ window ∈ applied,
    window.windowID = record.state.lastWindowID ∧
      window.windowEnd = record.state.lastSeen
  seen_le : ∀ window ∈ applied, window.windowID = record.state.lastWindowID →
      window.windowEnd.nanos ≤ record.state.lastSeen.nanos
  sample :
    let window := reported record.state.lastWindowID counted
    record.percentileSample = (window.map AggregateWindow.count).getD 0 ∧
    record.state.p95Nanos = (window.map AggregateWindow.p95Nanos).getD 0 ∧
    record.state.p99Nanos = (window.map AggregateWindow.p99Nanos).getD 0

theorem sums_fresh (userID deviceID : String) :
    Sums ∅ [] (fresh userID deviceID) :=
  ⟨rfl, rfl⟩

theorem latest_fresh (userID deviceID : String) :
    Latest [] [] (fresh userID deviceID) := by
  constructor
  · simp
  · exact fun _ => ⟨rfl, rfl⟩
  · simp
  · simp
  · simp
  · exact ⟨rfl, rfl, rfl⟩

section Records

variable {known : Finset String} {applied counted : List AggregateWindow}

theorem Sums.reset (sums : Sums known counted record) :
    Sums known [] record.reset :=
  ⟨sums.identities, rfl⟩

theorem Latest.reset (latest : Latest applied counted record) :
    Latest applied [] record.reset :=
  { latest with
    counted_applied := by simp
    sample := ⟨rfl, rfl, rfl⟩ }

theorem merge_additive (record : DeviceRecord) (window : AggregateWindow) :
    (record.merge window).applied = insert window.identity record.applied ∧
      (record.merge window).state.tally =
        record.state.tally + window.tally := by
  simp only [DeviceRecord.merge]
  split
  · exact ⟨rfl, rfl⟩
  · split
    · split
      · split <;> exact ⟨rfl, rfl⟩
      · split <;> exact ⟨rfl, rfl⟩
    · exact ⟨rfl, rfl⟩

theorem Sums.merge (sums : Sums known counted record) :
    Sums (insert window.identity known) (counted ++ [window])
      (record.merge window) := by
  obtain ⟨identities, tally⟩ := merge_additive record window
  constructor
  · rw [identities, sums.identities]
  · rw [tally, sums.tally, map_append, sum_append,
      map_singleton, sum_singleton]

/-- A later window has no earlier emission to compete with. -/
theorem reported_concat_of_greater
    (below : ∀ other ∈ counted, other.windowID < window.windowID) :
    reported window.windowID (counted ++ [window]) = some window := by
  have none : (counted.filter fun other =>
      other.windowID = window.windowID) = [] := by
    rw [filter_eq_nil_iff]
    intro other member
    have less := below other member
    simp only [decide_eq_true_eq]
    intro equal
    exact Int64.lt_irrefl (equal ▸ less)
  simp [reported, filter_append, none]

theorem reported_concat_of_eq
    {lastWindowID : Int64} (same : window.windowID = lastWindowID) :
    reported lastWindowID (counted ++ [window]) =
      match reported lastWindowID counted with
      | none => some window
      | some best =>
        if best.count < window.count then some window else some best := by
  simp only [reported, filter_append, same, argmax_concat,
    filter_cons, decide_true, if_true, filter_nil,
    lt_iff_toInt_lt]
  cases List.argmax (fun other => other.count.toInt)
    (counted.filter fun other => other.windowID = lastWindowID) with
  | none | some => rfl

theorem Latest.counted_applied_concat
    (latest : Latest applied counted record) :
    ∀ other ∈ counted ++ [window], other ∈ applied ++ [window] := by
  intro other member
  rcases mem_append.mp member with old | new
  · exact mem_append_left _ (latest.counted_applied other old)
  · exact mem_append_right _ new

theorem merge_of_later (later : record.state.lastWindowID < window.windowID) :
    record.merge window =
      { (record.add window).sample window with
        state := { ((record.add window).sample window).state with
          lastWindowID := window.windowID
          lastSeen := window.windowEnd } } := by
  rw [DeviceRecord.merge]
  exact if_pos later

theorem merge_of_earlier
    (earlier : window.windowID < record.state.lastWindowID) :
    record.merge window = record.add window := by
  have different : window.windowID ≠ record.state.lastWindowID :=
    fun equal => Int64.lt_irrefl (equal ▸ earlier)
  rw [DeviceRecord.merge]
  exact (if_neg (Int64.not_lt.mpr (Int64.le_of_lt earlier))).trans
    (if_neg different)

/-- An emission of a later window takes over the last window. -/
theorem Latest.merge_greater (latest : Latest applied counted record)
    (later : record.state.lastWindowID < window.windowID) :
    Latest (applied ++ [window]) (counted ++ [window])
      (record.merge window) := by
  have below : ∀ other ∈ applied, other.windowID < window.windowID :=
    fun other member =>
      Int64.lt_of_le_of_lt (latest.last_le other member) later
  rw [merge_of_later later]
  constructor
  · exact latest.counted_applied_concat
  · simp
  · exact forall_mem_concat
      (fun other old => Int64.le_of_lt (below other old))
      (Int64.le_refl _)
  · intro _
    exact ⟨window, by simp, rfl, rfl⟩
  · intro other member same
    rcases mem_append.mp member with old | new
    · have less := below other old
      rw [show other.windowID = window.windowID from same] at less
      exact absurd less Int64.lt_irrefl
    · rw [mem_singleton.mp new]
  · simp only [DeviceRecord.sample]
    rw [reported_concat_of_greater fun other member =>
      below other (latest.counted_applied other member)]
    exact ⟨rfl, rfl, rfl⟩

/-- An emission of an earlier window only adds to the counters. -/
theorem Latest.merge_less
    (latest : Latest applied counted record) (emitted : Emitted window)
    (earlier : window.windowID < record.state.lastWindowID) :
    Latest (applied ++ [window]) (counted ++ [window])
      (record.merge window) := by
  have different : window.windowID ≠ record.state.lastWindowID :=
    fun equal => Int64.lt_irrefl (equal ▸ earlier)
  have nonempty : applied ≠ [] := by
    intro empty
    rw [(latest.untouched empty).1] at earlier
    exact Int64.not_lt.mpr emitted.windowID_nonneg earlier
  rw [merge_of_earlier earlier]
  constructor
  · exact latest.counted_applied_concat
  · simp
  · exact forall_mem_concat latest.last_le (Int64.le_of_lt earlier)
  · intro _
    obtain ⟨other, member, last⟩ := latest.last_mem nonempty
    exact ⟨other, mem_append_left _ member, last⟩
  · intro other member same
    rcases mem_append.mp member with old | new
    · exact latest.seen_le other old same
    · rw [mem_singleton.mp new] at same
      exact absurd same different
  · have same : reported record.state.lastWindowID (counted ++ [window]) =
        reported record.state.lastWindowID counted := by
      simp [reported, filter_append, different]
    simp only [add]
    rw [same]
    exact latest.sample

/-- What an emission of the last window changes. -/
theorem merge_of_eq (same : window.windowID = record.state.lastWindowID) :
    (record.merge window).state.lastWindowID = record.state.lastWindowID ∧
    (record.merge window).state.lastSeen =
      (if window.windowEnd.after record.state.lastSeen then window.windowEnd
        else record.state.lastSeen) ∧
    ((record.merge window).percentileSample,
        (record.merge window).state.p95Nanos,
        (record.merge window).state.p99Nanos) =
      if record.percentileSample < window.count then
        (window.count, window.p95Nanos, window.p99Nanos) else
        (record.percentileSample, record.state.p95Nanos,
          record.state.p99Nanos) := by
  simp only [DeviceRecord.merge, DeviceRecord.add, DeviceRecord.sample, same,
    Int64.lt_irrefl, if_false, if_true]
  by_cases larger : record.percentileSample < window.count <;>
    by_cases newer : window.windowEnd.after record.state.lastSeen = true <;>
      simp [larger, newer]

section Latest

variable (latest : Latest applied counted record) (emitted : Emitted window)
include latest emitted

/-- The percentiles after an emission of the last window. -/
theorem Latest.sample_merge_equal
    (same : window.windowID = record.state.lastWindowID) :
    let best := reported record.state.lastWindowID (counted ++ [window])
    (record.merge window).percentileSample =
      (best.map AggregateWindow.count).getD 0 ∧
    (record.merge window).state.p95Nanos =
      (best.map AggregateWindow.p95Nanos).getD 0 ∧
    (record.merge window).state.p99Nanos =
      (best.map AggregateWindow.p99Nanos).getD 0 := by
  obtain ⟨-, -, fields⟩ := merge_of_eq same
  obtain ⟨sample, p95, p99⟩ := latest.sample
  rw [reported_concat_of_eq same]
  generalize reported record.state.lastWindowID counted = best at *
  cases best with
  | none =>
    have positive : record.percentileSample < window.count := by
      rw [sample]
      exact Int64.lt_of_lt_of_le (by decide) emitted.count_pos
    rw [if_pos positive] at fields
    simpa using fields
  | some best =>
    simp only [Option.map_some, Option.getD_some] at sample p95 p99
    rw [sample, p95, p99] at fields
    split at fields
    · rename_i larger
      simpa [larger] using fields
    · rename_i notLarger
      simpa [notLarger] using fields

/-- The time of the last window after one more emission of it. -/
theorem Latest.seen_merge_equal
    (same : window.windowID = record.state.lastWindowID) :
    (∃ other ∈ applied ++ [window],
      other.windowID = record.state.lastWindowID ∧
        other.windowEnd = (record.merge window).state.lastSeen) ∧
    ∀ other ∈ applied ++ [window],
      other.windowID = record.state.lastWindowID → other.windowEnd.nanos ≤
          (record.merge window).state.lastSeen.nanos := by
  obtain ⟨-, seen, -⟩ := merge_of_eq same
  rw [seen]
  by_cases newer : window.windowEnd.after record.state.lastSeen = true
  · rw [if_pos newer]
    refine ⟨⟨window, by simp, same, rfl⟩, ?_⟩
    intro other member last
    rcases mem_append.mp member with old | new
    · have bound := latest.seen_le other old last
      have greater : record.state.lastSeen.nanos < window.windowEnd.nanos :=
        of_decide_eq_true newer
      omega
    · rw [mem_singleton.mp new]
  · rw [if_neg newer]
    -- The first emission of a device is newer than the zero time.
    have nonempty : applied ≠ [] := by
      intro empty
      rw [(latest.untouched empty).2] at newer
      exact newer emitted.windowEnd_after
    obtain ⟨last, member, found⟩ := latest.last_mem nonempty
    refine ⟨⟨last, mem_append_left _ member, found⟩, ?_⟩
    intro other otherMember otherLast
    rcases mem_append.mp otherMember with old | new
    · exact latest.seen_le other old otherLast
    · rw [mem_singleton.mp new]
      have notGreater :
          ¬ record.state.lastSeen.nanos < window.windowEnd.nanos :=
        fun greater => newer (decide_eq_true greater)
      omega

theorem Latest.merge : Latest (applied ++ [window]) (counted ++ [window])
      (record.merge window) := by
  by_cases later : record.state.lastWindowID < window.windowID
  · exact latest.merge_greater later
  · by_cases same : window.windowID = record.state.lastWindowID
    · obtain ⟨last, -, -⟩ := merge_of_eq same
      obtain ⟨attained, bound⟩ := latest.seen_merge_equal emitted same
      constructor
      · exact latest.counted_applied_concat
      · simp
      · intro other member
        rw [last]
        rcases mem_append.mp member with old | new
        · exact latest.last_le other old
        · rw [mem_singleton.mp new, same]
          exact Int64.le_refl _
      · intro _
        rw [last]
        exact attained
      · rw [last]
        exact bound
      · rw [last]
        exact latest.sample_merge_equal emitted same
    · exact latest.merge_less emitted
        (Int64.lt_of_le_of_ne (Int64.not_lt.mp later) same)

end Latest

end Records

/-! ## Every history -/

/-- A property of the record of a device, or of no emissions at all. -/
def Holding
    (key : String) (calls : List Call)
    (property : DeviceRecord → Prop) : Option DeviceRecord → Prop
  | none => deliveries key calls = []
  | some record => deliveries key calls ≠ [] ∧ property record

theorem Holding.concat_other
    {property next : DeviceRecord → Prop} {found : Option DeviceRecord}
    (change : DeviceRecord → DeviceRecord) (other : call.delivers key = none)
    (preserved : ∀ record, property record → next (change record))
    (held : Holding key calls property found) :
    Holding key (calls ++ [call]) next (found.map change) := by
  have same := @deliveries_concat_other key _ calls other
  cases found with
  | none => exact same.trans held
  | some record => exact ⟨same ▸ held.1, preserved record held.2⟩

/--
Induction over the history of one device: its record only changes by the
emissions delivered to it and by its own resets.
-/
theorem replay_induction
    (key : String) {motive : List Call → DeviceRecord → Prop}
    (starts : ∀ calls userID deviceID, deliveries key calls = [] →
      motive calls (DeviceRecord.fresh userID deviceID))
    (receives : ∀ calls record window, keyOf window = key →
      motive calls record →
        motive (calls ++ [.applyWindow window]) (record.receive window))
    (resets : ∀ calls record call, call.resets key = true →
      motive calls record → motive (calls ++ [call]) record.reset)
    (others : ∀ calls record call, call.delivers key = none →
      call.resets key = false →
        motive calls record → motive (calls ++ [call]) record)
    (calls : List Call) :
    Holding key calls (motive calls) ((replay calls).devices.lookup key) := by
  induction calls using List.reverseRecOn with
  | nil => rfl
  | append_singleton calls call induction =>
    rw [replay_concat]
    cases call with
    | applyWindow window =>
      rw [perform]
      by_cases same : keyOf window = key
      · subst same
        rw [devices_applyWindow_self]
        refine ⟨by simp [deliveries_concat_self rfl],
          receives calls _ window rfl ?_⟩
        cases found : (replay calls).devices.lookup (keyOf window) with
        | none =>
          rw [found] at induction
          exact starts calls _ _ induction
        | some record =>
          rw [found] at induction
          exact induction.2
      · have other : (Call.applyWindow window).delivers key = none := by
          simp [Call.delivers, same]
        rw [devices_applyWindow_of_ne (Ne.symm same)]
        simpa using induction.concat_other id other
          fun record held => others calls record _ other rfl held
    | resetDevice userID deviceID =>
      rw [perform]
      by_cases same : deviceKey userID deviceID = key
      · have reset :
            (Call.resetDevice userID deviceID).resets key = true := by
          simp [Call.resets, same]
        subst same
        rw [devices_resetDevice_self]
        exact induction.concat_other DeviceRecord.reset rfl
          fun record held => resets calls record _ reset held
      · have continues :
            (Call.resetDevice userID deviceID).resets key = false := by
          simp [Call.resets, same]
        rw [devices_resetDevice_of_ne (Ne.symm same)]
        simpa using induction.concat_other id rfl
          fun record held => others calls record _ rfl continues held

theorem counted_eq_nil (empty : deliveries key calls = []) :
    counted key calls = [] :=
  sublist_nil.mp (empty ▸ counted_sublist_deliveries key calls)

theorem applied_eq_nil (empty : deliveries key calls = []) :
    applied key calls = [] := by
  rw [applied, empty]
  rfl

theorem Call.delivers_of_resets (resets : call.resets key = true) :
    call.delivers key = none := by
  cases call with
  | applyWindow window => cases resets
  | resetDevice userID deviceID => rfl

/-- What is said of a record after a history: the additive part for arbitrary
windows, the latest window for windows as they are emitted. -/
def Described (key : String) (calls : List Call) (record : DeviceRecord) :
    Prop :=
  Sums (keysOf identity (deliveries key calls))
      (counted key calls) record ∧
    ((∀ window, .applyWindow window ∈ calls → Emitted window) →
      Latest (applied key calls) (counted key calls) record)

theorem Sums.receive (same : keyOf window = key)
    (sums : Sums (keysOf identity (deliveries key calls))
      (counted key calls) record) :
    Sums (keysOf identity
        (deliveries key (calls ++ [.applyWindow window])))
      (counted key (calls ++ [.applyWindow window]))
      (record.receive window) := by
  rw [deliveries_concat_self same, keysOf_concat,
    counted_concat_self same, DeviceRecord.receive, sums.identities]
  by_cases known : window.identity ∈
      keysOf identity (deliveries key calls)
  · rw [if_pos known, if_pos known, Finset.insert_eq_of_mem known]
    exact sums
  · rw [if_neg known, if_neg known]
    exact sums.merge

theorem Latest.receive (same : keyOf window = key)
    (identities : record.applied =
      keysOf identity (deliveries key calls))
    (emitted : Emitted window)
    (latest : Latest (applied key calls) (counted key calls) record) :
    Latest (applied key (calls ++ [.applyWindow window]))
      (counted key (calls ++ [.applyWindow window]))
      (record.receive window) := by
  rw [applied_concat_self same, counted_concat_self same,
    DeviceRecord.receive, identities]
  by_cases known : window.identity ∈
      keysOf identity (deliveries key calls)
  · rw [if_pos known, if_pos known, if_pos known]
    exact latest
  · rw [if_neg known, if_neg known, if_neg known]
    exact latest.merge emitted

theorem replay_described (key : String) (calls : List Call) :
    Holding key calls (Described key calls)
      ((replay calls).devices.lookup key) := by
  apply replay_induction key
  · intro calls userID deviceID empty
    rw [Described, counted_eq_nil empty, applied_eq_nil empty, empty]
    exact ⟨sums_fresh userID deviceID, fun _ => latest_fresh userID deviceID⟩
  · rintro calls record window same ⟨sums, latest⟩
    refine ⟨sums.receive same, ?_⟩
    intro emitted
    have earlier : ∀ other, .applyWindow other ∈ calls → Emitted other :=
      fun other member => emitted other (mem_append_left _ member)
    exact (latest earlier).receive same sums.identities
      (emitted window (by simp))
  · rintro calls record call resets ⟨sums, latest⟩
    have other := Call.delivers_of_resets resets
    rw [Described, counted_concat_reset resets,
      deliveries_concat_other other, applied_concat_other other]
    refine ⟨sums.reset, ?_⟩
    intro emitted
    exact (latest fun window member =>
      emitted window (mem_append_left _ member)).reset
  · rintro calls record call other continues ⟨sums, latest⟩
    rw [Described, counted_concat_other other continues,
      deliveries_concat_other other, applied_concat_other other]
    refine ⟨sums, ?_⟩
    intro emitted
    exact latest fun window member =>
      emitted window (mem_append_left _ member)

/-- The counters of a device; a device not found has counted nothing. -/
def Memory.deviceTally (key : String) (memory : Memory) : Tally :=
  match memory.devices.lookup key with
  | none => 0
  | some record => record.state.tally

theorem deviceTally_replay (key : String) (calls : List Call) :
    (Memory.replay calls).deviceTally key =
      ((counted key calls).map AggregateWindow.tally).sum := by
  have described := replay_described key calls
  rw [deviceTally]
  cases found : (replay calls).devices.lookup key with
  | none =>
    rw [found] at described
    rw [counted_eq_nil described]
    rfl
  | some record =>
    rw [found] at described
    exact described.2.1.tally

/-- Without a reset everything applied is counted. -/
theorem counted_eq_applied (never : ∀ call ∈ calls, call.resets key = false) :
    counted key calls = applied key calls := by
  have before : untilReset key calls = [] := by
    rw [untilReset, rdropWhile_eq_nil_iff]
    intro call member
    simp [never call member]
  have since : sinceReset key calls = calls := by
    rw [sinceReset, rtakeWhile_eq_self_iff]
    intro call member
    simp [never call member]
  rw [counted, before, since]
  rfl

theorem deliveries_map_applyWindow
    (key : String) (windows : List AggregateWindow) :
    deliveries key (windows.map Call.applyWindow) =
      windows.filter fun window => keyOf window = key := by
  rw [deliveries, filterMap_map, ← filterMap_eq_filter]
  apply filterMap_congr
  intro window _
  by_cases same : keyOf window = key <;>
    simp [Call.delivers, same, Option.guard]

theorem deviceTally_replay_windows
    (key : String) (windows : List AggregateWindow) :
    (Memory.replay (windows.map Call.applyWindow)).deviceTally key =
      ((firstBy identity ∅
        (windows.filter fun window => keyOf window = key)).map
          AggregateWindow.tally).sum := by
  have never : ∀ call ∈ windows.map Call.applyWindow,
      call.resets key = false := by
    intro call member
    obtain ⟨window, _, rfl⟩ := mem_map.mp member
    rfl
  rw [deviceTally_replay, counted_eq_applied never, applied,
    deliveries_map_applyWindow]

/-! ## What one emission does to a device -/

/-- The identities applied to a device, and its counters. -/
def standing (key : String) (memory : Memory) : Finset String × Tally :=
  match memory.devices.lookup key with
  | none => (∅, 0)
  | some record => (record.applied, record.state.tally)

theorem deviceTally_eq_standing (key : String) (memory : Memory) :
    memory.deviceTally key = (standing key memory).2 := by
  rw [deviceTally, standing]
  cases memory.devices.lookup key <;> rfl

/-- What an emission makes of the standing of its device. -/
def Standing.receive (window : AggregateWindow)
    (standing : Finset String × Tally) : Finset String × Tally :=
  if window.identity ∈ standing.1 then standing
  else (insert window.identity standing.1, standing.2 + window.tally)

theorem standing_receive (record : DeviceRecord) (window : AggregateWindow) :
    ((record.receive window).applied, (record.receive window).state.tally) =
      Standing.receive window (record.applied, record.state.tally) := by
  rw [receive, Standing.receive]
  split
  · rfl
  · have merged := merge_additive record window
    exact Prod.ext merged.1 merged.2

theorem standing_applyWindow
    (key : String) (window : AggregateWindow) (memory : Memory) :
    standing key (memory.applyWindow none window).1 =
      if key = keyOf window then Standing.receive window (standing key memory)
      else standing key memory := by
  split
  · rename_i same
    subst same
    rw [standing, devices_applyWindow_self, standing]
    simp only
    rw [standing_receive]
    cases memory.devices.lookup (keyOf window) <;> rfl
  · rename_i different
    rw [standing, devices_applyWindow_of_ne different, standing]

theorem deviceTally_applyWindow
    (key : String) (window : AggregateWindow) (memory : Memory) :
    (memory.applyWindow none window).1.deviceTally key =
        memory.deviceTally key ∨
      (memory.applyWindow none window).1.deviceTally key =
        memory.deviceTally key + window.tally := by
  rw [deviceTally_eq_standing, standing_applyWindow, deviceTally_eq_standing]
  split
  · rw [Standing.receive]
    split
    · exact Or.inl rfl
    · exact Or.inr rfl
  · exact Or.inl rfl

/-- The calls that carry an emission. -/
def applications (calls : List Call) : Nat :=
  calls.countP fun call => match call with
    | .applyWindow _ => true
    | .resetDevice _ _ => false

theorem replay_windowsReceived (calls : List Call) :
    (replay calls).windowsReceived = ofNat (applications calls) := by
  induction calls using List.reverseRecOn with
  | nil => rfl
  | append_singleton calls call induction =>
    rw [replay_concat, applications, countP_append]
    cases call with
    | applyWindow window =>
      rw [perform, windowsReceived_applyWindow, induction]
      exact (Word.ofNat_succ _).symm
    | resetDevice userID deviceID =>
      rw [perform, windowsReceived_resetDevice, induction]
      rfl

/-! ## The functional specification -/

/-- The state of a device as a function of the calls on the store. -/
structure Specified
    (key : String) (calls : List Call) (state : DeviceState) : Prop where
  tally : state.tally = ((counted key calls).map AggregateWindow.tally).sum
  lastWindowID : IsGreatest
    { id | ∃ window ∈ applied key calls, window.windowID.toInt = id }
    state.lastWindowID.toInt
  lastSeen : IsGreatest
    { time | ∃ window ∈ applied key calls,
      window.windowID = state.lastWindowID ∧
        window.windowEnd.nanos = time }
    state.lastSeen.nanos
  p95Nanos : state.p95Nanos =
    ((reported state.lastWindowID (counted key calls)).map
      AggregateWindow.p95Nanos).getD 0
  p99Nanos : state.p99Nanos =
    ((reported state.lastWindowID (counted key calls)).map
      AggregateWindow.p99Nanos).getD 0

theorem applied_ne_nil (delivered : deliveries key calls ≠ []) :
    applied key calls ≠ [] := by
  obtain ⟨window, member⟩ := exists_mem_of_ne_nil _ delivered
  obtain ⟨kept, keptMember, -⟩ := exists_mem_firstBy member
      (Finset.notMem_empty (identity window))
  exact ne_nil_of_mem keptMember

theorem Latest.specified
    (sums : Sums (keysOf identity (deliveries key calls))
      (counted key calls) record)
    (latest : Latest (applied key calls) (counted key calls) record)
    (delivered : deliveries key calls ≠ []) :
    Specified key calls record.state := by
  obtain ⟨last, member, sameID, sameEnd⟩ :=
    latest.last_mem (applied_ne_nil delivered)
  refine ⟨sums.tally, ⟨⟨last, member, by rw [sameID]⟩, ?_⟩,
    ⟨⟨last, member, sameID, by rw [sameEnd]⟩, ?_⟩,
    latest.sample.2.1, latest.sample.2.2⟩
  · rintro _ ⟨window, windowMember, rfl⟩
    exact le_iff_toInt_le.mp (latest.last_le window windowMember)
  · rintro _ ⟨window, windowMember, isLast, rfl⟩
    exact latest.seen_le window windowMember isLast

/--
Every device after every history of calls, and the number of windows the
store received.  Redeliveries count nothing, also those that follow a reset.
-/
theorem memory_specification
    (calls : List Call)
    (emitted : ∀ window, .applyWindow window ∈ calls → Emitted window) :
    (∀ userID deviceID,
      let key := deviceKey userID deviceID
      ((counted key calls).map identity).Nodup ∧
      (∀ window ∈ counted key calls,
        ∀ earlier ∈ deliveries key (untilReset key calls),
          earlier.identity ≠ window.identity) ∧
      match (Memory.replay calls).deviceState none userID deviceID with
      | .error fault =>
        fault = errDeviceNotFound ∧ deliveries key calls = []
      | .ok state => Specified key calls state) ∧
    (Memory.replay calls).metrics.value metricWindowsApplied +
        (Memory.replay calls).metrics.value metricWindowsDuplicate =
      Int64.ofNat (applications calls) := by
  refine ⟨?_, replay_windowsReceived calls⟩
  intro userID deviceID key
  refine ⟨firstBy_nodup _ _, ?_, ?_⟩
  · intro window member earlier delivered same
    exact firstBy_fresh member (mem_keysOf.mpr ⟨earlier, delivered, same⟩)
  · have described := replay_described key calls
    rw [Memory.deviceState]
    change Holding key calls _
      ((Memory.replay calls).devices.lookup (deviceKey userID deviceID))
        at described
    cases found : (Memory.replay calls).devices.lookup
        (deviceKey userID deviceID) with
    | none =>
      rw [found] at described
      exact ⟨rfl, described⟩
    | some record =>
      rw [found] at described
      obtain ⟨delivered, sums, latest⟩ := described
      exact (latest emitted).specified sums delivered

/-- An emission of one event, for a device of the user. -/
def exampleWindow (deviceID : String) : AggregateWindow where
  key := ⟨"user-1", deviceID, 7, "pod-a"⟩
  windowID := 170000000
  sequence := 42
  windowStart := ⟨1700000000000000000⟩
  windowEnd := ⟨1700000010000000000⟩
  count := 1
  errorCount := 1
  bytes := 64
  p95Nanos := 1000
  p99Nanos := 1000
  maxNanos := 1000

/-- A redelivery after a reset: known, so counted nowhere. -/
def exampleCalls : List Call :=
  [.applyWindow (exampleWindow "device-1"), .resetDevice "user-1" "device-1",
    .applyWindow (exampleWindow "device-1")]

theorem exampleCalls_emitted :
    ∀ window, .applyWindow window ∈ exampleCalls → Emitted window := by
  intro window member
  have same : window = exampleWindow "device-1" := by
    simpa [exampleCalls] using member
  rw [same]
  exact ⟨by decide, by decide, by decide⟩

theorem memory_specification_example : ∃ state,
      (Memory.replay exampleCalls).deviceState none "user-1" "device-1" =
          .ok state ∧
        Specified (deviceKey "user-1" "device-1") exampleCalls state ∧
        state.tally = 0 := by
  obtain ⟨-, -, specified⟩ :=
    (memory_specification exampleCalls exampleCalls_emitted).1
      "user-1" "device-1"
  refine ⟨_, rfl, specified, ?_⟩
  rw [specified.tally]
  rfl

end Ironclaw.Store
