import Ironclaw.PostgresStore.Family
import Ironclaw.PostgresStore.Retention
import Ironclaw.RedisStore.Refinement

/-!
# Reading from the archive when the hot store fails

Both stores receive the emissions of a device, each in an order of its own.
The hot store folds them as they arrive; the archive aggregates its rows when
it is read.  A read that the hot store cannot answer is answered by the
archive and marked as stale.

The two give the same numbers for every order if and only if the largest
emissions of the last window carry the same percentiles.  Otherwise the hot
store keeps those of the first arrival and the archive those of the highest
sequence number.
-/

namespace Ironclaw.App

open Lib Domain Store RedisStore Int64
open PostgresStore hiding Call.applyWindow

/-- `fallbackState.DeviceState`, from what the two stores answer. -/
def fallbackDeviceState (primary archive : Except Fault DeviceState) :
    Except Fault DeviceState :=
  match primary with
  | .ok state => .ok state
  | .error fault =>
    if fault.is Domain.errDeviceNotFound then .error fault
    else
      match archive with
      | .error _ => .error fault
      | .ok archived => .ok { archived with stale := true }

/-- The counters, the last window and the percentiles of a state. -/
def numbers (state : DeviceState) :
    Int64 × Int64 × Int64 × Int64 × Int64 × Int64 :=
  (state.count, state.errorCount, state.bytes, state.lastWindowID,
    state.p95Nanos, state.p99Nanos)

section Reads

variable {userID deviceID : String} {family : Family userID deviceID}

/-- The wrapped counters of a settled record. -/
theorem counters_of_settled
    {record : DeviceRecord} (settled : family.Settled record) :
    record.state.count = Int64.ofInt
        (∑ window ∈ family.emissions, window.count.toInt) ∧
      record.state.errorCount = Int64.ofInt
        (∑ window ∈ family.emissions, window.errorCount.toInt) ∧
      record.state.bytes = Int64.ofInt
        (∑ window ∈ family.emissions, window.bytes.toInt) := by
  have total : ∀ counter : AggregateWindow → Int64,
      (family.emissions.toList.map counter).sum = ofInt
        (∑ window ∈ family.emissions, (counter window).toInt) := by
    intro counter
    rw [Word.sum_map_eq_ofInt, Finset.sum_map_toList]
  rcases DeviceState.counters_of_tally settled.tally
    with ⟨count, errorCount, bytes⟩
  exact ⟨count.trans (total _), errorCount.trans (total _),
    bytes.trans (total _)⟩

/--
The emissions of the last window end at one time after the epoch, which is a
timestamp of the database.
-/
def SeenAlike (family : Family userID deviceID) : Prop :=
  ∃ seen : Time, seen.nanos % 1000 = 0 ∧ 0 < seen.unixSeconds ∧
    seen.nanos ≤ 9223372036854775807000 ∧
    ∀ window ∈ family.emissions,
      (∀ other ∈ family.emissions, other.windowID ≤ window.windowID) →
        window.windowEnd = seen

/-- Such a time is read back as it was written. -/
theorem seenAt_scanTime {seen : Time} (whole : seen.nanos % 1000 = 0)
    (later : 0 < seen.unixSeconds)
    (range : seen.nanos ≤ 9223372036854775807000) :
    Archive.seenAt (scanTime (micros seen)) = seen := by
  have bounds := Time.unixSeconds_le seen
  have parts := Int.mul_ediv_add_emod seen.nanos 1000
  have epoch : postgresEpoch.toInt = 946684800000000 := rfl
  have sent : (ofInt (seen.nanos / 1000)).toInt = seen.nanos / 1000 :=
    toInt_ofInt_of_le (by omega) (by omega)
  have read : scanTime (micros seen) = seen := by
    rw [scanTime, micros, Word.toInt_sub (by omega) (by omega), sent]
    apply congrArg Time.mk
    omega
  have nonzero : seen.isZero = false := by
    rw [Time.isZero, beq_eq_false_iff_ne]
    rintro rfl
    exact absurd later (by decide)
  rw [read, Archive.seenAt, nonzero]
  exact if_pos ⟨rfl, later⟩

theorem hot_state
    {hot : List AggregateWindow} (delivers : family.Delivers hot)
    (present : hot ≠ []) :
    ∃ record, family.Settled record ∧
      (Memory.replay (hot.map Call.applyWindow)).deviceState none userID
        deviceID = .ok record.state := by
  refine ⟨_, Family.settled_of_delivers delivers present, ?_⟩
  rw [Family.deviceState_of_delivers delivers, if_neg present]

theorem last_of_leads
    {leader : AggregateWindow} (leads : family.Leads leader) :
    ∀ other ∈ family.emissions, other.windowID ≤ leader.windowID := by
  intro other member
  apply le_iff_toInt_le.mpr
  rcases Prod.Lex.toLex_le_toLex.mp (leads.le other member) with
    less | ⟨same, _⟩
  · exact less.le
  · exact same.le

/-- A settled record was last seen when the emissions agree on it. -/
theorem Settled.lastSeen
    {record : DeviceRecord} (settled : family.Settled record)
    {seen : Time} (later : 0 < seen.unixSeconds)
    (alike : ∀ window ∈ family.emissions,
      (∀ other ∈ family.emissions, other.windowID ≤ window.windowID) →
        window.windowEnd = seen) : record.state.lastSeen = seen := by
  have upper : ∀ window ∈ family.emissions,
      (sightingOf window).rank ≤ record.sighting.rank := by
    intro window member
    apply settled.sighting.le
    exact List.mem_cons_of_mem _
      (List.mem_map_of_mem (Finset.mem_toList.mpr member))
  rcases List.mem_cons.mp settled.sighting.mem with start | received
  · -- A device that was seen only at the zero time has no such emission.
    rcases settled.score with ⟨leader, leads, _⟩
    have below := upper leader leads.mem
    rw [start] at below
    have nonneg := le_iff_toInt_le.mp
      (family.windowID_nonneg leader leads.mem)
    have seconds := (Time.unixSeconds_le seen).1
    rcases Prod.Lex.toLex_le_toLex.mp below with less | ⟨_, early⟩
    · exact absurd less (not_lt.mpr nonneg)
    · have late : leader.windowEnd.nanos ≤ Time.zero.nanos := early
      rw [alike leader leads.mem (last_of_leads leads)] at late
      have zero : Time.zero.nanos < 0 := by decide
      omega
  · rcases List.mem_map.mp received with ⟨window, listed, equal⟩
    have member := Finset.mem_toList.mp listed
    have last : ∀ other ∈ family.emissions,
        other.windowID ≤ window.windowID := by
      intro other emitted
      apply le_iff_toInt_le.mpr
      have below := upper other emitted
      rw [← equal] at below
      rcases Prod.Lex.toLex_le_toLex.mp below with less | ⟨same, _⟩
      · exact less.le
      · exact same.le
    exact (congrArg Sighting.seen equal).symm.trans (alike window member last)

/--
The hot store and the archive know the device or not, and give the same
numbers for it.  A read that falls back to the archive differs from a hot read
by its flag only.
-/
def ReadsAgree
    (family : Family userID deviceID) (hot archived : List AggregateWindow)
    (plan : Plan) : Prop :=
  let read := (Memory.replay (hot.map Call.applyWindow)).deviceState none
    userID deviceID
  let archive := (Archive.replay archived).deviceState plan userID deviceID
  (read = .error Store.errDeviceNotFound ∧
    archive = .error PostgresStore.errDeviceNotFound) ∨
  ∃ state stored, read = .ok state ∧ archive = .ok stored ∧
    numbers stored = numbers state ∧
    (∀ settings calls, calls.map Prod.snd = hot.map Call.applyWindow →
      Admissible settings calls → Expressible settings calls →
      Plain userID → ∀ now,
        (Backend.replay settings calls).deviceState settings now userID
            deviceID = .ok (wholeSeconds state)) ∧
    (SeenAlike family → ∀ fault, fault.is Domain.errDeviceNotFound = false →
        fallbackDeviceState (.error fault) archive =
          .ok { state with stale := true })

theorem readsAgree_of_tiesAgree
    (agree : family.TiesAgree) (storable : Storable family)
    {hot archived : List AggregateWindow}
    (hotDelivers : family.Delivers hot)
    (archivedDelivers : family.Delivers archived) (plan : Plan) :
    ReadsAgree family hot archived plan := by
  rw [ReadsAgree]
  by_cases empty : hot = []
  · left
    have none : archived = [] := by
      rw [← List.toFinset_eq_empty_iff, archivedDelivers, ← hotDelivers,
        empty]
      rfl
    subst empty none
    refine ⟨rfl, ?_⟩
    have rows : (Archive.replay []).rowsOf plan userID deviceID = [] := by
      rw [Archive.rowsOf, List.filter_eq_nil_iff]
      intro row member
      cases (plan.perm _).mem_iff.mp member
    rw [Archive.deviceState, Archive.sums, if_pos storable.texts, rows]
    rfl
  · right
    rcases hot_state hotDelivers empty with ⟨record, settled, reported⟩
    rcases settled.score with ⟨leader, leads, score⟩
    rcases deviceState_replay plan storable archivedDelivers leads with
      ⟨window, windowLeads, stored⟩
    rcases agree window leader windowLeads leads with ⟨p95, p99⟩
    rcases counters_of_settled settled with ⟨count, errorCount, bytes⟩
    have last : record.state.lastWindowID = leader.windowID :=
      congrArg Score.windowID score
    have hotP95 : record.state.p95Nanos = leader.p95Nanos :=
      congrArg Score.p95Nanos score
    have hotP99 : record.state.p99Nanos = leader.p99Nanos :=
      congrArg Score.p99Nanos score
    refine ⟨record.state, _, reported, stored, ?_, ?_, ?_⟩
    · rw [numbers, numbers, count, errorCount, bytes, last, hotP95, hotP99,
        ← p95, ← p99]
    · intro settings calls same admissible expressible plain now
      rcases admissible.permitted expressible with ⟨ends, permitted⟩
      rcases exists_later calls with ⟨clock, past⟩
      have agrees := agrees_replay permitted clock past
      have replayed : (memoryOf calls).deviceState none userID deviceID =
          .ok record.state := by
        rw [memoryOf, same]
        exact reported
      rcases agrees.deviceState plain now deviceID with
        ⟨state, found, shown⟩ | ⟨missing, _⟩
      · cases replayed.symm.trans found
        exact shown
      · rw [replayed] at missing
        cases missing
    · rintro ⟨seen, whole, later, range, alike⟩ fault other
      have lastSeen := Settled.lastSeen settled later alike
      have windowEnd : window.windowEnd = seen :=
        alike window windowLeads.mem (last_of_leads windowLeads)
      rcases Prod.mk.inj settled.label with ⟨user, rest⟩
      rcases Prod.mk.inj rest with ⟨device, _⟩
      rw [stored, fallbackDeviceState, if_neg (by rw [other]; decide)]
      simp only [Except.ok.injEq, DeviceState.mk.injEq, and_true]
      refine ⟨user.symm, device.symm, count.symm, errorCount.symm,
        bytes.symm, p95.trans hotP95.symm, p99.trans hotP99.symm,
        last.symm, ?_⟩
      rw [windowEnd, seenAt_scanTime whole later range, lastSeen]

/-- Rows are met in the order of their insertion. -/
def insertionOrder : Plan := ⟨id, fun rows => List.Perm.refl rows⟩

/-- A hot store that agrees with the archive reports its percentiles. -/
theorem ReadsAgree.percentiles
    {hot archived : List AggregateWindow} {plan : Plan}
    (agrees : ReadsAgree family hot archived plan) {state : DeviceState}
    (read : (Memory.replay (hot.map Call.applyWindow)).deviceState none
      userID deviceID = .ok state) :
    ((Archive.replay archived).deviceState plan userID deviceID).map
      (fun stored => (stored.p95Nanos, stored.p99Nanos)) =
        .ok (state.p95Nanos, state.p99Nanos) := by
  rcases agrees with ⟨missing, _⟩ | ⟨other, stored, found, archive, same, _⟩
  · cases read.symm.trans missing
  · cases read.symm.trans found
    simp only [numbers, Prod.mk.injEq] at same
    rw [archive, Except.map, same.2.2.2.2.1, same.2.2.2.2.2]

end Reads

end Ironclaw.App
