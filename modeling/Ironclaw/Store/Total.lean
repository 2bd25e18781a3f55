import Ironclaw.Store.History
import Mathlib.Algebra.Order.BigOperators.Group.List

/-!
# The counters of all devices

The sum of the counters of all records of the in-memory store.  An emission
adds its tally to the sum, unless its device has applied its identity before.
-/

namespace Ironclaw.Store

open Lib Domain List Memory

variable {window : AggregateWindow} {memory : Memory}

/-- The sum of the counters of all devices, with 64 bits. -/
def Memory.total (memory : Memory) : Tally :=
  ((GoMap.values memory.devices).map fun record => record.state.tally).sum

/-- The number of events that the counters of all devices stand for. -/
def Memory.events (memory : Memory) : Int :=
  ((GoMap.values memory.devices).map fun record =>
    record.state.count.toInt).sum

/-! ## Records -/

/-- Whether the device of an emission has applied its identity. -/
def Memory.knows (memory : Memory) (window : AggregateWindow) : Prop :=
  window.identity ∈ (standing (keyOf window) memory).1

instance (memory : Memory) (window : AggregateWindow) :
    Decidable (memory.knows window) :=
  inferInstanceAs (Decidable (_ ∈ _))

theorem knows_iff (window : AggregateWindow) (memory : Memory) :
    memory.knows window ↔
      window.identity ∈ (memory.recordFor window).2.applied := by
  rw [knows, standing, recordFor_snd]
  cases memory.devices.lookup (keyOf window) with
  | none | some => exact Iff.rfl

theorem values_recordFor (window : AggregateWindow) (memory : Memory) :
    GoMap.values (memory.recordFor window).1.devices =
        GoMap.values memory.devices ∨
      ∃ userID deviceID, GoMap.values (memory.recordFor window).1.devices =
          DeviceRecord.fresh userID deviceID ::
            GoMap.values memory.devices := by
  rw [recordFor]
  split
  · exact Or.inl rfl
  · rename_i absent
    apply Or.inr
    have fresh : keyOf window ∉ memory.devices :=
      AList.lookup_eq_none.mp absent
    exact ⟨_, _, GoMap.values_insert_of_notMem fresh⟩

theorem devices_applyWindow_of_knows (known : memory.knows window) :
    (memory.applyWindow none window).1.devices =
      (memory.recordFor window).1.devices := by
  rw [applyWindow]
  simp only
  rw [if_pos ((knows_iff window memory).mp known)]
  rfl

theorem values_applyWindow (fresh : ¬memory.knows window) : ∃ record others,
      (GoMap.values (memory.recordFor window).1.devices).Perm
          (record :: others) ∧
        GoMap.values (memory.applyWindow none window).1.devices =
          record.merge window :: others := by
  refine ⟨_, _, GoMap.values_perm_of_lookup
    (devices_recordFor_self window memory), ?_⟩
  rw [applyWindow]
  simp only
  rw [if_neg (fun applied => fresh ((knows_iff window memory).mpr applied)),
    devices_notify]
  rfl

/-! ## Sums -/

theorem total_recordFor (window : AggregateWindow) (memory : Memory) :
    (memory.recordFor window).1.total = memory.total := by
  rw [total, total]
  rcases values_recordFor window memory with same | ⟨_, _, added⟩
  · rw [same]
  · rw [added, map_cons, sum_cons]
    exact zero_add _

theorem total_applyWindow (window : AggregateWindow) (memory : Memory) :
    (memory.applyWindow none window).1.total =
      memory.total + if memory.knows window then 0 else window.tally := by
  rw [← total_recordFor window memory]
  by_cases known : memory.knows window
  · rw [if_pos known, add_zero, total, devices_applyWindow_of_knows known]
    rfl
  · rcases values_applyWindow known with ⟨record, others, before, after⟩
    rw [if_neg known, total, total, after,
      (before.map _).sum_eq, map_cons, sum_cons, map_cons,
      sum_cons, (merge_additive record window).2]
    exact add_right_comm _ _ _

/-! ## Histories -/

/-- The identities that a device has applied in a history of emissions. -/
theorem standing_replay_windows
    (key : String) (windows : List AggregateWindow) :
    (standing key (Memory.replay (windows.map Call.applyWindow))).1 =
      keysOf AggregateWindow.identity
        (windows.filter fun window => keyOf window = key) := by
  have described := replay_described key (windows.map Call.applyWindow)
  rw [← deliveries_map_applyWindow, standing]
  cases found : (replay
      (windows.map Call.applyWindow)).devices.lookup key with
  | none =>
    rw [found] at described
    rw [described]
    rfl
  | some record =>
    rw [found] at described
    exact described.2.1.identities

/-- The device of an emission and its identity. -/
def labelOf (window : AggregateWindow) : String × String :=
  (keyOf window, window.identity)

theorem knows_replay_windows
    (window : AggregateWindow) (windows : List AggregateWindow) :
    (Memory.replay (windows.map Call.applyWindow)).knows window ↔
      labelOf window ∈ keysOf labelOf windows := by
  rw [knows, standing_replay_windows, mem_keysOf, mem_keysOf]
  constructor
  · rintro ⟨other, member, identity⟩
    rw [mem_filter, decide_eq_true_eq] at member
    exact ⟨other, member.1, Prod.ext member.2 identity⟩
  · rintro ⟨other, member, label⟩
    refine ⟨other, ?_, congrArg Prod.snd label⟩
    rw [mem_filter, decide_eq_true_eq]
    exact ⟨member, congrArg Prod.fst label⟩

/-- Every device counts each identity once. -/
theorem total_replay_windows (windows : List AggregateWindow) :
    (Memory.replay (windows.map Call.applyWindow)).total =
      ((firstBy labelOf ∅ windows).map AggregateWindow.tally).sum := by
  induction windows using List.reverseRecOn with
  | nil => rfl
  | append_singleton earlier window induction =>
    rw [map_append, map_singleton, replay_concat]
    have known := knows_replay_windows window earlier
    rw [← Finset.empty_union (keysOf labelOf earlier)] at known
    show (applyWindow none window _).1.total = _
    rw [total_applyWindow, induction, firstBy_concat]
    by_cases applied : labelOf window ∈ ∅ ∪ keysOf labelOf earlier
    · rw [if_pos (known.mpr applied), if_pos applied, add_zero]
    · rw [if_neg (fun knows => applied (known.mp knows)),
        if_neg applied, map_append, sum_append,
        map_singleton, sum_singleton]

/-- The counters of no device are negative. -/
def Memory.Nonnegative (memory : Memory) : Prop :=
  ∀ record ∈ GoMap.values memory.devices, 0 ≤ record.state.count.toInt

theorem events_recordFor (window : AggregateWindow) (memory : Memory) :
    (memory.recordFor window).1.events = memory.events ∧
      (memory.Nonnegative → (memory.recordFor window).1.Nonnegative) := by
  rw [events, events, Memory.Nonnegative, Memory.Nonnegative]
  rcases values_recordFor window memory with same | ⟨_, _, added⟩
  · rw [same]
    exact ⟨rfl, fun nonnegative => nonnegative⟩
  · rw [added, map_cons, sum_cons]
    refine ⟨zero_add _, ?_⟩
    intro nonnegative record member
    rcases mem_cons.mp member with rfl | old
    · exact le_rfl
    · exact nonnegative record old

/-- A window that fits adds its count to the number of events. -/
theorem events_applyWindow
    (nonnegative : memory.Nonnegative) (fresh : ¬memory.knows window)
    (counts : 0 ≤ window.count.toInt)
    (fits : memory.events + window.count.toInt ≤ 9223372036854775807) :
    (memory.applyWindow none window).1.Nonnegative ∧
      (memory.applyWindow none window).1.events =
        memory.events + window.count.toInt := by
  rcases events_recordFor window memory with ⟨same, kept⟩
  rcases values_applyWindow fresh with ⟨record, others, before, after⟩
  have all : ∀ other ∈ record :: others, 0 ≤ other.state.count.toInt := by
    intro other member
    exact kept nonnegative other (before.mem_iff.mpr member)
  have sum : memory.events = record.state.count.toInt +
      (others.map fun other => other.state.count.toInt).sum := by
    rw [← same, events, (before.map _).sum_eq, map_cons, sum_cons]
  have rest : 0 ≤ (others.map fun other => other.state.count.toInt).sum := by
    apply sum_nonneg
    intro count member
    rcases mem_map.mp member with ⟨other, inside, rfl⟩
    exact all other (mem_cons_of_mem _ inside)
  have first := all record mem_cons_self
  have merged : (record.merge window).state.count.toInt =
      record.state.count.toInt + window.count.toInt := by
    have added := congrArg Tally.count (merge_additive record window).2
    rw [show (record.merge window).state.count =
      record.state.count + window.count from added]
    apply Word.toInt_add
    · omega
    · omega
  constructor
  · intro other member
    rw [after] at member
    rcases mem_cons.mp member with rfl | old
    · rw [merged]
      omega
    · exact all other (mem_cons_of_mem _ old)
  · rw [events, after, map_cons, sum_cons, merged, sum]
    omega

/-- Below `2^63` the counters stand for the events of all identities. -/
theorem events_replay_windows {windows : List AggregateWindow}
    (counts : ∀ window ∈ windows, 0 ≤ window.count.toInt)
    (fits : ((firstBy labelOf ∅ windows).map fun window =>
      window.count.toInt).sum ≤ 9223372036854775807) :
    (Memory.replay (windows.map Call.applyWindow)).Nonnegative ∧
      (Memory.replay (windows.map Call.applyWindow)).events =
        ((firstBy labelOf ∅ windows).map fun window =>
          window.count.toInt).sum := by
  induction windows using List.reverseRecOn with
  | nil =>
    refine ⟨?_, rfl⟩
    intro record member
    cases member
  | append_singleton earlier window induction =>
    have known := knows_replay_windows window earlier
    rw [← Finset.empty_union (keysOf labelOf earlier)] at known
    have before : ∀ window ∈ earlier, 0 ≤ window.count.toInt :=
      fun other member => counts other (mem_append_left _ member)
    have here : 0 ≤ window.count.toInt :=
      counts window (mem_append_right _ (mem_singleton_self _))
    rw [map_append, map_singleton, replay_concat]
    show (applyWindow none window _).1.Nonnegative ∧
      (applyWindow none window _).1.events = _
    rw [firstBy_concat] at fits ⊢
    by_cases applied : labelOf window ∈ ∅ ∪ keysOf labelOf earlier
    · rw [if_pos applied] at fits ⊢
      rcases induction before fits with ⟨nonnegative, events⟩
      rcases events_recordFor window
        (Memory.replay (earlier.map Call.applyWindow)) with ⟨same, kept⟩
      rw [Memory.Nonnegative, Memory.events,
        devices_applyWindow_of_knows (known.mpr applied)]
      exact ⟨kept nonnegative, same.trans events⟩
    · rw [if_neg applied, map_append, sum_append,
        map_singleton, sum_singleton] at fits ⊢
      rcases induction before (by omega) with ⟨nonnegative, events⟩
      rw [← events] at fits ⊢
      exact events_applyWindow nonnegative
        (fun knows => applied (known.mp knows)) here fits

/-- Where identities are distinct, every emission is kept once. -/
theorem firstBy_perm_of_distinct
    {windows : List AggregateWindow} {emitted : List AggregateWindow}
    (distinct : (emitted.map AggregateWindow.identity).Nodup)
    (same : ∀ window, window ∈ windows ↔ window ∈ emitted) :
    (firstBy labelOf ∅ windows).Perm emitted := by
  have identified : ∀ left ∈ emitted, ∀ right ∈ emitted,
      left.identity = right.identity → left = right := by
    intro left leftMember right rightMember equal
    exact inj_on_of_nodup_map distinct leftMember rightMember equal
  have named : Set.InjOn labelOf {window | window ∈ windows} := by
    intro left leftMember right rightMember equal
    exact identified left ((same left).mp leftMember) right
      ((same right).mp rightMember) (congrArg Prod.snd equal)
  apply (perm_ext_iff_of_nodup
    (Nodup.of_map labelOf (firstBy_nodup ∅ windows))
    (Nodup.of_map AggregateWindow.identity distinct)).mpr
  intro window
  rw [mem_firstBy named, same]

end Ironclaw.Store
