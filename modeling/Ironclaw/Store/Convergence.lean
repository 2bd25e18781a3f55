import Ironclaw.Lib.Champion
import Ironclaw.Store.History

/-!
# Convergence of the hot store

Two stores that receive the same emissions of a device, in different orders
and with redeliveries, agree on the counters, on the last window and on the
time the device was seen.

The percentiles are those of the emission that wins a tournament by window and
sample size.  A tie leaves the emission that arrived first, so the stores
agree on the percentiles exactly if the largest emissions of the last window
carry the same ones.
-/

namespace Ironclaw.Store

open Lib Domain List Int64 Memory DeviceRecord AggregateWindow
open AggregateWindow (identity)

/-! ## A record without resets -/

theorem foldl_receive
    (windows : List AggregateWindow) (record : DeviceRecord) :
    windows.foldl DeviceRecord.receive record =
      (firstBy identity record.applied windows).foldl
        merge record := by
  induction windows generalizing record with
  | nil => rfl
  | cons window rest induction =>
    rw [foldl_cons, induction, receive]
    by_cases known : window.identity ∈ record.applied
    · rw [if_pos known, firstBy, if_pos known]
    · rw [if_neg known, firstBy, if_neg known, foldl_cons,
        (merge_additive record window).1]

/-- The record of a device that received some windows and nothing else. -/
theorem lookup_replay_windows
    {userID deviceID : String} {windows : List AggregateWindow}
    (present : windows ≠ [])
    (mine : ∀ window ∈ windows,
      window.key.userID = userID ∧ window.key.deviceID = deviceID) :
    (Memory.replay (windows.map Call.applyWindow)).devices.lookup
        (deviceKey userID deviceID) =
      some (windows.foldl DeviceRecord.receive (fresh userID deviceID)) := by
  have general : (replay (windows.map Call.applyWindow)).devices.lookup
          (deviceKey userID deviceID) =
      if windows = [] then none
      else some (windows.foldl receive (fresh userID deviceID)) := by
    clear present
    induction windows using List.reverseRecOn with
    | nil => rfl
    | append_singleton earlier window induction =>
      rcases mine window (by simp) with ⟨rfl, rfl⟩
      have before := induction fun other member =>
        mine other (mem_append_left _ member)
      have nonempty : earlier ++ [window] ≠ [] := by simp
      rw [if_neg nonempty, map_append, map_singleton,
        replay_concat, perform, foldl_append]
      apply (devices_applyWindow_self _ _).trans
      rw [keyOf, before]
      split
      · rename_i empty
        subst empty
        rfl
      · rfl
  rw [general, if_neg present]

theorem foldl_receive_fresh
    (userID deviceID : String) (windows : List AggregateWindow) :
    windows.foldl DeviceRecord.receive (DeviceRecord.fresh userID deviceID) =
      (firstBy identity ∅ windows).foldl
        merge (fresh userID deviceID) :=
  foldl_receive windows _

/-! ## The two tournaments of a merge -/

/-- Percentiles, with the window and the size of their sample. -/
structure Score where
  windowID : Int64
  sample : Int64
  p95Nanos : Int64
  p99Nanos : Int64

def Score.rank (score : Score) : ℤ ×ₗ ℤ :=
  toLex (score.windowID.toInt, score.sample.toInt)

/-- A time at which a device was seen, with the window it was seen in. -/
structure Sighting where
  windowID : Int64
  seen : Time

def Sighting.rank (sighting : Sighting) : ℤ ×ₗ ℤ :=
  toLex (sighting.windowID.toInt, sighting.seen.nanos)

def scoreOf (window : AggregateWindow) : Score where
  windowID := window.windowID
  sample := window.count
  p95Nanos := window.p95Nanos
  p99Nanos := window.p99Nanos

def sightingOf (window : AggregateWindow) : Sighting where
  windowID := window.windowID
  seen := window.windowEnd

namespace DeviceRecord

def score (record : DeviceRecord) : Score where
  windowID := record.state.lastWindowID
  sample := record.percentileSample
  p95Nanos := record.state.p95Nanos
  p99Nanos := record.state.p99Nanos

def sighting (record : DeviceRecord) : Sighting where
  windowID := record.state.lastWindowID
  seen := record.state.lastSeen

end DeviceRecord

theorem rank_lt_iff {firstID secondID : Int64} {first second : ℤ} :
    toLex (firstID.toInt, first) < toLex (secondID.toInt, second) ↔
      firstID < secondID ∨ firstID = secondID ∧ first < second := by
  rw [Prod.Lex.toLex_lt_toLex, ← lt_iff_toInt_lt, toInt_inj]

/-- The percentiles of a merge are those of the higher score. -/
theorem score_merge (record : DeviceRecord) (window : AggregateWindow) :
    (record.merge window).score =
      better Score.rank record.score (scoreOf window) := by
  have less : record.score.rank < (scoreOf window).rank ↔
      record.state.lastWindowID < window.windowID ∨
        record.state.lastWindowID = window.windowID ∧
          record.percentileSample < window.count := by
    rw [lt_iff_toInt_lt (x := record.percentileSample)]
    exact rank_lt_iff
  by_cases later : record.state.lastWindowID < window.windowID
  · rw [better, if_pos (less.mpr (Or.inl later)), merge_of_later later]
    rfl
  · by_cases same : record.state.lastWindowID = window.windowID
    · rcases merge_of_eq same.symm with ⟨last, _, percentiles⟩
      rw [score, last]
      by_cases larger : record.percentileSample < window.count
      · rw [if_pos larger, Prod.mk.injEq, Prod.mk.injEq] at percentiles
        rcases percentiles with ⟨sample, p95, p99⟩
        rw [better, if_pos (less.mpr (Or.inr ⟨same, larger⟩)), sample,
          p95, p99, same]
        rfl
      · rw [if_neg larger, Prod.mk.injEq, Prod.mk.injEq] at percentiles
        rcases percentiles with ⟨sample, p95, p99⟩
        rw [better, if_neg fun higher => (less.mp higher).elim later
          fun equal => larger equal.2, sample, p95, p99]
        rfl
    · rw [better, if_neg fun higher => (less.mp higher).elim later
        fun equal => same equal.1, merge_of_earlier
          (Int64.lt_of_le_of_ne (Int64.not_lt.mp later) (Ne.symm same))]
      rfl

/-- The device was last seen at the higher sighting. -/
theorem sighting_merge (record : DeviceRecord) (window : AggregateWindow) :
    (record.merge window).sighting =
      better Sighting.rank record.sighting (sightingOf window) := by
  have less : record.sighting.rank < (sightingOf window).rank ↔
      record.state.lastWindowID < window.windowID ∨
        record.state.lastWindowID = window.windowID ∧
          record.state.lastSeen.nanos < window.windowEnd.nanos :=
    rank_lt_iff
  by_cases later : record.state.lastWindowID < window.windowID
  · rw [better, if_pos (less.mpr (Or.inl later)), merge_of_later later]
    rfl
  · by_cases same : record.state.lastWindowID = window.windowID
    · rcases merge_of_eq same.symm with ⟨last, seen, _⟩
      rw [sighting, last, seen]
      by_cases newer : window.windowEnd.after record.state.lastSeen = true
      · rw [better, if_pos (less.mpr (Or.inr
          ⟨same, of_decide_eq_true newer⟩)), if_pos newer, same]
        rfl
      · rw [better, if_neg fun higher => (less.mp higher).elim later
          fun equal => newer (decide_eq_true equal.2), if_neg newer]
        rfl
    · rw [better, if_neg fun higher => (less.mp higher).elim later
        fun equal => same equal.1, merge_of_earlier
          (Int64.lt_of_le_of_ne (Int64.not_lt.mp later) (Ne.symm same))]
      rfl

section Folds

variable (windows : List AggregateWindow) (record : DeviceRecord)

theorem score_foldl : (windows.foldl DeviceRecord.merge record).score =
      champion Score.rank record.score (windows.map scoreOf) := by
  rw [champion, foldl_map]
  exact (foldl_hom score fun record window =>
    (score_merge record window).symm).symm

theorem sighting_foldl : (windows.foldl DeviceRecord.merge record).sighting =
      champion Sighting.rank record.sighting (windows.map sightingOf) := by
  rw [champion, foldl_map]
  exact (foldl_hom sighting fun record window =>
    (sighting_merge record window).symm).symm

theorem tally_foldl : (windows.foldl DeviceRecord.merge record).state.tally =
      record.state.tally + (windows.map tally).sum := by
  induction windows generalizing record with
  | nil => exact (add_zero _).symm
  | cons window rest induction =>
    rw [foldl_cons, induction, (merge_additive record window).2,
      map_cons, sum_cons, add_assoc]

theorem label_foldl :
    (windows.foldl merge record).label = record.label := by
  induction windows generalizing record with
  | nil => rfl
  | cons window rest induction =>
    rw [foldl_cons, induction, label_merge]

end Folds

/-- A state is its label, its counters, its percentiles and its sighting. -/
theorem state_eq
    {left right : DeviceRecord} (label : left.label = right.label)
    (tally : left.state.tally = right.state.tally)
    (sighting : left.sighting = right.sighting)
    (p95 : left.state.p95Nanos = right.state.p95Nanos)
    (p99 : left.state.p99Nanos = right.state.p99Nanos) :
    left.state = right.state := by
  rcases left with ⟨⟨_, _, _, _, _, _, _, _, _, _⟩, _, _⟩
  rcases right with ⟨⟨_, _, _, _, _, _, _, _, _, _⟩, _, _⟩
  simp only [DeviceRecord.label, Prod.mk.injEq] at label
  simp only [DeviceState.tally, Tally.mk.injEq] at tally
  simp only [DeviceRecord.sighting, Sighting.mk.injEq] at sighting
  simp only at p95 p99
  rcases label with ⟨rfl, rfl, rfl⟩
  rcases tally with ⟨rfl, rfl, rfl⟩
  rcases sighting with ⟨rfl, rfl⟩
  subst p95 p99
  rfl

theorem Sighting.rank_injective : Function.Injective Sighting.rank := by
  rintro ⟨leftID, ⟨leftNanos⟩⟩ ⟨rightID, ⟨rightNanos⟩⟩ equal
  rcases Prod.mk.inj (toLex.injective equal) with ⟨ids, nanos⟩
  rw [toInt_inj] at ids
  simp only at ids nanos
  rw [ids, nanos]

/-! ## Families of emissions -/

/-- A finite set of emissions of one device with distinct identities. -/
structure Family (userID deviceID : String) where
  emissions : Finset AggregateWindow
  mine : ∀ window ∈ emissions,
    window.key.userID = userID ∧ window.key.deviceID = deviceID
  named : Set.InjOn identity
    {window | window ∈ emissions}
  count_pos : ∀ window ∈ emissions, 1 ≤ window.count
  windowID_nonneg : ∀ window ∈ emissions, 0 ≤ window.windowID

namespace Family

variable {userID deviceID : String} {family : Family userID deviceID}
variable {order : List AggregateWindow}

/-- An order of delivery: every emission, as often as it likes. -/
def Delivers
    (family : Family userID deviceID)
    (order : List AggregateWindow) : Prop :=
  order.toFinset = family.emissions

instance decidableDelivers
    (family : Family userID deviceID) (order : List AggregateWindow) :
    Decidable (family.Delivers order) :=
  inferInstanceAs (Decidable (order.toFinset = family.emissions))

/-- The emission is a largest one of the last window. -/
def Leads
    (family : Family userID deviceID) (window : AggregateWindow) : Prop :=
  Best (fun window => (scoreOf window).rank) (· ∈ family.emissions) window

/-- The largest emissions of the last window carry the same percentiles. -/
def TiesAgree (family : Family userID deviceID) : Prop :=
  ∀ left right, family.Leads left → family.Leads right →
    left.p95Nanos = right.p95Nanos ∧ left.p99Nanos = right.p99Nanos

theorem Delivers.mem
    (delivers : family.Delivers order) {window : AggregateWindow} :
    window ∈ order ↔ window ∈ family.emissions := by
  rw [← delivers, mem_toFinset]

/-- What is applied of a delivery is the family, in some order. -/
theorem Delivers.perm (delivers : family.Delivers order) :
    (firstBy identity ∅ order).Perm
      family.emissions.toList := by
  have named : Set.InjOn identity
      {window | window ∈ order} := by
    intro left leftMember right rightMember
    exact family.named (delivers.mem.mp leftMember)
      (delivers.mem.mp rightMember)
  apply (perm_ext_iff_of_nodup
    (Nodup.of_map identity (firstBy_nodup ∅ order))
    family.emissions.nodup_toList).mpr
  intro window
  rw [mem_firstBy named, delivers.mem, Finset.mem_toList]

/-- The record of a device that has received its family. -/
structure Settled
    (family : Family userID deviceID) (record : DeviceRecord) : Prop where
  label : record.label = (userID, deviceID, false)
  tally : record.state.tally =
    (family.emissions.toList.map tally).sum
  sighting : Best Sighting.rank
    (· ∈ ⟨0, Time.zero⟩ :: family.emissions.toList.map sightingOf)
    record.sighting
  score : ∃ window, family.Leads window ∧ record.score = scoreOf window

theorem fresh_outranked
    {window : AggregateWindow} (member : window ∈ family.emissions) :
    (DeviceRecord.fresh userID deviceID).score.rank <
      (scoreOf window).rank := by
  have positive := family.count_pos window member
  have nonneg := family.windowID_nonneg window member
  rw [le_iff_toInt_le] at positive nonneg
  apply Prod.Lex.toLex_lt_toLex.mpr
  rcases lt_or_eq_of_le nonneg with later | first
  · exact Or.inl later
  · exact Or.inr ⟨first, positive⟩

theorem settled_of_delivers
    (delivers : family.Delivers order) (present : order ≠ []) :
    family.Settled (order.foldl DeviceRecord.receive
      (fresh userID deviceID)) := by
  have perm := delivers.perm
  rw [foldl_receive_fresh]
  constructor
  · exact label_foldl _ _
  · rw [tally_foldl, (perm.map tally).sum_eq]
    exact zero_add _
  · rw [sighting_foldl]
    apply (champion_best _ _).congr
    intro sighting
    exact ((perm.map sightingOf).cons _).mem_iff
  · rw [score_foldl]
    have some : (firstBy identity ∅ order).map
        scoreOf ≠ [] := by
      rcases exists_mem_of_ne_nil order present with ⟨window, member⟩
      have kept := perm.mem_iff.mpr
        (Finset.mem_toList.mpr (delivers.mem.mp member))
      exact ne_nil_of_mem (mem_map_of_mem kept)
    have outranked : ∀ score ∈ (firstBy identity ∅
        order).map scoreOf,
        (fresh userID deviceID).score.rank < score.rank := by
      intro score member
      rcases mem_map.mp member with ⟨window, kept, rfl⟩
      exact fresh_outranked (Finset.mem_toList.mp (perm.mem_iff.mp kept))
    rcases (champion_mem some outranked).of_map with ⟨window, leads, equal⟩
    refine ⟨window, leads.congr ?_, equal⟩
    intro other
    rw [perm.mem_iff, Finset.mem_toList]

theorem deviceState_of_delivers (delivers : family.Delivers order) :
    (Memory.replay (order.map Call.applyWindow)).deviceState none userID
        deviceID = if order = [] then .error errDeviceNotFound
      else .ok (order.foldl DeviceRecord.receive
        (fresh userID deviceID)).state := by
  by_cases present : order = []
  · rw [if_pos present, present]
    rfl
  · rw [if_neg present, deviceState]
    simp only [lookup_replay_windows present fun window member =>
      family.mine window (delivers.mem.mp member)]

/-- Settled records with equal percentiles report the same state. -/
theorem Settled.state_eq
    {left right : DeviceRecord} (leftSettled : family.Settled left)
    (rightSettled : family.Settled right) (agree : family.TiesAgree) :
    left.state = right.state := by
  rcases leftSettled.score with ⟨leftWindow, leftLeads, leftScore⟩
  rcases rightSettled.score with ⟨rightWindow, rightLeads, rightScore⟩
  rcases agree leftWindow rightWindow leftLeads rightLeads with ⟨p95, p99⟩
  apply Store.state_eq
  · rw [leftSettled.label, rightSettled.label]
  · rw [leftSettled.tally, rightSettled.tally]
  · exact Sighting.rank_injective
      (leftSettled.sighting.rank_eq rightSettled.sighting)
  · exact (congrArg Score.p95Nanos leftScore).trans
      (p95.trans (congrArg Score.p95Nanos rightScore).symm)
  · exact (congrArg Score.p99Nanos leftScore).trans
      (p99.trans (congrArg Score.p99Nanos rightScore).symm)

/-- A leader that is delivered first gives the percentiles. -/
theorem Leads.exists_delivers
    {window : AggregateWindow} (leads : family.Leads window) :
    ∃ order state, family.Delivers order ∧
      (Memory.replay (order.map Call.applyWindow)).deviceState none userID
        deviceID = .ok state ∧
      state.p95Nanos = window.p95Nanos ∧
        state.p99Nanos = window.p99Nanos := by
  have delivers : family.Delivers (window :: family.emissions.toList) := by
    rw [Delivers, toFinset_cons, Finset.toList_toFinset,
      Finset.insert_eq_of_mem leads.mem]
  have score : ((window :: family.emissions.toList).foldl receive
      (fresh userID deviceID)).score = scoreOf window := by
    rw [foldl_receive_fresh, firstBy, if_neg (Finset.notMem_empty _),
      score_foldl, map_cons]
    apply champion_of_first
    · exact fresh_outranked leads.mem
    · intro score member
      rcases mem_map.mp member with ⟨other, kept, rfl⟩
      exact leads.le other (Finset.mem_toList.mp
        ((firstBy_sublist _ _).subset kept))
  refine ⟨_, _, delivers, ?_, congrArg Score.p95Nanos score,
    congrArg Score.p99Nanos score⟩
  rw [deviceState_of_delivers delivers, if_neg (cons_ne_nil _ _)]

end Family

/--
Stores that receive the emissions of a device, each in an order of its own and
with redeliveries, always report the same state of the device if and only if
the largest emissions of the last window carry the same percentiles.
-/
theorem stores_converge
    {userID deviceID : String} (family : Family userID deviceID) :
    (∀ first second, family.Delivers first → family.Delivers second →
      (Memory.replay (first.map Call.applyWindow)).deviceState none userID
          deviceID =
        (Memory.replay (second.map Call.applyWindow)).deviceState none
          userID deviceID) ↔ family.TiesAgree := by
  constructor
  · intro converge left right leftLeads rightLeads
    rcases leftLeads.exists_delivers
      with ⟨first, leftState, firstDelivers, leftRead, p95, p99⟩
    rcases rightLeads.exists_delivers
      with ⟨second, rightState, secondDelivers, rightRead, p95', p99'⟩
    have same := converge first second firstDelivers secondDelivers
    rw [leftRead, rightRead, Except.ok.injEq] at same
    rw [← p95, ← p99, ← p95', ← p99', same]
    exact ⟨rfl, rfl⟩
  · intro agree first second firstDelivers secondDelivers
    rw [Family.deviceState_of_delivers firstDelivers,
      Family.deviceState_of_delivers secondDelivers]
    by_cases empty : first = []
    · have none : second = [] := by
        rw [← toFinset_eq_empty_iff, secondDelivers, ← firstDelivers, empty]
        rfl
      rw [if_pos empty, if_pos none]
    · have some : second ≠ [] := by
        intro none
        apply empty
        rw [← toFinset_eq_empty_iff, firstDelivers, ← secondDelivers, none]
        rfl
      rw [if_neg empty, if_neg some]
      apply congrArg Except.ok
      exact (Family.settled_of_delivers firstDelivers empty).state_eq
        (Family.settled_of_delivers secondDelivers some) agree

/-! ### Two emissions of one window -/

/-- An emission of one window, by its sequence, its size and its p99. -/
def emissionOf (sequence count p99Nanos : Int64) : AggregateWindow :=
  { exampleWindow "device-1" with
    sequence := sequence
    count := count
    p99Nanos := p99Nanos }

/-- Two emissions of one window. -/
def pairOf (firstCount secondCount : Int64) : Finset AggregateWindow :=
  {emissionOf 1 firstCount 90000, emissionOf 2 secondCount 1000}

def exampleFamily : Family "user-1" "device-1" where
  emissions := pairOf 10 4
  mine := by decide
  named left leftMember right rightMember same := by
    have distinct : ∀ left ∈ pairOf 10 4, ∀ right ∈ pairOf 10 4,
        left.sequence = right.sequence → left = right := by
      decide
    exact distinct left leftMember right rightMember
      (sequence_eq_of_identity same)
  count_pos := by decide
  windowID_nonneg := by decide

theorem exampleFamily_tiesAgree : exampleFamily.TiesAgree := by
  have leader : ∀ window, exampleFamily.Leads window →
      window = emissionOf 1 10 90000 := by
    intro window leads
    have larger := leads.le (emissionOf 1 10 90000) (by decide)
    have member := leads.mem
    simp only [exampleFamily, pairOf, Finset.mem_insert,
      Finset.mem_singleton] at member
    rcases member with rfl | rfl
    · rfl
    · exact absurd larger (by decide)
  intro left right leftLeads rightLeads
  rw [leader left leftLeads, leader right rightLeads]
  exact ⟨rfl, rfl⟩

theorem stores_converge_example :
    (Memory.replay ([emissionOf 1 10 90000, emissionOf 2 4 1000].map
        Call.applyWindow)).deviceState none "user-1" "device-1" =
      (Memory.replay ([emissionOf 2 4 1000, emissionOf 1 10 90000,
        emissionOf 2 4 1000].map Call.applyWindow)).deviceState none
          "user-1" "device-1" :=
  (stores_converge exampleFamily).mpr exampleFamily_tiesAgree _ _
    (by decide) (by decide)

/-- Emissions of equal size: the percentiles are those of the first. -/
theorem stores_diverge_on_ties : ∃ first second : List AggregateWindow,
      first.toFinset = pairOf 10 10 ∧ second.toFinset = pairOf 10 10 ∧
        (∀ left ∈ pairOf 10 10, ∀ right ∈ pairOf 10 10,
          left.identity = right.identity → left = right) ∧
        (∀ window ∈ pairOf 10 10, keyOf window =
            deviceKey "user-1" "device-1" ∧ 1 ≤ window.count ∧
              0 ≤ window.windowID ∧
                window.windowEnd = ⟨1700000010000000000⟩) ∧
        ((Memory.replay (first.map Call.applyWindow)).deviceState none
            "user-1" "device-1").map DeviceState.p99Nanos = .ok 90000 ∧
          ((Memory.replay (second.map Call.applyWindow)).deviceState none
            "user-1" "device-1").map DeviceState.p99Nanos = .ok 1000 :=
  ⟨[emissionOf 1 10 90000, emissionOf 2 10 1000],
    [emissionOf 2 10 1000, emissionOf 1 10 90000],
    by decide, by decide, by decide, by decide,
    by decide, by decide⟩

end Ironclaw.Store
