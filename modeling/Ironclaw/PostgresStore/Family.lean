import Ironclaw.PostgresStore.Store
import Ironclaw.Store.Convergence
import Mathlib.Algebra.BigOperators.Group.Finset.Basic

/-!
# What the archive holds of a device

After any delivery of the emissions of a device the table has one row for each
of them.  The rows of the last window with the largest count are those of the
emissions that lead, so the percentiles that are read are those of a leader.
-/

namespace Ironclaw.PostgresStore

open Lib Domain Store List Int64

variable {userID deviceID : String} {family : Family userID deviceID}
variable {order : List AggregateWindow}
variable {leader : AggregateWindow}

/-- The database takes the names and emissions; the sums have 64 bits. -/
structure Storable (family : Family userID deviceID) : Prop where
  texts : storableTexts [userID, deviceID] = true
  taken : ∀ window ∈ family.emissions, refusal window = none
  count : ∃ total, Archive.scan
    (∑ window ∈ family.emissions, window.count.toInt) = .ok total
  errorCount : ∃ total, Archive.scan
    (∑ window ∈ family.emissions, window.errorCount.toInt) = .ok total
  bytes : ∃ total, Archive.scan
    (∑ window ∈ family.emissions, window.bytes.toInt) = .ok total

theorem identity_of_primaryKey {left right : AggregateWindow}
    (equal : (rowOf left).primaryKey = (rowOf right).primaryKey) :
    left.identity = right.identity := by
  rcases left with ⟨⟨_, _, _, _⟩, _, _, _, _, _, _, _, _, _, _⟩
  rcases right with ⟨⟨_, _, _, _⟩, _, _, _, _, _, _, _, _, _, _⟩
  simp only [Row.primaryKey, rowOf, PrimaryKey.mk.injEq] at equal
  rcases equal with ⟨rfl, rfl, rfl, rfl, rfl, rfl, _⟩
  rfl

/-- The table has a row for each identity, in the order of arrival. -/
theorem rows_replay
    (taken : ∀ window ∈ family.emissions, refusal window = none)
    (inside : ∀ window ∈ order, window ∈ family.emissions) :
    (Archive.replay order).rows =
      (firstBy AggregateWindow.identity ∅ order).map rowOf := by
  induction order using List.reverseRecOn with
  | nil => rfl
  | append_singleton order window induction =>
    have earlier : ∀ other ∈ order, other ∈ family.emissions :=
      fun other member => inside other (mem_append_left _ member)
    have rows := induction earlier
    have member := inside window (by simp)
    have conflict : ((Archive.replay order).rows.any
        (·.primaryKey = (rowOf window).primaryKey)) = true ↔
          window.identity ∈ keysOf AggregateWindow.identity order := by
      rw [rows, any_map, any_eq_true]
      constructor
      · rintro ⟨other, kept, equal⟩
        have same := identity_of_primaryKey (of_decide_eq_true equal)
        exact mem_keysOf.mpr ⟨other, (firstBy_sublist _ _).subset kept, same⟩
      · intro known
        rcases mem_keysOf.mp known with ⟨other, listed, same⟩
        rcases exists_mem_firstBy listed
          (Finset.notMem_empty other.identity) with ⟨kept, first, equal⟩
        have only : kept = window := family.named
          (earlier kept ((firstBy_sublist _ _).subset first)) member
          (equal.trans same)
        exact ⟨kept, first, by simp [only]⟩
    rw [Archive.replay_concat, Archive.applyWindow, taken window member,
      firstBy_concat, Finset.empty_union]
    by_cases known : window.identity ∈ keysOf AggregateWindow.identity order
    · simp only [conflict.mpr known, if_true, known]
      exact rows
    · have absent : ((Archive.replay order).rows.any
          (·.primaryKey = (rowOf window).primaryKey)) = false :=
        Bool.eq_false_iff.mpr fun present => known (conflict.mp present)
      simp only [absent, Bool.false_eq_true, if_false, known,
        map_append, map_singleton]
      exact congrArg (· ++ [rowOf window]) rows

section Delivered

variable (plan : Plan)

/-- The rows that a query on the device meets. -/
theorem rowsOf_perm
    (storable : Storable family) (delivers : family.Delivers order) :
    ((Archive.replay order).rowsOf plan userID deviceID).Perm
      (family.emissions.toList.map rowOf) := by
  have rows : (Archive.replay order).rows.Perm
      (family.emissions.toList.map rowOf) := by
    rw [rows_replay storable.taken fun window => delivers.mem.mp]
    exact delivers.perm.map rowOf
  have all : ∀ row ∈ plan.order (Archive.replay order).rows,
      decide (row.userID = userID ∧ row.deviceID = deviceID) = true := by
    intro row member
    have listed := rows.mem_iff.mp ((plan.perm _).mem_iff.mp member)
    rcases mem_map.mp listed with ⟨window, emitted, rfl⟩
    exact decide_eq_true (family.mine window (Finset.mem_toList.mp emitted))
  rw [Archive.rowsOf, filter_eq_self.mpr all]
  exact (plan.perm _).trans rows

variable {plan} {rows : List Row}
variable (perm : rows.Perm (family.emissions.toList.map rowOf))
include perm

theorem mem_of_perm {row : Row} :
    row ∈ rows ↔ ∃ window ∈ family.emissions, rowOf window = row := by
  rw [perm.mem_iff, mem_map]
  simp only [Finset.mem_toList]

theorem sum_rows (column : Row → Int64) : Archive.sum column rows =
      ∑ window ∈ family.emissions, (column (rowOf window)).toInt := by
  rw [Archive.sum, (perm.map _).sum_eq, map_map]
  exact Finset.sum_map_toList _ _

/-- The last window of the rows is that of a leader. -/
theorem maxWindowID_rows (leads : family.Leads leader) :
    Archive.maxWindowID rows = leader.windowID := by
  have listed : rowOf leader ∈ rows :=
    (mem_of_perm perm).mpr ⟨leader, leads.mem, rfl⟩
  rcases @exists_firstBest _ _ _ (fun row : Row => row.windowID.toInt) _
    (ne_nil_of_mem listed) with ⟨row, chosen⟩
  have best := firstBest_best chosen
  rcases (mem_of_perm perm).mp best.mem with ⟨window, emitted, rfl⟩
  rw [Archive.maxWindowID, chosen, Option.map_some, Option.getD_some]
  apply toInt_inj.mp
  apply le_antisymm
  · have higher := leads.le window emitted
    rcases Prod.Lex.toLex_le_toLex.mp higher with less | ⟨same, _⟩
    · exact less.le
    · exact same.le
  · exact best.le _ listed

/-- The percentiles of the rows are those of a leader. -/
theorem latestPercentiles_rows (leads : family.Leads leader) :
    ∃ window, family.Leads window ∧
      Archive.latestPercentiles leader.windowID rows =
        some (rowOf window) := by
  have listed : rowOf leader ∈ rows.filter fun row =>
      row.windowID = leader.windowID := by
    apply mem_filter.mpr
    exact ⟨(mem_of_perm perm).mpr ⟨leader, leads.mem, rfl⟩, by simp [rowOf]⟩
  rcases @exists_firstBest _ _ _
    (fun row : Row => toLex (row.eventCount.toInt, row.sequence.toInt)) _
    (ne_nil_of_mem listed) with ⟨row, chosen⟩
  have best := firstBest_best chosen
  rcases mem_filter.mp best.mem with ⟨member, last⟩
  rcases (mem_of_perm perm).mp member with ⟨window, emitted, rfl⟩
  have sameID : window.windowID = leader.windowID := of_decide_eq_true last
  refine ⟨window, ⟨emitted, ?_⟩, chosen⟩
  intro other present
  apply (leads.le other present).trans
  apply Prod.Lex.toLex_le_toLex.mpr
  refine Or.inr ⟨congrArg toInt sameID.symm, ?_⟩
  rcases Prod.Lex.toLex_le_toLex.mp (best.le _ listed) with less | ⟨same, _⟩
  · exact less.le
  · exact same.le

end Delivered

/-- What is read of a device whose emissions are archived. -/
theorem deviceState_replay (plan : Plan) (storable : Storable family)
    (delivers : family.Delivers order) (leads : family.Leads leader) :
    ∃ window, family.Leads window ∧
      (Archive.replay order).deviceState plan userID deviceID = .ok
        { userID := userID
          deviceID := deviceID
          count := ofInt (∑ window ∈ family.emissions, window.count.toInt)
          errorCount := ofInt
            (∑ window ∈ family.emissions, window.errorCount.toInt)
          bytes := ofInt (∑ window ∈ family.emissions, window.bytes.toInt)
          p95Nanos := window.p95Nanos
          p99Nanos := window.p99Nanos
          lastWindowID := leader.windowID
          lastSeen := Archive.seenAt (scanTime (micros window.windowEnd))
          stale := false } := by
  have perm := rowsOf_perm plan storable delivers
  rcases latestPercentiles_rows perm leads with ⟨window, best, chosen⟩
  have last := maxWindowID_rows perm leads
  have present : (Archive.replay order).rowsOf plan userID deviceID ≠ [] :=
    ne_nil_of_mem ((mem_of_perm perm).mpr ⟨leader, leads.mem, rfl⟩)
  have scanned : ∀ {number : Int} {total : Int64},
      Archive.scan number = .ok total →
        Archive.scan number = .ok (ofInt number) := by
    intro number total scan
    rw [Archive.scan] at scan ⊢
    split at scan
    · next range => rw [if_pos range]
    · cases scan
  rcases storable.count with ⟨_, count⟩
  rcases storable.errorCount with ⟨_, errorCount⟩
  rcases storable.bytes with ⟨_, bytes⟩
  refine ⟨window, best, ?_⟩
  rw [Archive.deviceState, Archive.sums, if_pos storable.texts]
  simp only [sum_rows perm]
  rw [show Archive.scan (∑ window ∈ family.emissions,
      (rowOf window).eventCount.toInt) = _ from scanned count,
    show Archive.scan (∑ window ∈ family.emissions,
      (rowOf window).errorCount.toInt) = _ from scanned errorCount,
    show Archive.scan (∑ window ∈ family.emissions,
      (rowOf window).byteCount.toInt) = _ from scanned bytes]
  simp only [present, and_false, if_false, Archive.stateOf, last, chosen,
    Option.map_some, Option.getD_some]
  rfl

end Ironclaw.PostgresStore
