import Ironclaw.Aggregate.Ledger
import Mathlib.Tactic.NormNum

/-!
# A collect that does not fail

With a reliable sketch a collect emits every selected window, and returns
every window that is pending after it.
-/

namespace Ironclaw.Aggregate

open Lib Domain List AList Aggregator

variable {Sketch World : Type} {ops : SketchOps Sketch World}

theorem collectSelected_reliable
    (reliable : ops.Reliable) (keys : List WindowKey)
    (aggregator : Aggregator Sketch World) :
    (aggregator.collectSelected ops keys).2.2 = none := by
  induction keys generalizing aggregator with
  | nil => rfl
  | cons key rest induction =>
    rw [collectSelected]
    split
    · exact induction aggregator
    · rename_i state present
      rcases reliable.quantile (95 / 100) state.sketch aggregator.world
        (by norm_num) (by norm_num) with ⟨p95, middle, first⟩
      rcases reliable.quantile (99 / 100) state.sketch middle
        (by norm_num) (by norm_num) with ⟨p99, world, second⟩
      rw [first]
      simp only [second]
      exact induction _

namespace Emits

variable {keys : List WindowKey} {windows : List AggregateWindow}
variable {aggregator after : Aggregator Sketch World} {result : Option Fault}
variable (emits : Emits keys aggregator after windows result)
include emits

/-- What the emission loop leaves open was open, and was not selected. -/
theorem opened (succeeded : result = none) {key : WindowKey}
    (opened : after.openWindows.lookup key ≠ none) :
    key ∉ keys ∧ aggregator.openWindows.lookup key ≠ none := by
  induction emits with
  | done => exact ⟨not_mem_nil, opened⟩
  | failed => cases succeeded
  | skipped absent _ induction =>
    rcases induction succeeded opened with ⟨unselected, before⟩
    refine ⟨?_, before⟩
    intro selected
    rcases mem_cons.mp selected with rfl | later
    · exact before absent
    · exact unselected later
  | emitted window _ _ _ _ _ _ induction =>
    rcases induction succeeded opened with ⟨unselected, before⟩
    have different : key ≠ WindowKey.ofWindow window := by
      rintro rfl
      exact before (lookup_erase _ _)
    rw [Aggregator.emit, lookup_erase_ne different] at before
    exact ⟨not_mem_cons_of_ne_of_not_mem different unselected, before⟩

/-- A window that is pending after the loop was so before, or is emitted. -/
theorem pending {identity : String} {window : AggregateWindow}
    (pending : after.pending.lookup identity = some window) :
    aggregator.pending.lookup identity = some window ∨ window ∈ windows := by
  induction emits with
  | done | failed => exact Or.inl pending
  | skipped _ _ induction => exact induction pending
  | emitted _ _ _ _ _ _ _ induction =>
    rcases induction pending with before | later
    · rcases GoMap.of_lookup_insert before with ⟨_, ⟨⟩⟩ | ⟨_, earlier⟩
      · exact Or.inr mem_cons_self
      · exact Or.inl earlier
    · exact Or.inr (mem_cons_of_mem _ later)

theorem shed : after.shed = aggregator.shed := by
  induction emits with
  | done | failed => rfl
  | skipped _ _ induction | emitted _ _ _ _ _ _ _ induction =>
    exact induction

end Emits

theorem shed_collect
    (ops : SketchOps Sketch World) (included : WindowKey → Bool)
    (aggregator : Aggregator Sketch World) :
    (aggregator.collect ops included).1.shed = aggregator.shed := by
  rw [collect_fst]
  exact (collectSelected_emits ops _ aggregator).shed

theorem collect_reliable
    (reliable : ops.Reliable) (included : WindowKey → Bool)
    (aggregator : Aggregator Sketch World) :
    (aggregator.collect ops included).2 =
      (aggregator.pendingInOrder ++ aggregator.newlyEmitted ops included,
        none) := by
  have succeeded := collectSelected_reliable reliable
    (aggregator.selectedKeys included) aggregator
  rw [collect, succeeded]
  rfl

/-- Every window that is pending after a collect was returned by it. -/
theorem pending_collect
    (reliable : ops.Reliable) (included : WindowKey → Bool)
    (aggregator : Aggregator Sketch World)
    {identity : String} {window : AggregateWindow}
    (pending : (aggregator.collect ops included).1.pending.lookup identity =
      some window) : window ∈ (aggregator.collect ops included).2.1 := by
  rw [collect_reliable reliable, mem_append]
  rw [collect_fst] at pending
  rcases (collectSelected_emits ops _ aggregator).pending pending
    with before | emitted
  · apply Or.inl
    rw [pendingInOrder, (perm_insertionSort _ _).mem_iff]
    exact GoMap.mem_values_iff.mpr ⟨identity, before⟩
  · exact Or.inr emitted

/-- After a collect of all windows none is open. -/
theorem open_collectAll
    (reliable : ops.Reliable) (aggregator : Aggregator Sketch World) :
    (aggregator.collect ops fun _ => true).1.openWindows = ∅ := by
  rw [collect_fst]
  apply GoMap.eq_empty_of_lookup
  intro key
  by_contra opened
  rcases (collectSelected_emits ops _ aggregator).opened
    (collectSelected_reliable reliable _ aggregator) opened
    with ⟨unselected, before⟩
  apply unselected
  rw [selectedKeys, (perm_insertionSort _ _).mem_iff, mem_filter]
  refine ⟨?_, rfl⟩
  rw [← AList.mem_keys]
  by_contra absent
  exact before (AList.lookup_eq_none.mpr absent)

/-- A commit of all pending windows leaves none. -/
theorem pending_commit
    {windows : List AggregateWindow} {aggregator : Aggregator Sketch World}
    (identified : ∀ identity window,
      aggregator.pending.lookup identity = some window →
        identity = window.identity)
    (all : ∀ identity window,
      aggregator.pending.lookup identity = some window → window ∈ windows) :
    (aggregator.commit windows).pending = ∅ := by
  induction windows generalizing aggregator with
  | nil =>
    apply GoMap.eq_empty_of_lookup
    intro key
    cases found : aggregator.pending.lookup key with
    | none => exact found
    | some window => exact absurd (all key window found) not_mem_nil
  | cons first rest induction =>
    apply @induction { aggregator with
      pending := aggregator.pending.erase first.identity }
    · intro identity window found
      exact identified identity window (GoMap.of_lookup_erase found).2
    · intro identity window found
      rcases GoMap.of_lookup_erase found with ⟨different, before⟩
      rcases mem_cons.mp (all identity window before) with rfl | later
      · exact absurd (identified identity window before) different
      · exact later

end Ironclaw.Aggregate
