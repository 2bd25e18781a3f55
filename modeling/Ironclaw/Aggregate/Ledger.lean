import Ironclaw.Aggregate.Effects
import Ironclaw.Domain.Tally
import Mathlib.Data.List.Flatten
import Mathlib.Data.List.Perm.Subperm

/-!
# Where every counted event is

The ledger is ghost state beside an aggregator.  It names every counted item:
an item is in an open window, or in exactly one emission.  `Tracks` ties the
ledger to the maps and counters of the aggregator, and each operation of the
aggregator preserves it.

Two clauses of `Tracks` are about identities.  The sequence number of the
`i`-th emission is the seed plus `i + 1` modulo `2^64`; so an identity is not
reused before `2^64` emissions, and until then the emissions are exactly the
pending windows and the windows removed by a commit.
-/

namespace Ironclaw.Aggregate

open Lib Domain List AList Aggregator WindowKey GoMap

variable {Sketch World Item : Type}
variable {window : AggregateWindow} {aggregator : Aggregator Sketch World}
variable (ops : SketchOps Sketch World)

/-- The open window that an emission came from. -/
def WindowKey.ofWindow (window : AggregateWindow) : WindowKey :=
  ⟨window.key, window.windowID⟩

def WindowState.tally (state : WindowState Sketch) : Tally where
  count := state.count
  errorCount := state.errorCount
  bytes := state.bytes

/-- The tally of items that carry an event. -/
def tallyOf (event : Item → Event) (items : List Item) : Tally :=
  (items.map fun item => (event item).tally).sum

theorem tallyOf_append (event : Item → Event) (first second : List Item) :
    tallyOf event (first ++ second) =
      tallyOf event first + tallyOf event second := by
  simp [tallyOf]

theorem tallyOf_perm (event : Item → Event) {first second : List Item}
    (same : first.Perm second) : tallyOf event first = tallyOf event second :=
  (same.map _).sum_eq

theorem tallyOf_flatMap {Entry : Type} (event : Item → Event)
    (entries : List Entry) (items : Entry → List Item) :
    tallyOf event (entries.flatMap items) =
      (entries.map fun entry => tallyOf event (items entry)).sum := by
  induction entries with
  | nil => rfl
  | cons head tail induction =>
    rw [flatMap_cons, tallyOf_append, induction]
    rfl

/-- The ghost record of everything an aggregator has counted. -/
structure Ledger (Item : Type) where
  /-- Every counted item, in the order of counting. -/
  accepted : List Item
  /-- The counted items whose window is still open. -/
  opened : List Item
  /-- Every emission with the items it counts, in the order of emission. -/
  emitted : List (AggregateWindow × List Item)
  /-- The pending windows that a commit removed. -/
  removed : List AggregateWindow

namespace Ledger

def empty : Ledger Item := ⟨[], [], [], []⟩

/-- Record items that were counted in open windows. -/
def count (items : List Item) (ledger : Ledger Item) : Ledger Item :=
  { ledger with
    accepted := ledger.accepted ++ items
    opened := ledger.opened ++ items }

/-- The opened items of one window. -/
def itemsAt
    (keyOf : Item → WindowKey) (key : WindowKey)
    (ledger : Ledger Item) : List Item :=
  ledger.opened.filter fun item => keyOf item = key

/-- Record one emission: it takes the opened items of its window. -/
def emit
    (keyOf : Item → WindowKey) (window : AggregateWindow)
    (ledger : Ledger Item) : Ledger Item :=
  let key := ofWindow window
  { ledger with
    opened := ledger.opened.filter fun item => !decide (keyOf item = key)
    emitted := ledger.emitted ++ [(window, ledger.itemsAt keyOf key)] }

def emitAll
    (keyOf : Item → WindowKey) (windows : List AggregateWindow)
    (ledger : Ledger Item) : Ledger Item :=
  windows.foldl (fun ledger window => ledger.emit keyOf window) ledger

/-- The pending windows that a commit of `windows` deletes. -/
def deleted :
    List AggregateWindow → GoMap String AggregateWindow → List AggregateWindow
  | [], _ => []
  | window :: rest, pending =>
    (pending.lookup window.identity).toList ++
      deleted rest (pending.erase window.identity)

def remove (windows : List AggregateWindow) (ledger : Ledger Item) :
    Ledger Item :=
  { ledger with removed := ledger.removed ++ windows }

/-- The emissions, without their items. -/
def windows (ledger : Ledger Item) : List AggregateWindow :=
  ledger.emitted.map Prod.fst

end Ledger

/-- The ledger describes the aggregator. -/
structure Tracks
    (event : Item → Event) (seed : Int64)
    (aggregator : Aggregator Sketch World) (ledger : Ledger Item) :
    Prop where
  accepted_perm : ledger.accepted.Perm
      (ledger.opened ++ ledger.emitted.flatMap Prod.snd)
  open_tally : ∀ key state, aggregator.openWindows.lookup key = some state →
      state.tally = tallyOf event
          (ledger.itemsAt
            (fun item => windowKeyOf aggregator.config (event item)) key)
  open_nonempty : ∀ key state,
    aggregator.openWindows.lookup key = some state → ledger.itemsAt
        (fun item => windowKeyOf aggregator.config (event item)) key ≠ []
  open_absent : ∀ key, aggregator.openWindows.lookup key = none →
      ledger.itemsAt
        (fun item => windowKeyOf aggregator.config (event item)) key = []
  emitted_tally : ∀ entry ∈ ledger.emitted,
    entry.1.tally = tallyOf event entry.2
  emitted_key : ∀ entry ∈ ledger.emitted, ∀ item ∈ entry.2,
    windowKeyOf aggregator.config (event item) = ofWindow entry.1
  emitted_nonempty : ∀ entry ∈ ledger.emitted, entry.2 ≠ []
  sequences : ledger.windows.map AggregateWindow.sequence =
      (List.range ledger.emitted.length).map fun index =>
        seed + Int64.ofNat (index + 1)
  sequence_eq : aggregator.sequence = seed + Int64.ofNat ledger.emitted.length
  pending_emitted : ∀ identity window,
    aggregator.pending.lookup identity = some window →
      identity = window.identity ∧ window ∈ ledger.windows
  conserved : ledger.emitted.length < 2 ^ 64 → ledger.windows.Perm
        (values aggregator.pending ++ ledger.removed)

/-! ## Small equations of the ledger -/

namespace Ledger

theorem count_nil (ledger : Ledger Item) : ledger.count [] = ledger := by
  simp [count]

theorem count_count (first second : List Item) (ledger : Ledger Item) :
    (ledger.count first).count second = ledger.count (first ++ second) := by
  simp [count]

theorem itemsAt_count (keyOf : Item → WindowKey) (key : WindowKey)
    (items : List Item) (ledger : Ledger Item) :
    (ledger.count items).itemsAt keyOf key = ledger.itemsAt keyOf key ++
        items.filter fun item => keyOf item = key := by
  simp [itemsAt, count]

section Emit

variable (keyOf : Item → WindowKey) (window : AggregateWindow)
variable (windows : List AggregateWindow) (ledger : Ledger Item)

theorem windows_emit :
    (ledger.emit keyOf window).windows = ledger.windows ++ [window] := by
  simp [windows, emit]

theorem accepted_emit :
    (ledger.emit keyOf window).accepted = ledger.accepted := rfl

theorem itemsAt_emit_self : (ledger.emit keyOf window).itemsAt keyOf
      (ofWindow window) = [] := by
  simp [itemsAt, emit, filter_filter]

theorem itemsAt_emit_of_ne
    {key : WindowKey} (other : key ≠ ofWindow window) :
    (ledger.emit keyOf window).itemsAt keyOf key =
      ledger.itemsAt keyOf key := by
  simp only [itemsAt, emit, filter_filter]
  apply filter_congr
  intro item _
  by_cases same : keyOf item = key
  · simp [same, other]
  · simp [same]

theorem accepted_emitAll :
    (ledger.emitAll keyOf windows).accepted = ledger.accepted := by
  induction windows generalizing ledger with
  | nil => rfl
  | cons window rest induction => exact induction _

theorem removed_emitAll :
    (ledger.emitAll keyOf windows).removed = ledger.removed := by
  induction windows generalizing ledger with
  | nil => rfl
  | cons window rest induction => exact induction _

theorem emitted_length_emitAll :
    (ledger.emitAll keyOf windows).emitted.length =
      ledger.emitted.length + windows.length := by
  induction windows generalizing ledger with
  | nil => rfl
  | cons window rest induction =>
    change ((ledger.emit keyOf window).emitAll keyOf rest).emitted.length = _
    rw [induction]
    simp only [emit, length_append, length_cons, length_nil]
    omega

theorem emitted_subset_emitAll :
    ledger.emitted ⊆ (ledger.emitAll keyOf windows).emitted := by
  induction windows generalizing ledger with
  | nil => exact List.Subset.refl _
  | cons window rest induction =>
    intro entry member
    apply induction
    exact mem_append_left _ member

end Emit

/-- A commit deletes pending windows under identities it was given. -/
theorem mem_deleted
    {windows : List AggregateWindow} {pending : GoMap String AggregateWindow}
    (member : window ∈ deleted windows pending) :
    ∃ given ∈ windows, pending.lookup given.identity = some window := by
  induction windows generalizing pending with
  | nil => cases member
  | cons head rest induction =>
    rcases mem_append.mp member with first | later
    · exact ⟨head, mem_cons_self, Option.mem_toList.mp first⟩
    · obtain ⟨given, givenMember, present⟩ := induction later
      refine ⟨given, mem_cons_of_mem _ givenMember, ?_⟩
      exact (of_lookup_erase present).2

theorem windows_emitAll
    (keyOf : Item → WindowKey) (windows : List AggregateWindow)
    (ledger : Ledger Item) :
    (ledger.emitAll keyOf windows).windows = ledger.windows ++ windows := by
  induction windows generalizing ledger with
  | nil => simp [emitAll]
  | cons window rest induction =>
    change ((ledger.emit keyOf window).emitAll keyOf rest).windows = _
    rw [induction, windows_emit]
    simp

end Ledger

/-! ## What one operation of the aggregator can do -/

/--
Every outcome of `ingestLocked`.  Either the event is counted in its window,
which may be a fresh one, or the event is refused and neither map changes.
-/
theorem ingestLocked_cases {ops : SketchOps Sketch World} {event : Event}
    {after : Aggregator Sketch World} {fault : Option Fault}
    (ingested : aggregator.ingestLocked ops event = (after, fault)) :
    (fault = none ∧ ∃ state world, (aggregator.openWindows.lookup
            (windowKeyOf aggregator.config event) = some state ∨
          aggregator.openWindows.lookup
              (windowKeyOf aggregator.config event) = none ∧
            ∃ sketch, state = WindowState.fresh sketch) ∧
        after = { aggregator with
          openWindows := aggregator.openWindows.insert
            (windowKeyOf aggregator.config event)
            (state.countEvent ops event)
          world := world }) ∨
      (∃ refusal, fault = some refusal) ∧ ∃ shed world,
        after = { aggregator with shed := shed, world := world } := by
  cases ingestLocked_ingested ingested with
  | counted state present =>
    exact Or.inl ⟨rfl, state, aggregator.world, Or.inl present, rfl⟩
  | shed absent full =>
    exact Or.inr ⟨⟨_, rfl⟩, aggregator.shed + 1, aggregator.world, rfl⟩
  | failed fault world absent room factory =>
    exact Or.inr ⟨⟨fault, rfl⟩, aggregator.shed, world, rfl⟩
  | opened sketch world absent room factory =>
    exact Or.inl ⟨rfl, WindowState.fresh sketch, world,
      Or.inr ⟨absent, sketch, rfl⟩, rfl⟩

/-- A batch is counted in its order, up to what is refused. -/
theorem ingestItems_sublist (event : Item → Event)
    (items : List Item) (aggregator : Aggregator Sketch World) :
    (aggregator.ingestItems ops event items).2.1.Sublist items := by
  induction items generalizing aggregator with
  | nil => exact Sublist.refl _
  | cons item rest induction =>
    rw [ingestItems]
    split
    · exact (induction _).cons_cons item
    · split
      · exact (induction _).cons item
      · exact nil_sublist _

/-- With a reliable sketch only the ceiling refuses an event. -/
theorem ingestItems_reliable
    {ops : SketchOps Sketch World} (reliable : ops.Reliable)
    (event : Item → Event) (items : List Item)
    (aggregator : Aggregator Sketch World) :
    (aggregator.ingestItems ops event items).2.2 = none := by
  induction items generalizing aggregator with
  | nil => rfl
  | cons item rest induction =>
    rw [ingestItems]
    rcases outcome : aggregator.ingestLocked ops (event item) with
      ⟨middle, fault⟩
    cases fault with
    | none => exact induction middle
    | some refusal =>
      have shed : refusal = errTooManyKeys := by
        cases ingestLocked_ingested outcome with
        | shed absent full => rfl
        | failed fault world absent room factory =>
          rcases reliable.newSketch aggregator.world with
            ⟨sketch, next, fresh⟩
          rw [fresh] at factory
          cases factory
      simp only [shed, Fault.is_self, if_true]
      exact induction middle

/-- The window starts at its number of sizes, and ends one size later. -/
structure Framed
    (config : Config) (window : AggregateWindow) : Prop where
  starts :
    window.windowStart = Time.unix (window.windowID * config.windowSize)
  ends : window.windowEnd = window.windowStart.add config.windowSize

/--
The emission loop, turn by turn, with the aggregator it leaves, the windows it
emits and its error.  A key is not open, or a quantile fails and the loop ends,
or the key is emitted as a window that reports its state.
-/
inductive Emits : List WindowKey → Aggregator Sketch World →
    Aggregator Sketch World → List AggregateWindow → Option Fault → Prop where
  | done (aggregator : Aggregator Sketch World) :
    Emits [] aggregator aggregator [] none
  | skipped {key rest aggregator after windows result}
    (absent : aggregator.openWindows.lookup key = none)
    (later : Emits rest aggregator after windows result) :
    Emits (key :: rest) aggregator after windows result
  | failed {key rest} (aggregator fault world) : Emits (key :: rest)
    aggregator { aggregator with world := world } [] (some fault)
  | emitted {aggregator state rest after windows result} (window world)
    (present : aggregator.openWindows.lookup
      (ofWindow window) = some state)
    (reports : window.tally = state.tally)
    (next : window.sequence = aggregator.sequence + 1)
    (framed : Framed aggregator.config window)
    (later : Emits rest
      (aggregator.emit (ofWindow window) window world)
      after windows result) :
    Emits (ofWindow window :: rest) aggregator after
      (window :: windows) result

theorem collectSelected_emits (keys : List WindowKey)
    (aggregator : Aggregator Sketch World) :
    Emits keys aggregator (aggregator.collectSelected ops keys).1
      (aggregator.collectSelected ops keys).2.1
      (aggregator.collectSelected ops keys).2.2 := by
  induction keys generalizing aggregator with
  | nil => exact Emits.done aggregator
  | cons key rest induction =>
    rw [collectSelected]
    split
    · next absent => exact Emits.skipped absent (induction aggregator)
    · rename_i state present
      split
      · exact Emits.failed aggregator _ _
      · rename_i p95 _ _
        split
        · exact Emits.failed aggregator _ _
        · rename_i p99 world _
          exact Emits.emitted (emission ops aggregator.config key
            (aggregator.sequence + 1) state p95 p99) world present rfl rfl
            ⟨rfl, rfl⟩ (induction _)

/-- What the emission loop returns, and that it keeps the configuration. -/
theorem Emits.framed {keys : List WindowKey} {windows : List AggregateWindow}
    {after : Aggregator Sketch World} {result : Option Fault}
    (emits : Emits keys aggregator after windows result) :
    after.config = aggregator.config ∧
      ∀ window ∈ windows, Framed aggregator.config window := by
  induction emits with
  | done | failed => exact ⟨rfl, forall_mem_nil _⟩
  | skipped _ _ induction => exact induction
  | emitted _ _ _ _ _ framed _ induction =>
    exact ⟨induction.1, forall_mem_cons.mpr ⟨framed, induction.2⟩⟩

theorem tally_fresh (sketch : Sketch) :
    (WindowState.fresh sketch).tally = 0 := rfl

theorem tally_countEvent (state : WindowState Sketch) (event : Event) :
    (state.countEvent ops event).tally = state.tally + event.tally := by
  ext1
  · rfl
  · by_cases failed : event.failed = true <;>
      simp [WindowState.tally, WindowState.countEvent, Event.tally, failed]
  · rfl

theorem new_empty {raw : RawConfig} {now : Time} {world : World}
    (built : Aggregator.new raw now world = .ok aggregator) :
    aggregator.openWindows = ∅ ∧ aggregator.pending = ∅ := by
  rw [new] at built
  split at built
  · cases built
  · cases built
    exact ⟨rfl, rfl⟩

theorem collect_fst (included : WindowKey → Bool)
    (aggregator : Aggregator Sketch World) :
    (aggregator.collect ops included).1 = (aggregator.collectSelected ops
        (aggregator.selectedKeys included)).1 := by
  rw [collect]
  split <;> rfl

/-- The emissions that a collect adds, also when it ends in an error. -/
def Aggregator.newlyEmitted
    (ops : SketchOps Sketch World) (included : WindowKey → Bool)
    (aggregator : Aggregator Sketch World) : List AggregateWindow :=
  (aggregator.collectSelected ops (aggregator.selectedKeys included)).2.1

open Ledger

namespace Tracks

variable {event : Item → Event} {seed : Int64}
variable {after : Aggregator Sketch World}
variable {ledger : Ledger Item}
variable {state : WindowState Sketch}

section Tracks

variable (tracks : Tracks event seed aggregator ledger)
include tracks

/-- The shed counter and the world play no part in the ledger. -/
theorem refuse (shed : Int64) (world : World) : Tracks event seed
      { aggregator with shed := shed, world := world } ledger :=
  { tracks with }

theorem tally_before {key : WindowKey}
    (known : aggregator.openWindows.lookup key = some state ∨
      aggregator.openWindows.lookup key = none ∧
        ∃ sketch, state = WindowState.fresh sketch) :
    state.tally = tallyOf event
        (ledger.itemsAt
          (fun item => windowKeyOf aggregator.config (event item)) key) := by
  rcases known with present | ⟨absent, sketch, rfl⟩
  · exact tracks.open_tally key state present
  · rw [tracks.open_absent key absent, tally_fresh]
    rfl

/-- Counting an item in its window. -/
theorem count_item (item : Item) (world : World)
    (known : aggregator.openWindows.lookup
            (windowKeyOf aggregator.config (event item)) = some state ∨
        aggregator.openWindows.lookup
              (windowKeyOf aggregator.config (event item)) = none ∧
          ∃ sketch, state = WindowState.fresh sketch) :
    Tracks event seed
      { aggregator with
        openWindows := aggregator.openWindows.insert
          (windowKeyOf aggregator.config (event item))
          (state.countEvent ops (event item))
        world := world }
      (ledger.count [item]) := by
  refine { tracks with
    accepted_perm := ?_, open_tally := ?_, open_nonempty := ?_,
    open_absent := ?_ }
  · simp only [Ledger.count]
    refine (tracks.accepted_perm.append_right [item]).trans ?_
    rw [append_assoc, append_assoc]
    exact perm_append_comm.append_left _
  · intro key found present
    rw [itemsAt_count, tallyOf_append]
    rcases of_lookup_insert present with ⟨rfl, ⟨⟩⟩ | ⟨same, before⟩
    · rw [tally_countEvent, tracks.tally_before known]
      simp [tallyOf]
    · rw [tracks.open_tally key found before]
      simp [tallyOf, Ne.symm same]
  · intro key found present
    rw [itemsAt_count]
    rcases of_lookup_insert present with ⟨same, _⟩ | ⟨_, before⟩
    · simp [same]
    · exact append_ne_nil_of_left_ne_nil
        (tracks.open_nonempty key found before) _
  · intro key absent
    rw [itemsAt_count]
    rcases of_lookup_insert absent with ⟨_, ⟨⟩⟩ | ⟨same, before⟩
    rw [tracks.open_absent key before]
    simp [Ne.symm same]

/-- The loop of `IngestBatch` counts exactly the items it returns. -/
theorem ingestItems (items : List Item) :
    Tracks event seed (aggregator.ingestItems ops event items).1
      (ledger.count (aggregator.ingestItems ops event items).2.1) := by
  induction items generalizing aggregator ledger with
  | nil => simpa [ingestItems, count_nil] using tracks
  | cons item rest induction =>
    rw [ingestItems]
    rcases outcome : aggregator.ingestLocked ops (event item) with
      ⟨middle, fault⟩
    rcases ingestLocked_cases outcome with ⟨rfl, state, world, known, rfl⟩ |
        ⟨⟨refusal, rfl⟩, shed, world, rfl⟩
    · have counted := tracks.count_item ops item world known
      have remaining := induction counted
      rw [count_count] at remaining
      exact remaining
    · have unchanged := tracks.refuse shed world
      by_cases tooMany : refusal.is errTooManyKeys = true
      · simp only [tooMany, if_true]
        exact induction unchanged
      · simp only [tooMany, Bool.false_eq_true, if_false]
        simpa [count_nil] using unchanged

theorem ingestBatchItems (items : List Item) :
    Tracks event seed (aggregator.ingestBatchItems ops event items).1
      (ledger.count (aggregator.ingestBatchItems ops event items).2.1) := by
  rw [Aggregator.ingestBatchItems]
  split
  · simpa [count_nil] using tracks
  · exact tracks.ingestItems ops items

/-! ## Emission -/

theorem sequence_of_mem (member : window ∈ ledger.windows) :
    ∃ index, index < ledger.emitted.length ∧
      window.sequence = seed + Int64.ofNat (index + 1) := by
  have sequenceMember :
      window.sequence ∈ ledger.windows.map AggregateWindow.sequence :=
    mem_map_of_mem member
  rw [tracks.sequences] at sequenceMember
  obtain ⟨index, bound, equal⟩ := mem_map.mp sequenceMember
  exact ⟨index, mem_range.mp bound, equal.symm⟩

/--
Before `2^64` emissions the identity of the next emission is not pending, so
inserting it overwrites nothing.
-/
theorem identity_fresh (next : window.sequence = aggregator.sequence + 1)
    (bound : ledger.emitted.length + 1 < 2 ^ 64) :
    window.identity ∉ aggregator.pending := by
  intro member
  obtain ⟨other, present⟩ :=
    Option.isSome_iff_exists.mp (lookup_isSome.mpr member)
  obtain ⟨identities, emitted⟩ := tracks.pending_emitted _ other present
  obtain ⟨index, before, otherSequence⟩ := tracks.sequence_of_mem emitted
  have sequences := AggregateWindow.sequence_eq_of_identity identities
  rw [next, tracks.sequence_eq, otherSequence, add_assoc,
    ← Word.ofNat_succ] at sequences
  have indices := Word.add_ofNat_injective seed bound (by omega) sequences
  omega

/-- One turn of the emission loop, for a window that reports its state. -/
theorem emit (window : AggregateWindow)
    (present : aggregator.openWindows.lookup
      (ofWindow window) = some state)
    (reports : window.tally = state.tally)
    (next : window.sequence = aggregator.sequence + 1) (world : World) :
    Tracks event seed
      (aggregator.emit (ofWindow window) window world)
      (ledger.emit (fun item => windowKeyOf aggregator.config (event item))
        window) where
  accepted_perm := by
    rw [accepted_emit]
    refine tracks.accepted_perm.trans ?_
    simp only [Ledger.emit, flatMap_append, flatMap_cons,
      flatMap_nil, append_nil]
    -- The opened items split into those of the window and the others.
    have split := filter_append_perm
      (fun item => decide (windowKeyOf aggregator.config (event item) =
          ofWindow window)) ledger.opened
    refine (split.symm.append_right _).trans ?_
    refine (perm_append_comm.append_right _).trans ?_
    rw [append_assoc]
    exact (perm_append_comm).append_left _
  open_tally := by
    intro key found lookup
    rcases of_lookup_erase lookup with ⟨different, before⟩
    rw [tracks.open_tally key found before]
    exact congrArg (tallyOf event)
      (itemsAt_emit_of_ne _ window ledger different).symm
  open_nonempty := by
    intro key found lookup
    rcases of_lookup_erase lookup with ⟨different, before⟩
    have nonempty := tracks.open_nonempty key found before
    rw [← itemsAt_emit_of_ne _ window _ different] at nonempty
    exact nonempty
  open_absent := by
    intro key lookup
    by_cases same : key = ofWindow window
    · subst same
      exact itemsAt_emit_self _ window ledger
    · rw [Aggregator.emit, lookup_erase_ne same] at lookup
      have empty := tracks.open_absent key lookup
      rw [← itemsAt_emit_of_ne _ window _ same] at empty
      exact empty
  emitted_tally := forall_mem_concat tracks.emitted_tally
      (reports.trans (tracks.open_tally _ state present))
  emitted_key := forall_mem_concat tracks.emitted_key
      fun _ contained => of_decide_eq_true (mem_filter.mp contained).2
  emitted_nonempty := forall_mem_concat tracks.emitted_nonempty
      (tracks.open_nonempty _ state present)
  sequences := by
    rw [windows_emit, map_append, tracks.sequences]
    simp only [Ledger.emit, length_append, length_singleton,
      range_succ, map_append, map_cons, map_nil,
      next, tracks.sequence_eq, add_assoc, Word.ofNat_succ]
  sequence_eq := by
    simp only [Aggregator.emit, next, Ledger.emit, tracks.sequence_eq,
      length_append, length_singleton, add_assoc,
      Word.ofNat_succ]
  pending_emitted := by
    intro identity found lookup
    rw [windows_emit]
    rcases of_lookup_insert lookup with ⟨rfl, ⟨⟩⟩ | ⟨_, before⟩
    · exact ⟨rfl, by simp⟩
    · have known := tracks.pending_emitted identity found before
      exact ⟨known.1, mem_append_left _ known.2⟩
  conserved := by
    intro bound
    simp only [Ledger.emit, length_append, length_singleton] at bound
    have fresh := tracks.identity_fresh next bound
    rw [windows_emit]
    simp only [Aggregator.emit, values_insert_of_notMem fresh]
    have earlier := tracks.conserved (by omega)
    refine perm_append_comm.trans ?_
    exact earlier.cons _

/-- The emission loop of a collect, whether or not it ends in an error. -/
theorem emits {keys : List WindowKey} {windows : List AggregateWindow}
    {result : Option Fault}
    (emits : Emits keys aggregator after windows result) :
    Tracks event seed after (ledger.emitAll
      (fun item => windowKeyOf aggregator.config (event item)) windows) := by
  induction emits generalizing ledger with
  | done => exact tracks
  | skipped _ _ induction => exact induction tracks
  | failed aggregator _ world => exact tracks.refuse aggregator.shed world
  | emitted window world present reports next _ _ induction =>
    exact induction (tracks.emit window present reports next world)

/-! ## Commit -/

/-- Deleting one pending window. -/
theorem erase (window : AggregateWindow) : Tracks event seed
      { aggregator with
        pending := aggregator.pending.erase window.identity }
      (ledger.remove (aggregator.pending.lookup window.identity).toList) := by
  refine { tracks with pending_emitted := ?_, conserved := ?_ }
  · intro identity found lookup
    exact tracks.pending_emitted identity found
      (of_lookup_erase lookup).2
  · intro bound
    refine (tracks.conserved bound).trans ?_
    cases present : aggregator.pending.lookup window.identity with
    | none =>
      have absent : window.identity ∉ aggregator.pending :=
        lookup_eq_none.mp present
      have unchanged : aggregator.pending.erase window.identity =
            aggregator.pending := by
        apply ext
        exact kerase_of_notMem_keys absent
      simp [Ledger.remove, unchanged]
    | some found =>
      simp only [Ledger.remove, Option.toList_some]
      have moved := values_perm_of_lookup present
      refine (moved.append_right _).trans ?_
      rw [← append_assoc, cons_append]
      exact (perm_append_singleton found _).symm

theorem commit (windows : List AggregateWindow) : Tracks event seed
      (aggregator.commit windows)
      (ledger.remove (deleted windows aggregator.pending)) := by
  induction windows generalizing aggregator ledger with
  | nil => simpa [commit, Ledger.remove, deleted]
  | cons window rest induction =>
    have later := induction (tracks.erase window)
    simpa [commit, Ledger.remove, deleted] using later

/-! ## A whole collect -/

theorem collect (included : WindowKey → Bool) :
    Tracks event seed (aggregator.collect ops included).1
      (ledger.emitAll (fun item => windowKeyOf aggregator.config (event item))
        (aggregator.newlyEmitted ops included)) := by
  rw [collect_fst]
  exact tracks.emits (collectSelected_emits ops _ aggregator)

/-- What a collect returns was emitted, now or before. -/
theorem mem_windows_of_collect (included : WindowKey → Bool)
    (returned : window ∈ (aggregator.collect ops included).2.1) :
    window ∈ ledger.windows ++ aggregator.newlyEmitted ops included := by
  rw [Aggregator.collect] at returned
  split at returned
  · cases returned
  · rcases mem_append.mp returned with held | emitted
    · have value : window ∈ values aggregator.pending :=
        (perm_insertionSort _ _).mem_iff.mp held
      obtain ⟨identity, present⟩ := mem_values_iff.mp value
      exact mem_append_left _
        (tracks.pending_emitted identity window present).2
    · exact mem_append_right _ emitted

theorem sequences_nodup (bound : ledger.emitted.length < 2 ^ 64) :
    (ledger.windows.map AggregateWindow.sequence).Nodup := by
  rw [tracks.sequences]
  refine nodup_range.map_on ?_
  intro first firstMember second secondMember equal
  have firstBound := mem_range.mp firstMember
  have secondBound := mem_range.mp secondMember
  have indices := Word.add_ofNat_injective seed (by omega) (by omega) equal
  omega

theorem eq_of_identity
    (bound : ledger.emitted.length < 2 ^ 64) {left right : AggregateWindow}
    (leftMember : left ∈ ledger.windows)
    (rightMember : right ∈ ledger.windows)
    (same : left.identity = right.identity) : left = right :=
  inj_on_of_nodup_map (tracks.sequences_nodup bound)
    leftMember rightMember (AggregateWindow.sequence_eq_of_identity same)

theorem windows_nodup (bound : ledger.emitted.length < 2 ^ 64) :
    ledger.windows.Nodup :=
  Nodup.of_map _ (tracks.sequences_nodup bound)

/-! ## What a set of emissions counts -/

omit tracks in
theorem sum_tally_emitted {emitted : List (AggregateWindow × List Item)}
    (reports : ∀ entry ∈ emitted, entry.1.tally = tallyOf event entry.2) :
    ((emitted.map Prod.fst).map AggregateWindow.tally).sum =
      tallyOf event (emitted.flatMap Prod.snd) := by
  rw [tallyOf_flatMap, map_map]
  exact congrArg List.sum (map_congr_left reports)

/-- Distinct emissions count distinct accepted items. -/
theorem exists_counted (windows : List AggregateWindow)
    (distinct : windows.Nodup) (emitted : windows ⊆ ledger.windows) :
    ∃ items, items.Subperm ledger.accepted ∧
      (∀ item ∈ items, ∃ window ∈ windows,
        (event item).correlationKey = window.key) ∧
      (windows.map AggregateWindow.tally).sum = tallyOf event items := by
  obtain ⟨chosen, same, sublist⟩ := subperm_of_subset distinct emitted
  obtain ⟨entries, entriesSublist, rfl⟩ := sublist_map_iff.mp sublist
  refine ⟨entries.flatMap Prod.snd, ?_, ?_, ?_⟩
  · have inEmitted : (entries.flatMap Prod.snd).Sublist
        (ledger.opened ++ ledger.emitted.flatMap Prod.snd) :=
      (entriesSublist.flatMap Prod.snd).trans (sublist_append_right _ _)
    exact inEmitted.subperm.trans tracks.accepted_perm.symm.subperm
  · intro item member
    obtain ⟨entry, entryMember, contained⟩ := mem_flatMap.mp member
    refine ⟨entry.1, same.mem_iff.mp (mem_map_of_mem entryMember), ?_⟩
    have keys := tracks.emitted_key entry
      (entriesSublist.subset entryMember) item contained
    exact congrArg correlation keys
  · rw [← (same.map AggregateWindow.tally).sum_eq]
    exact sum_tally_emitted fun entry member =>
      tracks.emitted_tally entry (entriesSublist.subset member)

/-- The accepted items of some correlation keys, opened or emitted. -/
theorem tally_accepted_filter (chosen : CorrelationKey → Bool) :
    tallyOf event (ledger.accepted.filter fun item =>
        chosen (event item).correlationKey) =
      tallyOf event (ledger.opened.filter fun item =>
          chosen (event item).correlationKey) +
        ((ledger.windows.filter fun window =>
          chosen window.key).map AggregateWindow.tally).sum := by
  rw [tallyOf_perm event (tracks.accepted_perm.filter _),
    filter_append, tallyOf_append, Ledger.windows, filter_map,
    sum_tally_emitted fun entry member =>
      tracks.emitted_tally entry (mem_filter.mp member).1]
  congr 2
  have keyed := tracks.emitted_key
  generalize ledger.emitted = entries at keyed
  induction entries with
  | nil => rfl
  | cons entry rest induction =>
    have later := induction
      fun other member => keyed other (mem_cons_of_mem _ member)
    have here : ∀ item ∈ entry.2,
        chosen (event item).correlationKey = chosen entry.1.key :=
      fun item contained => congrArg (fun key => chosen
        (correlation key))
          (keyed entry mem_cons_self item contained)
    rw [flatMap_cons, filter_append, later]
    by_cases taken : chosen entry.1.key = true
    · have all : (entry.2.filter fun item =>
          chosen (event item).correlationKey) = entry.2 := by
        rw [filter_eq_self]
        intro item contained
        rw [here item contained, taken]
      simp [all, taken]
    · have none : (entry.2.filter fun item =>
          chosen (event item).correlationKey) = [] := by
        rw [filter_eq_nil_iff]
        intro item contained
        rw [here item contained]
        exact taken
      simp [none, taken]

theorem opened_eq_nil (opened : aggregator.openWindows = ∅) :
    ledger.opened = [] := by
  rw [eq_nil_iff_forall_not_mem]
  intro item member
  have none := tracks.open_absent (windowKeyOf aggregator.config (event item))
    (by rw [opened, lookup_empty])
  rw [Ledger.itemsAt, filter_eq_nil_iff] at none
  exact none item member (by simp)

end Tracks

end Tracks

/-- A new aggregator has counted nothing. -/
theorem tracks_new
    (event : Item → Event) (opened : aggregator.openWindows = ∅)
    (pending : aggregator.pending = ∅) :
    Tracks event aggregator.sequence aggregator
      (Ledger.empty : Ledger Item) where
  accepted_perm := Perm.refl _
  open_tally := by simp [opened]
  open_nonempty := by simp [opened]
  open_absent := by
    intro key _
    rfl
  emitted_tally := by simp [Ledger.empty]
  emitted_key := by simp [Ledger.empty]
  emitted_nonempty := by simp [Ledger.empty]
  sequences := rfl
  sequence_eq := by simp [Ledger.empty]
  pending_emitted := by simp [pending]
  conserved := by simp [Ledger.empty, Ledger.windows, pending]

end Ironclaw.Aggregate
