import Ironclaw.Aggregate.Ceiling
import Ironclaw.Aggregator.Service

/-!
# Batches that fail and are retried

The bus hands a batch to `HandleBatch` again after any error.  The checks come
before the first event is counted, so a batch with an invalid event leaves no
trace.  A sketch factory that fails at a later event ends the loop with the
earlier events counted, and the retry counts them again.  The answers of the
factory decide which batches leave no trace.
-/

namespace Ironclaw.Aggregator

open Lib Domain Aggregate Aggregate.Aggregator List

variable {Sketch World Item : Type}
variable {ops : SketchOps Sketch World} {event : Item → Event}
variable {source : Aggregate.Aggregator Sketch World} {items : List Item}

/-! ## The answers of the factory -/

/-- Whether an event needs a sketch: its window is not open but may be. -/
def needsSketch
    (config : Config) (pending : Nat) (keys : Finset WindowKey)
    (event : Event) : Bool :=
  windowKeyOf config event ∉ keys &&
    !(0 < config.maxOpenWindows &&
      config.maxOpenWindows ≤ (keys.card + pending : Nat))

/--
What `NewSketch` answers to the events of a batch, given the keys of the open
windows and the number of the pending ones: a fault, or `none` where it makes
a sketch or is not asked for one.
-/
def factoryAnswers
    (ops : SketchOps Sketch World) (config : Config) (pending : Nat) :
    List Event → Finset WindowKey → World → List (Option Fault)
  | [], _, _ => []
  | event :: rest, keys, world =>
    if needsSketch config pending keys event then
      match ops.newSketch world with
      | (.error fault, next) =>
        some fault :: factoryAnswers ops config pending rest keys next
      | (.ok _, next) =>
        none :: factoryAnswers ops config pending rest
          (insert (windowKeyOf config event) keys) next
    else none :: factoryAnswers ops config pending rest keys world

def openKeys (source : Aggregate.Aggregator Sketch World) :
    Finset WindowKey :=
  source.openWindows.keys.toFinset

/-- The answers to a batch that an aggregator is about to ingest. -/
def answersTo
    (ops : SketchOps Sketch World) (events : List Event)
    (source : Aggregate.Aggregator Sketch World) : List (Option Fault) :=
  factoryAnswers ops source.config (GoMap.size source.pending) events
    (openKeys source) source.world

/-- A fault that the loop of `IngestBatch` takes for a shed event. -/
def skipped (answer : Option Fault) : Bool :=
  answer.any fun fault => fault.is errTooManyKeys

/-- Any other fault of the factory. -/
def refused (answer : Option Fault) : Bool :=
  answer.any fun fault => !fault.is errTooManyKeys

/-- Of the events that are not skipped, only the first may be refused. -/
def RefusedAtOnce (answers : List (Option Fault)) : Prop :=
  ∀ answer later, answers.dropWhile skipped = answer :: later →
    refused answer = true ∨ ∀ other ∈ later, refused other = false

theorem refusedAtOnce_of_skipped
    {refusal : Fault} (skips : refusal.is errTooManyKeys = true)
    (later : List (Option Fault)) :
    RefusedAtOnce (some refusal :: later) ↔ RefusedAtOnce later := by
  have gone : skipped (some refusal) = true := skips
  rw [RefusedAtOnce, dropWhile_cons_of_pos gone]
  rfl

theorem refusedAtOnce_of_refused
    {refusal : Fault} (stops : refusal.is errTooManyKeys = false)
    (later : List (Option Fault)) :
    RefusedAtOnce (some refusal :: later) := by
  have kept : ¬skipped (some refusal) = true := by
    simp [skipped, stops]
  rintro answer rest split
  rw [dropWhile_cons_of_neg kept] at split
  cases split
  exact Or.inl (by simp [refused, stops])

theorem refusedAtOnce_none (later : List (Option Fault)) :
    RefusedAtOnce (none :: later) ↔
      ∀ other ∈ later, refused other = false := by
  have kept : (none :: later).dropWhile skipped = none :: later :=
    dropWhile_cons_of_neg Bool.false_ne_true
  rw [RefusedAtOnce, kept]
  constructor
  · intro once
    exact (once none later rfl).resolve_left Bool.false_ne_true
  · intro steady answer rest split
    cases split
    exact Or.inr steady

/-! ## One event -/

theorem mem_openKeys {key : WindowKey} :
    key ∈ openKeys source ↔ key ∈ source.openWindows := by
  rw [openKeys, mem_toFinset]
  rfl

theorem needsSketch_eq
    (event : Event) (source : Aggregate.Aggregator Sketch World) :
    needsSketch source.config (GoMap.size source.pending) (openKeys source)
        event =
      ((source.openWindows.lookup (windowKeyOf source.config event)).isNone &&
        !source.ceilingReached) := by
  have held : (openKeys source).card + GoMap.size source.pending =
      source.heldWindows := by
    rw [openKeys, toFinset_card_of_nodup source.openWindows.keys_nodup,
      AList.keys, List.keys, length_map]
    rfl
  rw [needsSketch, held, ceilingReached]
  congr 1
  rw [Bool.eq_iff_iff, decide_eq_true_eq, mem_openKeys,
    Option.isNone_iff_eq_none, AList.lookup_eq_none]

/-- The events counted in open windows, and those shed. -/
def progress (source : Aggregate.Aggregator Sketch World) : Int64 :=
  ((GoMap.values source.openWindows).map WindowState.count).sum + source.shed

/-- One event of a batch: what the factory answers, and what is left. -/
inductive Answered
    (ops : SketchOps Sketch World) (event : Event)
    (source : Aggregate.Aggregator Sketch World) :
    Aggregate.Aggregator Sketch World → Option Fault → Prop where
  | taken {after : Aggregate.Aggregator Sketch World} {fault : Option Fault}
      (answers : ∀ rest, answersTo ops (event :: rest) source =
        none :: answersTo ops rest after)
      (goesOn : fault = none ∨ fault = some errTooManyKeys)
      (more : progress after = progress source + 1) :
      Answered ops event source after fault
  | failed (refusal : Fault) (world : World)
      (answers : ∀ rest, answersTo ops (event :: rest) source =
        some refusal :: answersTo ops rest { source with world := world }) :
      Answered ops event source { source with world := world }
        (some refusal)

theorem ingestLocked_answered
    {event : Event} {after : Aggregate.Aggregator Sketch World}
    {fault : Option Fault}
    (ingested : source.ingestLocked ops event = (after, fault)) :
    Answered ops event source after fault := by
  have needs := needsSketch_eq event source
  cases ingestLocked_ingested ingested with
  | counted state present =>
    rw [present] at needs
    refine Answered.taken (fun rest => ?_) (Or.inl rfl) ?_
    · have same : openKeys { source with
          openWindows := source.openWindows.insert
            (windowKeyOf source.config event)
            (state.countEvent ops event) } = openKeys source := by
        ext key
        rw [mem_openKeys, mem_openKeys, AList.mem_insert, or_iff_right_iff_imp]
        rintro rfl
        rw [← AList.lookup_isSome, present]
        rfl
      rw [answersTo, factoryAnswers, needs, answersTo, same]
      rfl
    · have before := (GoMap.values_perm_of_lookup present).map
        WindowState.count
      rw [progress, progress, before.sum_eq, map_cons, sum_cons]
      change state.count + 1 + List.sum _ + source.shed = _
      rw [add_right_comm state.count, add_right_comm (state.count + _)]
      rfl
  | shed absent full =>
    rw [full, Bool.not_true, Bool.and_false] at needs
    refine Answered.taken (fun rest => ?_) (Or.inr rfl) (add_assoc _ _ _).symm
    rw [answersTo, factoryAnswers, needs]
    rfl
  | failed refusal world absent room factory =>
    rw [absent, room] at needs
    apply Answered.failed
    intro rest
    rw [answersTo, factoryAnswers, needs, factory]
    rfl
  | opened sketch world absent room factory =>
    rw [absent, room] at needs
    have fresh := AList.lookup_eq_none.mp absent
    refine Answered.taken (fun rest => ?_) (Or.inl rfl) ?_
    · have keys : openKeys { source with
          openWindows := source.openWindows.insert
            (windowKeyOf source.config event)
            ((WindowState.fresh sketch).countEvent ops event)
          world := world } = insert (windowKeyOf source.config event)
            (openKeys source) := by
        ext key
        rw [mem_openKeys, AList.mem_insert, Finset.mem_insert, mem_openKeys]
      rw [answersTo, factoryAnswers, needs, factory, answersTo, keys]
      rfl
    · rw [progress, GoMap.values_insert_of_notMem fresh, map_cons, sum_cons]
      change 0 + 1 + List.sum _ + source.shed = _
      rw [zero_add, add_assoc, add_comm]
      rfl

/-! ## One attempt -/

/-- The loop goes on after an event that was counted or shed. -/
theorem ingestItems_taken
    {item : Item} {middle : Aggregate.Aggregator Sketch World}
    {fault : Option Fault}
    (ingested : source.ingestLocked ops (event item) = (middle, fault))
    (goesOn : fault = none ∨ fault = some errTooManyKeys)
    (rest : List Item) :
    (source.ingestItems ops event (item :: rest)).1 =
        (middle.ingestItems ops event rest).1 ∧
      (source.ingestItems ops event (item :: rest)).2.2 =
        (middle.ingestItems ops event rest).2.2 := by
  rw [ingestItems, ingested]
  rcases goesOn with rfl | rfl
  · exact ⟨rfl, rfl⟩
  · simp only [Fault.is_self, if_true, and_self]

/--
A loop after some number of events that it counted or shed: it fails where the
factory refuses an event, and without such an event only where the first that
is not skipped is refused.
-/
structure Looped
    (items : List Item) (answers : List (Option Fault))
    (source : Aggregate.Aggregator Sketch World)
    (result : Aggregate.Aggregator Sketch World × List Item × Option Fault) :
    Prop where
  refuses : result.2.2 = none ↔ ∀ answer ∈ answers, refused answer = false
  takes : ∃ taken ≤ items.length,
    progress result.1 = progress source + Int64.ofNat taken ∧
      (taken = 0 → result.2.1 = [] ∧
        ∃ world, result.1 = { source with world := world }) ∧
      (result.2.2 ≠ none → (taken = 0 ↔ RefusedAtOnce answers))

theorem ingestItems_looped (items : List Item)
    (source : Aggregate.Aggregator Sketch World) :
    Looped items (answersTo ops (items.map event) source) source
      (source.ingestItems ops event items) := by
  induction items generalizing source with
  | nil =>
    exact ⟨iff_of_true rfl (forall_mem_nil _), 0, le_refl _,
      (add_zero _).symm, fun _ => ⟨rfl, source.world, rfl⟩,
      fun failed => absurd rfl failed⟩
  | cons item rest induction =>
    rcases outcome : source.ingestLocked ops (event item) with ⟨middle, fault⟩
    rcases induction middle with ⟨refuses, taken, most, adds, kept, once⟩
    rw [map_cons]
    cases ingestLocked_answered outcome with
    | taken answers goesOn more =>
      rcases ingestItems_taken outcome goesOn rest with ⟨same, ends⟩
      rw [answers]
      refine ⟨?_, taken + 1, Nat.succ_le_succ most, ?_, nofun, ?_⟩
      · rw [ends, refuses, forall_mem_cons]
        exact (and_iff_right rfl).symm
      · rw [same, adds, more, Word.ofNat_succ, add_assoc, add_comm 1]
      · rw [ends, refusedAtOnce_none, ← refuses]
        exact iff_of_false (Nat.succ_ne_zero taken)
    | failed refusal world answers =>
      rw [ingestItems, outcome, answers]
      cases skips : refusal.is errTooManyKeys with
      | true =>
        simp only [skips, if_true]
        refine ⟨?_, taken, Nat.le_succ_of_le most, adds, kept, ?_⟩
        · rw [refuses, forall_mem_cons]
          simp [refused, skips]
        · rw [refusedAtOnce_of_skipped skips]
          exact once
      | false =>
        simp only [skips, Bool.false_eq_true, if_false]
        refine ⟨by simp [refused, skips], 0, Nat.zero_le _,
          (add_zero _).symm, fun _ => ⟨rfl, world, rfl⟩, fun _ => ?_⟩
        exact iff_of_true rfl (refusedAtOnce_of_refused skips _)

/--
A batch with an invalid event, or one of which no event but the first that is
not skipped is refused.
-/
def LeavesNoTrace
    (ops : SketchOps Sketch World) (events : List Event)
    (source : Aggregate.Aggregator Sketch World) : Prop :=
  (∃ event ∈ events, event.validate ≠ none) ∨
    RefusedAtOnce (answersTo ops events source)

theorem ingestBatchItems_failed
    (leaves : LeavesNoTrace ops (items.map event) source)
    (failed : (source.ingestBatchItems ops event items).2.2 ≠ none) :
    (source.ingestBatchItems ops event items).2.1 = [] ∧
      ∃ world, (source.ingestBatchItems ops event items).1 =
        { source with world := world } := by
  rw [ingestBatchItems] at failed ⊢
  split
  · exact ⟨rfl, source.world, rfl⟩
  · rename_i valid
    rw [valid] at failed
    rcases leaves with ⟨event, member, invalid⟩ | refuses
    · exact absurd (findSome?_eq_none_iff.mp valid event member) invalid
    · rcases (ingestItems_looped items source).takes with
        ⟨taken, _, _, kept, once⟩
      exact kept ((once failed).mpr refuses)

theorem ingestBatchItems_traced
    (later : ¬LeavesNoTrace ops (items.map event) source)
    (fits : items.length < 2 ^ 63) :
    (source.ingestBatchItems ops event items).2.2 ≠ none ∧
      progress (source.ingestBatchItems ops event items).1 ≠
        progress source := by
  rcases not_or.mp later with ⟨valid, refuses⟩
  have checked : (items.map event).findSome? Event.validate = none :=
    findSome?_eq_none_iff.mpr fun event member =>
      not_not.mp fun invalid => valid ⟨event, member, invalid⟩
  rcases @ingestItems_looped _ _ _ ops event items source with
    ⟨ends, taken, most, adds, _, once⟩
  have failed : (source.ingestItems ops event items).2.2 ≠ none := by
    intro done
    apply refuses
    intro answer rest split
    refine Or.inr fun other member => ends.mp done other ?_
    exact (dropWhile_sublist _).subset (split ▸ mem_cons_of_mem _ member)
  rw [ingestBatchItems, checked]
  refine ⟨failed, ?_⟩
  change progress (source.ingestItems ops event items).1 ≠ _
  rw [adds, ne_eq, add_eq_left, Word.ofNat_eq_zero_iff (by omega)]
  exact mt (once failed).mp refuses

/-! ## Attempts on one batch -/

/--
What the attempts on one batch count together, up to the first that succeeds.
Each attempt finds the service as everything that ran in between has left it,
and its context as given.
-/
def countedBy
    (ops : SketchOps Sketch World) (event : Item → Event)
    (items : List Item) :
    List (Service Sketch World × Option Fault) → List Item
  | [] => []
  | (service, context) :: rest =>
    match service.handleItems ops event context items with
    | (_, counted, none) => counted
    | (_, counted, some _) => counted ++ countedBy ops event items rest

theorem handleItems_steady
    {service : Service Sketch World} {context : Option Fault}
    (steady : LeavesNoTrace ops (items.map event) service.source)
    (failed : (service.handleItems ops event context items).2.2 ≠ none) :
    (service.handleItems ops event context items).2.1 = [] := by
  cases context with
  | some fault => rfl
  | none =>
    have live := (service.handleItems_live ops event items).2
    rw [live] at failed ⊢
    exact (ingestBatchItems_failed steady failed).1

/-- Attempts that leave no trace when they fail count a part of the batch. -/
theorem countedBy_sublist
    (attempts : List (Service Sketch World × Option Fault))
    (steady : ∀ attempt ∈ attempts,
      LeavesNoTrace ops (items.map event) attempt.1.source) :
    (countedBy ops event items attempts).Sublist items := by
  induction attempts with
  | nil => exact nil_sublist _
  | cons attempt rest induction =>
    rcases attempt with ⟨service, context⟩
    have part := Service.handleItems_sublist ops event context items service
    have nothing := @handleItems_steady _ _ _ _ _ _ _ context
      (steady _ mem_cons_self)
    rw [countedBy]
    rcases outcome : service.handleItems ops event context items with
      ⟨after, counted, none | fault⟩
    · rw [outcome] at part
      exact part
    · rw [outcome] at nothing
      have empty : counted = [] := nothing (Option.some_ne_none fault)
      simp only
      rw [empty, nil_append]
      apply induction
      intro attempt member
      exact steady attempt (mem_cons_of_mem _ member)

/-- What a failed batch must not have touched. -/
def Unchanged
    (source after : Aggregate.Aggregator Sketch World) : Prop :=
  after.openWindows = source.openWindows ∧ after.pending = source.pending ∧
    after.sequence = source.sequence ∧ after.shed = source.shed

/--
`IngestBatch` returns an error only with the windows, the sequence and the
shed counter as they were, exactly where the batch has an invalid event or
the factory refuses no event of it but the first that is not skipped; and
attempts on a batch that all meet this condition count each of its events at
most once.
-/
theorem failed_batch_leaves_no_trace
    (ops : SketchOps Sketch World) (batch : Batch)
    (fits : batch.events.length < 2 ^ 63) :
    (∀ source : Aggregate.Aggregator Sketch World,
      ((source.ingestBatch ops batch).2 ≠ none →
          Unchanged source (source.ingestBatch ops batch).1) ↔
        LeavesNoTrace ops batch.events source) ∧
      ∀ attempts : List (Service Sketch World × Option Fault),
        (∀ attempt ∈ attempts,
          LeavesNoTrace ops batch.events attempt.1.source) →
          (countedBy ops Prod.fst batch.events.zipIdx attempts).Nodup := by
  constructor
  · intro source
    have whole : batch.events = batch.events.map id := (map_id _).symm
    constructor
    · intro safe
      by_contra later
      rw [whole] at later
      rcases ingestBatchItems_traced later fits with ⟨failed, traced⟩
      rcases safe failed with ⟨windows, -, -, shed⟩
      apply traced
      change progress (source.ingestBatch ops batch).1 = _
      rw [progress, windows, shed]
      rfl
    · intro leaves failed
      rw [whole] at leaves
      rcases (ingestBatchItems_failed leaves failed).2 with ⟨world, left⟩
      have same : (source.ingestBatch ops batch).1 =
          { source with world := world } := left
      rw [same]
      exact ⟨rfl, rfl, rfl, rfl⟩
  · intro attempts steady
    have part : (countedBy ops Prod.fst batch.events.zipIdx
        attempts).Sublist batch.events.zipIdx := by
      apply countedBy_sublist
      rw [zipIdx_map_fst]
      exact steady
    apply part.nodup
    apply List.Nodup.of_map Prod.snd
    rw [List.zipIdx_map_snd]
    exact List.nodup_range'

/-! ## Examples -/

/-- A factory whose calls are counted, and which fails at the given one. -/
def failingAt (call : Nat) : SketchOps Unit Nat where
  newSketch world :=
    (if world = call then .error errInvalidAccuracy else .ok (), world + 1)
  add _ sketch := sketch
  quantile _ _ world := (.ok 0, world)
  max _ := 0

def countingSource : Aggregate.Aggregator Unit Nat where
  config := sampleAggregator.config
  openWindows := ∅
  pending := ∅
  sequence := 41
  shed := 0
  world := 0

/-- Events of two pods. -/
def twoPods : Batch where
  deviceID := "device-1"
  createdAt := ⟨1700000000000000000⟩
  events := [sampleEvent, { sampleEvent with podID := "pod-b" }]

theorem failed_batch_leaves_no_trace_example :
    (countingSource.ingestBatch (failingAt 0) twoPods).2 ≠ none ∧
      Unchanged countingSource
        (countingSource.ingestBatch (failingAt 0) twoPods).1 ∧
      ¬LeavesNoTrace (failingAt 1) twoPods.events countingSource := by
  have first := (failed_batch_leaves_no_trace (failingAt 0) twoPods
    (by decide)).1 countingSource
  have second := (failed_batch_leaves_no_trace (failingAt 1) twoPods
    (by decide)).1 countingSource
  have failed : (countingSource.ingestBatch (failingAt 0) twoPods).2 ≠
      none := by
    decide
  have answers : answersTo (failingAt 0) twoPods.events countingSource =
      [some errInvalidAccuracy, none] := by
    decide
  refine ⟨failed, first.mpr (Or.inr ?_) failed, fun leaves => ?_⟩
  · rw [answers]
    exact refusedAtOnce_of_refused (by decide) _
  · have kept := (second.mpr leaves (by decide)).1
    exact absurd (congrArg GoMap.size kept) (by decide)

/-- The service before the batch, and after its first attempt. -/
def firstAttempt : Service Unit Nat := ⟨countingSource, none, 0⟩

def secondAttempt : Service Unit Nat :=
  (firstAttempt.handleBatch (failingAt 1) none twoPods).1

/--
The factory fails at the second event: the error leaves a window open, and
the retry counts the first event once more.
-/
theorem failed_batch_counts_twice :
    (countingSource.ingestBatch (failingAt 1) twoPods).2 ≠ none ∧
      GoMap.size countingSource.openWindows = 0 ∧
      GoMap.size (countingSource.ingestBatch (failingAt 1)
        twoPods).1.openWindows = 1 ∧
      (countedBy (failingAt 1) Prod.fst twoPods.events.zipIdx
        [(firstAttempt, none), (secondAttempt, none)]).map Prod.snd =
          [0, 0, 1] := by
  decide

end Ironclaw.Aggregator
