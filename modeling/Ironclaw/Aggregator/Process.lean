import Ironclaw.Aggregator.Service
import Ironclaw.Lib.Machine

/-!
# One aggregator process

A service with any number of `EmitAll` and `EmitClosedWindows` calls in
progress.  Batches are handled, windows collected, targets called and windows
committed in any order, and every call of a target may succeed, fail, or fail
after it delivered.

Beside the service stand the ledger of its aggregator, the windows that
reached the hot target and the windows whose publication was acknowledged.
-/

namespace Ironclaw.Aggregator

open Lib Domain Aggregate List Ledger

variable {Sketch World Item : Type}

/-- The service, its open publications and its books. -/
structure Process (Sketch World Item : Type) where
  service : Service Sketch World
  ledger : Ledger Item
  emits : List Publishing
  /-- The windows that reached the hot target, in order. -/
  sent : List AggregateWindow
  /-- The windows for which `PublishWindow` returned nil. -/
  acknowledged : List AggregateWindow

/-- One call, or one part of a publication. -/
inductive Move (Item : Type) where
  | handle (context : Option Fault) (items : List Item)
  | emitAll
  | emitClosedWindows (watermark : Time)
  | attempt (emit : Nat) (outcome : Outcome)
  | commit (emit : Nat)

namespace Process

/-- The process around a new service. -/
def start (service : Service Sketch World) : Process Sketch World Item where
  service := service
  ledger := Ledger.empty
  emits := []
  sent := []
  acknowledged := []

def handle
    (ops : SketchOps Sketch World) (event : Item → Event)
    (context : Option Fault) (items : List Item)
    (process : Process Sketch World Item) : Process Sketch World Item :=
  let result := process.service.handleItems ops event context items
  { process with
    service := result.1
    ledger := process.ledger.count result.2.1 }

/-- Collect, and start to publish what the collect returned. -/
def collect
    (ops : SketchOps Sketch World) (event : Item → Event)
    (included : WindowKey → Bool)
    (process : Process Sketch World Item) : Process Sketch World Item :=
  let source := process.service.source
  let result := source.collect ops included
  { process with
    service := { process.service with source := result.1 }
    ledger := process.ledger.emitAll
      (fun item => windowKeyOf source.config (event item))
      (source.newlyEmitted ops included)
    emits :=
      if result.2.2.isNone then
        process.emits ++ [Publishing.start result.2.1]
      else process.emits }

/-- Publish the next window of a publication. -/
def attempt
    (publisher : Publisher) (emit : Nat) (outcome : Outcome)
    (process : Process Sketch World Item) :
    Option (Process Sketch World Item) :=
  match process.emits[emit]? with
  | none => none
  | some publishing =>
    match publishing.remaining with
    | [] => none
    | window :: rest =>
      some { process with
        emits := process.emits.set emit
          (publishing.attempt publisher.targets outcome window rest)
        sent :=
          if publishing.target = publisher.hot ∧ outcome.reaches then
            process.sent ++ [window]
          else process.sent
        acknowledged :=
          if publishing.acknowledges publisher.targets outcome then
            process.acknowledged ++ [window]
          else process.acknowledged }

/-- Commit what a publication has published. -/
def commit
    (emit : Nat) (process : Process Sketch World Item) :
    Option (Process Sketch World Item) :=
  match process.emits[emit]? with
  | none => none
  | some publishing =>
    if publishing.remaining = [] then
      some { process with
        service := process.service.finish publishing
        ledger := process.ledger.remove
          (Ledger.deleted publishing.published process.service.source.pending)
        emits := process.emits.eraseIdx emit }
    else none

/-- The process after a move that can be made. -/
def step
    (ops : SketchOps Sketch World) (event : Item → Event)
    (publisher : Publisher) (process : Process Sketch World Item) :
    Move Item → Option (Process Sketch World Item)
  | .handle context items => some (process.handle ops event context items)
  | .emitAll => some (process.collect ops event fun _ => true)
  | .emitClosedWindows watermark =>
    some (process.collect ops event fun key =>
      key.windowID < windowIDAt process.service.source.config watermark)
  | .attempt emit outcome => process.attempt publisher emit outcome
  | .commit emit => process.commit emit

end Process

/-! ## What every process accounts for -/

/-- A call of `publish` only handles emissions, and reports honestly. -/
structure Publishing.Sound
    (publisher : Publisher)
    (emitted sent acknowledged : List AggregateWindow)
    (publishing : Publishing) : Prop where
  remaining_emitted : ∀ window ∈ publishing.remaining, window ∈ emitted
  published_acknowledged :
    ∀ window ∈ publishing.published, window ∈ acknowledged
  target_lt : publishing.target < publisher.targets
  /-- Past the hot target without an error, the window has arrived. -/
  hot_sent : ∀ window rest, publishing.remaining = window :: rest →
    publisher.hot < publishing.target → publishing.firstErr = none →
      window ∈ sent

/--
The windows of a process: what is sent was emitted, what is acknowledged was
sent, and a commit only removes what was acknowledged.
-/
structure Process.Accounted
    (event : Item → Event) (publisher : Publisher) (seed : Int64)
    (process : Process Sketch World Item) : Prop where
  tracks : Tracks event seed process.service.source process.ledger
  sent_emitted : ∀ window ∈ process.sent, window ∈ process.ledger.windows
  acknowledged_sent : ∀ window ∈ process.acknowledged, window ∈ process.sent
  emits_sound : ∀ publishing ∈ process.emits,
    publishing.Sound publisher process.ledger.windows process.sent
      process.acknowledged
  removed_acknowledged : process.ledger.emitted.length < 2 ^ 64 →
    ∀ window ∈ process.ledger.removed, window ∈ process.acknowledged

namespace Publishing.Sound

variable {publisher : Publisher} {publishing : Publishing}
variable {emitted sent acknowledged : List AggregateWindow}

theorem mono {emitted' sent' acknowledged' : List AggregateWindow}
    (sound : publishing.Sound publisher emitted sent acknowledged)
    (emittedGrows : emitted ⊆ emitted') (sentGrows : sent ⊆ sent')
    (acknowledgedGrows : acknowledged ⊆ acknowledged') :
    publishing.Sound publisher emitted' sent' acknowledged' where
  remaining_emitted window member :=
    emittedGrows (sound.remaining_emitted window member)
  published_acknowledged window member :=
    acknowledgedGrows (sound.published_acknowledged window member)
  target_lt := sound.target_lt
  hot_sent window rest first passed succeeded :=
    sentGrows (sound.hot_sent window rest first passed succeeded)

theorem start {windows : List AggregateWindow}
    (known : ∀ window ∈ windows, window ∈ emitted) :
    (Publishing.start windows).Sound publisher emitted sent acknowledged where
  remaining_emitted := known
  published_acknowledged := by simp [Publishing.start]
  target_lt := publisher.hot.pos
  hot_sent := by
    intro window rest _ passed
    exact absurd passed (Nat.not_lt_zero _)

variable {window : AggregateWindow} {rest : List AggregateWindow}
variable {outcome : Outcome}

section Sound

variable (sound : publishing.Sound publisher emitted sent acknowledged)
variable (first : publishing.remaining = window :: rest)
include sound first

theorem sent_of_succeeded (passed : publisher.hot ≤ publishing.target)
    (succeeded : publishing.firstErr.or outcome.fault = none) :
    window ∈ concatIf (publishing.target = publisher.hot ∧ outcome.reaches)
      sent window := by
  obtain ⟨noErr, noFault⟩ := Option.or_eq_none_iff.mp succeeded
  by_cases atHot : publishing.target = publisher.hot
  · exact mem_concatIf ⟨atHot, Outcome.reaches_of_fault noFault⟩
  · exact subset_concatIf (sound.hot_sent window rest first (by omega) noErr)

theorem sent_of_acknowledges
    (acknowledges :
      publishing.acknowledges publisher.targets outcome = true) :
    window ∈ concatIf (publishing.target = publisher.hot ∧ outcome.reaches)
      sent window := by
  simp only [Publishing.acknowledges, Bool.and_eq_true, Bool.not_eq_true',
    decide_eq_false_iff_not, Option.isNone_iff_eq_none] at acknowledges
  obtain ⟨last, succeeded⟩ := acknowledges
  have bound := publisher.hot.isLt
  exact sound.sent_of_succeeded first (by omega) succeeded

theorem attempt :
    (publishing.attempt publisher.targets outcome window rest).Sound
      publisher emitted
      (concatIf (publishing.target = publisher.hot ∧ outcome.reaches) sent
        window)
      (concatIf (publishing.acknowledges publisher.targets outcome)
        acknowledged window) := by
  by_cases more : publishing.target + 1 < publisher.targets
  · rw [Publishing.attempt, if_pos more]
    constructor
    · exact sound.remaining_emitted
    · exact fun other member =>
        subset_concatIf (sound.published_acknowledged other member)
    · exact more
    · intro head tail headFirst passed succeeded
      have same : head = window := by
        have equal := headFirst.symm.trans first
        exact (List.cons.inj equal).1
      subst same
      exact sound.sent_of_succeeded first (Nat.lt_succ_iff.mp passed)
        succeeded
  · rw [Publishing.attempt, if_neg more]
    constructor
    · intro other member
      refine sound.remaining_emitted other ?_
      rw [first]
      exact mem_cons_of_mem _ member
    · apply forall_mem_concatIf
      · exact fun other member =>
          subset_concatIf (sound.published_acknowledged other member)
      · intro succeeded
        exact mem_concatIf (by simp [Publishing.acknowledges, more, succeeded])
    · exact publisher.hot.pos
    · intro head tail _ passed
      exact absurd passed (Nat.not_lt_zero _)

end Sound

end Publishing.Sound

namespace Process

variable {ops : SketchOps Sketch World} {event : Item → Event}
variable {publisher : Publisher} {seed : Int64}
variable {process next : Process Sketch World Item}
variable {emit : Nat} {move : Move Item}

/-! ## What one move can do -/

/-- Every outcome of a call of a target. -/
theorem attempt_cases {outcome : Outcome}
    (step : process.attempt publisher emit outcome = some next) :
    ∃ publishing window rest, process.emits[emit]? = some publishing ∧
        publishing.remaining = window :: rest ∧
        next = { process with
          emits := process.emits.set emit
            (publishing.attempt publisher.targets outcome window rest)
          sent := concatIf
            (publishing.target = publisher.hot ∧ outcome.reaches)
            process.sent window
          acknowledged := concatIf
            (publishing.acknowledges publisher.targets outcome)
            process.acknowledged window } := by
  rw [Process.attempt] at step
  split at step
  · cases step
  · rename_i publishing present
    split at step
    · cases step
    · rename_i window rest first
      exact ⟨publishing, window, rest, present, first,
        (Option.some.inj step).symm⟩

theorem commit_cases (step : process.commit emit = some next) : ∃ publishing,
      process.emits[emit]? = some publishing ∧ publishing.remaining = [] ∧
        next = { process with
          service := process.service.finish publishing
          ledger := process.ledger.remove
            (deleted publishing.published process.service.source.pending)
          emits := process.emits.eraseIdx emit } := by
  rw [Process.commit] at step
  split at step
  · cases step
  · rename_i publishing present
    split at step
    · rename_i finished
      exact ⟨publishing, present, finished, (Option.some.inj step).symm⟩
    · cases step

/-! ## Every move keeps the account -/

namespace Accounted

section Accounted

variable (accounted : process.Accounted event publisher seed)
include accounted

theorem handle (context : Option Fault) (items : List Item) :
    (process.handle ops event context items).Accounted event publisher
      seed :=
  { accounted with
    tracks := by
      cases context with
      | some fault =>
        have nothing := accounted.tracks
        rw [← count_nil process.ledger] at nothing
        exact nothing
      | none =>
        obtain ⟨source, counted⟩ :=
          process.service.handleItems_live ops event items
        simp only [Process.handle, source, counted]
        exact accounted.tracks.ingestBatchItems ops items }

theorem collect (included : WindowKey → Bool) :
    (process.collect ops event included).Accounted event publisher seed := by
  have windows := windows_emitAll
    (fun item => windowKeyOf process.service.source.config (event item))
    (process.service.source.newlyEmitted ops included) process.ledger
  have grows : process.ledger.windows ⊆
      (process.collect ops event included).ledger.windows := by
    intro window member
    rw [Process.collect, windows]
    exact mem_append_left _ member
  constructor
  · exact accounted.tracks.collect ops included
  · intro window member
    exact grows (accounted.sent_emitted window member)
  · exact accounted.acknowledged_sent
  · intro publishing member
    have old : ∀ publishing ∈ process.emits, publishing.Sound publisher
          (process.collect ops event included).ledger.windows
          process.sent process.acknowledged :=
      fun publishing earlier =>
        (accounted.emits_sound publishing earlier).mono grows
          (List.Subset.refl _) (List.Subset.refl _)
    simp only [Process.collect] at member
    split at member
    · rcases mem_append.mp member with earlier | started
      · exact old publishing earlier
      · rw [mem_singleton.mp started]
        refine Publishing.Sound.start ?_
        intro window returned
        rw [Process.collect, windows]
        exact accounted.tracks.mem_windows_of_collect ops included returned
    · exact old publishing member
  · intro bound window member
    simp only [Process.collect, emitted_length_emitAll] at bound
    simp only [Process.collect, removed_emitAll] at member
    exact accounted.removed_acknowledged (by omega) window member

theorem attempt {outcome : Outcome}
    (step : process.attempt publisher emit outcome = some next) :
    next.Accounted event publisher seed := by
  obtain ⟨publishing, window, rest, present, first, rfl⟩ := attempt_cases step
  have sound := accounted.emits_sound publishing (mem_of_getElem? present)
  constructor
  · exact accounted.tracks
  · have emitted : window ∈ process.ledger.windows :=
      sound.remaining_emitted window (first ▸ mem_cons_self)
    exact forall_mem_concatIf accounted.sent_emitted fun _ => emitted
  · apply forall_mem_concatIf
    · exact fun other member =>
        subset_concatIf (accounted.acknowledged_sent other member)
    · exact sound.sent_of_acknowledges first
  · intro other member
    rcases mem_or_eq_of_mem_set member with old | rfl
    · exact (accounted.emits_sound other old).mono (List.Subset.refl _)
        subset_concatIf subset_concatIf
    · exact sound.attempt first
  · intro bound other member
    exact subset_concatIf (accounted.removed_acknowledged bound other member)

theorem commit (step : process.commit emit = some next) :
    next.Accounted event publisher seed := by
  obtain ⟨publishing, present, finished, rfl⟩ := commit_cases step
  have sound := accounted.emits_sound publishing (mem_of_getElem? present)
  constructor
  · simp only [Service.source_finish]
    exact accounted.tracks.commit publishing.published
  · exact accounted.sent_emitted
  · exact accounted.acknowledged_sent
  · intro other member
    exact accounted.emits_sound other (mem_of_mem_eraseIdx member)
  · intro bound window member
    rcases mem_append.mp member with old | new
    · exact accounted.removed_acknowledged bound window old
    · obtain ⟨given, givenMember, held⟩ := mem_deleted new
      -- Identities are not reused, so the window deleted is the one given.
      obtain ⟨identity, emitted⟩ :=
        accounted.tracks.pending_emitted _ window held
      have acknowledged := sound.published_acknowledged given givenMember
      have givenEmitted := accounted.sent_emitted given
        (accounted.acknowledged_sent given acknowledged)
      have same := accounted.tracks.eq_of_identity bound givenEmitted
        emitted identity
      exact same ▸ acknowledged

theorem step (step : process.step ops event publisher move = some next) :
    next.Accounted event publisher seed := by
  cases move with
  | handle context items =>
    cases step
    exact accounted.handle context items
  | emitAll | emitClosedWindows =>
    cases step
    exact accounted.collect _
  | attempt emit outcome => exact accounted.attempt step
  | commit emit => exact accounted.commit step

end Accounted

end Accounted

section Step

variable (step : process.step ops event publisher move = some next)
include step

/-- What reached the hot target stays with it. -/
theorem sent_subset : process.sent ⊆ next.sent := by
  cases move with
  | handle | emitAll | emitClosedWindows =>
    cases step
    exact List.Subset.refl _
  | attempt emit outcome =>
    obtain ⟨publishing, window, rest, _, _, rfl⟩ := attempt_cases step
    exact subset_concatIf
  | commit emit =>
    obtain ⟨publishing, _, _, rfl⟩ := commit_cases step
    exact List.Subset.refl _

/-- An emission stays emitted, and an acknowledged window acknowledged. -/
theorem grows :
    process.ledger.emitted ⊆ next.ledger.emitted ∧
      process.acknowledged ⊆ next.acknowledged := by
  cases move with
  | handle context items =>
    cases step
    exact ⟨List.Subset.refl _, List.Subset.refl _⟩
  | emitAll | emitClosedWindows =>
    cases step
    exact ⟨emitted_subset_emitAll _ _ _, List.Subset.refl _⟩
  | attempt emit outcome =>
    obtain ⟨publishing, window, rest, _, _, rfl⟩ := attempt_cases step
    exact ⟨List.Subset.refl _, subset_concatIf⟩
  | commit emit =>
    obtain ⟨publishing, _, _, rfl⟩ := commit_cases step
    exact ⟨List.Subset.refl _, List.Subset.refl _⟩

/-- Only a handling counts. -/
theorem accepted_step
    (emits : ∀ context items, move ≠ .handle context items) :
    next.ledger.accepted = process.ledger.accepted := by
  cases move with
  | handle context items => exact absurd rfl (emits context items)
  | emitAll | emitClosedWindows =>
    cases step
    exact accepted_emitAll _ _ _
  | attempt emit outcome =>
    rcases attempt_cases step with ⟨_, _, _, _, _, rfl⟩
    rfl
  | commit emit =>
    rcases commit_cases step with ⟨_, _, _, rfl⟩
    rfl

end Step

/-! ## Published items -/

/-- The item is in a window whose publication succeeded. -/
def Publishes
    (process : Process Sketch World Item) (item : Item) : Prop :=
  ∃ entry ∈ process.ledger.emitted,
    entry.1 ∈ process.acknowledged ∧ item ∈ entry.2

theorem Publishes.step {item : Item} (publishes : process.Publishes item)
    (step : process.step ops event publisher move = some next) :
    next.Publishes item := by
  rcases publishes with ⟨entry, emitted, acknowledged, inside⟩
  have grown := grows step
  exact ⟨entry, grown.1 emitted, grown.2 acknowledged, inside⟩

/-- All that is counted is published if all that is held has been. -/
theorem Accounted.publishes
    (accounted : process.Accounted event publisher seed)
    (noneOpen : process.service.source.openWindows = ∅)
    (held : ∀ window ∈ GoMap.values process.service.source.pending,
      window ∈ process.acknowledged)
    (bound : process.ledger.emitted.length < 2 ^ 64)
    {item : Item} (counted : item ∈ process.ledger.accepted) :
    process.Publishes item := by
  have tracks := accounted.tracks
  rw [tracks.accepted_perm.mem_iff, tracks.opened_eq_nil noneOpen,
    nil_append] at counted
  rcases mem_flatMap.mp counted with ⟨entry, emitted, inside⟩
  refine ⟨entry, emitted, ?_, inside⟩
  have window : entry.1 ∈ process.ledger.windows := mem_map_of_mem emitted
  rw [(tracks.conserved bound).mem_iff] at window
  rcases mem_append.mp window with pending | removed
  · exact held entry.1 pending
  · exact accounted.removed_acknowledged bound entry.1 removed

theorem accounted_start (event : Item → Event) (publisher : Publisher)
    {service : Service Sketch World} (opened : service.source.openWindows = ∅)
    (pending : service.source.pending = ∅) :
    (Process.start service : Process Sketch World Item).Accounted event
      publisher service.source.sequence where
  tracks := tracks_new event opened pending
  sent_emitted := by simp [Process.start]
  acknowledged_sent := by simp [Process.start]
  emits_sound := by simp [Process.start]
  removed_acknowledged := by simp [Process.start, empty]

end Process

end Ironclaw.Aggregator
