import Ironclaw.Disk.Recovery

/-!
# One directory through many processes

A process opens the directory, works on its spool and dies, at any point of
any operation; the next one opens the same directory.  File system calls may
fail too.  Seen from outside the directory is a queue: `QueueStep` says what
each operation may do to it, and every run takes only such steps.
-/

namespace Ironclaw.Disk

open Lib List Option Program

variable {Value : Type}

/-- What the last operation answered; a killed one answers nothing. -/
inductive Answer where
  | nothing
  | opened (fault : Option Fault)
  | enqueued (fault : Option Fault)
  | peeked (result : Except Fault (Payload × String))
  | released (fault : Option Fault)

/-- The directory, and the spool of the process that is alive. -/
structure Station where
  directory : Directory
  spool : Option Spool
  answer : Answer

/-- The operations, with the fate of each of their file system calls. -/
inductive Deed where
  | openSpool (verdicts : List FsVerdict)
  | enqueue (payload : Payload) (verdicts : List FsVerdict)
  | peek (verdicts : List FsVerdict)
  | release (name : String) (verdicts : List FsVerdict)
  | kill

namespace Station

/-- Where an operation leaves the station. -/
def settle {Value : Type} (finish : Value → Option Spool × Answer) :
    Ending Directory FsVerdict Value → Station
  | .finished directory value _ =>
    ⟨directory, (finish value).1, (finish value).2⟩
  | .killed directory => ⟨directory, none, .nothing⟩

/-- An operation of the process that is alive. -/
def operate {Value : Type} (program : Spool → FsProgram (Spool × Value))
    (answer : Value → Answer) (verdicts : List FsVerdict)
    (station : Station) : Option Station :=
  station.spool.map fun spool =>
    settle (fun result => (some result.1, answer result.2))
      ((program spool).run fileSystem station.directory verdicts)

/-- The station after an operation. -/
def step (maxBytes : Int64) (station : Station) : Deed → Option Station
  | .openSpool verdicts =>
    some (settle (fun result => match result with
        | .ok spool => (some spool, .opened none)
        | .error fault => (none, .opened (some fault)))
      ((openSpool maxBytes).run fileSystem station.directory verdicts))
  | .enqueue payload verdicts =>
    station.operate (Spool.enqueue payload) .enqueued verdicts
  | .peek verdicts => station.operate Spool.peek .peeked verdicts
  | .release name verdicts =>
    station.operate (Spool.release name) .released verdicts
  | .kill => some ⟨station.directory, none, .nothing⟩

end Station

/-- The entries that an order lists, as their files hold them. -/
def listing (directory : Directory) (order : List String) : List Entry :=
  order.filterMap fun name =>
    (directory.files.lookup name).map (Entry.mk name)

/-- The entries of the spool that is alive. -/
def Station.entries (station : Station) : Option (List Entry) :=
  station.spool.map fun spool => listing station.directory spool.order

/-- An empty directory without a process. -/
def sampleStation : Station := ⟨Directory.empty, none, .nothing⟩

/-- A directory with a fixed budget, empty at first. -/
def stationMachine (maxBytes : Int64) : Machine Station Deed where
  initial station := station = ⟨Directory.empty, none, .nothing⟩
  step := Station.step maxBytes

/-! ## The abstract queue -/

/-- What an operation may do to the queue, given what it answers. -/
inductive QueueStep (queue : List Entry) :
    Deed → Answer → List Entry → Prop where
  /-- Recovery trims the oldest entries. -/
  | trim {verdicts : List FsVerdict} {answer : Answer} (amount : Nat) :
      QueueStep queue (.openSpool verdicts) answer (queue.drop amount)
  /-- An `Enqueue` that does not succeed may have evicted the oldest. -/
  | evict {payload : Payload} {verdicts : List FsVerdict}
      {answer : Answer} (amount : Nat)
      (fails : answer ≠ .enqueued none) :
      QueueStep queue (.enqueue payload verdicts) answer
        (queue.drop amount)
  /-- The payload goes to the end, under a name of its own. -/
  | enqueue {payload : Payload} {verdicts : List FsVerdict}
      {answer : Answer} (amount : Nat) (name : String)
      (fresh : name ∉ (queue.drop amount).map Entry.name) :
      QueueStep queue (.enqueue payload verdicts) answer
        (queue.drop amount ++ [⟨name, payload⟩])
  | peek {verdicts : List FsVerdict} {answer : Answer}
      (oldest : ∀ payload name, answer = .peeked (.ok (payload, name)) →
        queue.head? = some ⟨name, payload⟩) :
      QueueStep queue (.peek verdicts) answer queue
  | keep {name : String} {verdicts : List FsVerdict} {answer : Answer}
      (fails : answer = .released none → name ∉ queue.map Entry.name) :
      QueueStep queue (.release name verdicts) answer queue
  | release {name : String} {verdicts : List FsVerdict}
      {answer : Answer} :
      QueueStep queue (.release name verdicts) answer
        (queue.filter fun entry => entry.name ≠ name)
  | kill : QueueStep queue .kill .nothing queue

/-! ## Journals only grow -/

theorem Directory.journal_proceed (directory : Directory) (call : FsCall) :
    directory.journal <+: (directory.proceed call).1.journal := by
  cases call <;> simp only [Directory.proceed] <;>
    (try split) <;> simp

theorem Directory.journal_cut
    (directory : Directory) (kept : Nat) (call : FsCall) :
    (directory.cut kept call).journal = directory.journal := by
  cases call <;> rfl

theorem journal_grows (program : FsProgram Value) (directory : Directory) :
    Program.wp fileSystem (fun _ after => directory.journal <+: after.journal)
      (fun after => directory.journal <+: after.journal)
      program directory := by
  induction program generalizing directory with
  | done value => exact prefix_refl _
  | call op next induction =>
    refine ⟨prefix_refl _, ?_⟩
    rintro (_ | kept | kept)
    · have grown := directory.journal_proceed op
      exact wp_mono (induction _ _) (fun _ _ more => grown.trans more)
        (fun _ more => grown.trans more)
    · have equal := directory.journal_cut kept op
      refine wp_mono (induction _ _) (fun _ _ more => ?_) (fun _ more => ?_)
      · rwa [equal] at more
      · rwa [equal] at more
    · have equal := directory.journal_cut kept op
      exact equal.symm ▸ prefix_refl directory.journal

theorem publishedCount_le_of_prefix
    {journal longer : List Happening} (grown : journal <+: longer) :
    publishedCount journal ≤ publishedCount longer :=
  grown.sublist.countP_le

/-! ## Runs -/

section Runs

variable {maxBytes : Int64} {before after : Station} {deed : Deed}
variable {directory : Directory} {verdicts : List FsVerdict}

theorem Station.settle_of_wp
    {program : FsProgram Value} {finish : Value → Option Spool × Answer}
    {post : Value → Directory → Prop} {crash : Directory → Prop}
    {holds : Station → Prop} (verdicts : List FsVerdict)
    (correct : Program.wp fileSystem post crash program directory)
    (finishes : ∀ value after, post value after →
      holds ⟨after, (finish value).1, (finish value).2⟩)
    (dies : ∀ after, crash after → holds ⟨after, none, .nothing⟩) :
    holds (settle finish (program.run fileSystem directory verdicts)) := by
  have ends := run_of_wp correct verdicts
  cases ran : program.run fileSystem directory verdicts with
  | finished after value unused =>
    rw [ran] at ends
    exact finishes value after ends
  | killed after =>
    rw [ran] at ends
    exact dies after ends

theorem Station.journal_settle
    (program : FsProgram Value) (finish : Value → Option Spool × Answer)
    (directory : Directory) (verdicts : List FsVerdict) :
    directory.journal <+: (settle finish
        (program.run fileSystem directory verdicts)).directory.journal := by
  have ends := run_of_wp (journal_grows program directory) verdicts
  cases ran : program.run fileSystem directory verdicts with
  | finished | killed =>
    rw [ran] at ends
    exact ends

theorem Station.journal_operate
    {program : Spool → FsProgram (Spool × Value)} {answer : Value → Answer}
    (operated : before.operate program answer verdicts = some after) :
    before.directory.journal <+: after.directory.journal := by
  obtain ⟨spool, -, rfl⟩ := map_eq_some_iff.mp operated
  exact journal_settle _ _ _ _

theorem Station.journal_step (step : before.step maxBytes deed = some after) :
    before.directory.journal <+: after.directory.journal := by
  cases deed with
  | openSpool verdicts =>
    cases step
    exact journal_settle _ _ _ _
  | enqueue | peek | release => exact journal_operate step
  | kill =>
    cases step
    exact prefix_refl _

/-- A property of the directory, and one of the spool that is alive. -/
structure Station.Holds
    (dead : Directory → Prop) (alive : Directory → Spool → Prop)
    (station : Station) : Prop where
  directory : dead station.directory
  spool : ∀ spool, station.spool = some spool → alive station.directory spool

section Holding

variable {dead : Directory → Prop} {alive : Directory → Spool → Prop}

theorem Station.holds_dead (holds : dead directory) (answer : Answer) :
    Station.Holds dead alive ⟨directory, none, answer⟩ where
  directory := holds
  spool _ alive := by cases alive

theorem Station.holds_alive {spool : Spool} (holds : dead directory)
    (lives : alive directory spool) (answer : Answer) :
    Station.Holds dead alive ⟨directory, some spool, answer⟩ where
  directory := holds
  spool := by
    rintro _ ⟨⟩
    exact lives

theorem Station.Holds.operate
    {program : Spool → FsProgram (Spool × Value)} {answer : Value → Answer}
    (holds : before.Holds dead alive)
    (correct : ∀ spool, before.spool = some spool →
      alive before.directory spool → Program.wp fileSystem
          (fun result after => dead after ∧ alive after result.1) dead
          (program spool) before.directory)
    (operated : before.operate program answer verdicts = some after) :
    after.Holds dead alive := by
  obtain ⟨spool, lives, rfl⟩ := map_eq_some_iff.mp operated
  refine settle_of_wp verdicts
    (correct spool lives (holds.spool spool lives)) ?_ ?_
  · rintro ⟨result, value⟩ after ⟨directory, kept⟩
    exact holds_alive directory kept _
  · intro after directory
    exact holds_dead directory _

theorem Station.holds_openSpool
    (correct : Program.wp fileSystem (fun result after => match result with
        | .error _ => dead after
        | .ok spool => dead after ∧ alive after spool)
      dead (openSpool maxBytes) before.directory)
    (step : before.step maxBytes (.openSpool verdicts) = some after) :
    after.Holds dead alive := by
  cases step
  refine settle_of_wp verdicts correct ?_ ?_
  · intro result after outcome
    cases result with
    | error fault => exact holds_dead outcome _
    | ok spool => exact holds_alive outcome.1 outcome.2 _
  · intro after directory
    exact holds_dead directory _

/-- The rule for a step whose operations all keep a property. -/
theorem Station.Holds.step (holds : before.Holds dead alive)
    (opens : Program.wp fileSystem (fun result after => match result with
        | .error _ => dead after
        | .ok spool => dead after ∧ alive after spool)
      dead (openSpool maxBytes) before.directory)
    (enqueues : ∀ payload verdicts,
      deed = .enqueue payload verdicts → after.Holds dead alive)
    (peeks : ∀ spool, alive before.directory spool → Program.wp fileSystem
        (fun result after => dead after ∧ alive after result.1) dead
        spool.peek before.directory)
    (releases : ∀ name spool, alive before.directory spool →
      Program.wp fileSystem
        (fun result after => dead after ∧ alive after result.1) dead
        (spool.release name) before.directory)
    (step : before.step maxBytes deed = some after) :
    after.Holds dead alive := by
  cases deed with
  | openSpool verdicts => exact holds_openSpool opens step
  | enqueue payload verdicts => exact enqueues payload verdicts rfl
  | peek verdicts =>
    exact holds.operate (fun spool _ lives => peeks spool lives) step
  | release name verdicts =>
    exact holds.operate (fun spool _ lives => releases name spool lives) step
  | kill =>
    cases step
    exact holds_dead holds.directory _

end Holding

/-- The directory holds the queue, and the spool that is alive lists it. -/
structure Station.Sound (station : Station) : Prop where
  intact : Intact station.directory
  indexes : ∀ spool, station.spool = some spool →
    Indexes station.directory spool

theorem Station.sound_dead (intact : Intact directory) (answer : Answer) :
    Station.Sound ⟨directory, none, answer⟩ where
  intact := intact
  indexes spool alive := by cases alive

/-- A sound state whose queue is a permitted successor of another. -/
def Station.Follows
    (queue : List Entry) (deed : Deed) (after : Station) : Prop :=
  after.Sound ∧
    QueueStep queue deed after.answer (queueOf after.directory.journal)

section Sound

variable (sound : before.Sound)
include sound

theorem Station.Sound.openSpool (verdicts : List FsVerdict)
    (step : before.step maxBytes (.openSpool verdicts) = some after) :
    after.Follows (queueOf before.directory.journal)
      (.openSpool verdicts) := by
  have trimmed : ∀ {directory answer}, Evicted before.directory directory →
        QueueStep (queueOf before.directory.journal)
          (.openSpool verdicts) answer (queueOf directory.journal) := by
    intro directory answer evicted
    obtain ⟨amount, queue⟩ := evicted.queue
    rw [queue]
    exact .trim amount
  cases step
  refine settle_of_wp verdicts (wp_openSpool_fifo maxBytes sound.intact) ?_ ?_
  · intro result after outcome
    cases result with
    | error fault =>
      obtain ⟨intact, evicted⟩ := outcome
      exact ⟨sound_dead intact _, trimmed evicted⟩
    | ok spool =>
      obtain ⟨intact, listed, evicted⟩ := outcome
      refine ⟨⟨intact, ?_⟩, trimmed evicted⟩
      rintro _ ⟨⟩
      exact listed
  · rintro after ⟨intact, evicted⟩
    exact ⟨sound_dead intact _, trimmed evicted⟩

theorem Station.Sound.enqueue {payload : Payload}
    (bound : publishedCount before.directory.journal < 2 ^ 63 - 1)
    (step : before.step maxBytes (.enqueue payload verdicts) = some after) :
    after.Follows (queueOf before.directory.journal)
      (.enqueue payload verdicts) := by
  have appended : ∀ {directory answer}, Intact directory →
      Appended before.directory payload directory →
        QueueStep (queueOf before.directory.journal)
          (.enqueue payload verdicts) answer
          (queueOf directory.journal) := by
    rintro directory answer intact ⟨middle, name, evicted, published⟩
    obtain ⟨amount, queue⟩ := evicted.queue
    have distinct := intact.names_nodup
    rw [published.queue, queue] at distinct ⊢
    refine .enqueue amount name ?_
    rw [map_append, nodup_append] at distinct
    intro member
    exact distinct.2.2 name member name (by simp) rfl
  obtain ⟨spool, alive, rfl⟩ := map_eq_some_iff.mp step
  refine settle_of_wp verdicts
    (wp_enqueue_fifo payload sound.intact (sound.indexes spool alive) bound)
    ?_ ?_
  · rintro ⟨result, fault⟩ after ⟨intact, listed, ⟨fails, evicted⟩ | new⟩
    · refine ⟨⟨intact, ?_⟩, ?_⟩
      · rintro _ ⟨⟩
        exact listed
      · obtain ⟨amount, queue⟩ := evicted.queue
        rw [queue]
        refine .evict amount ?_
        rintro ⟨⟩
        cases fails
    · refine ⟨⟨intact, ?_⟩, appended intact new⟩
      rintro _ ⟨⟩
      exact listed
  · rintro after ⟨intact, evicted | new⟩
    · refine ⟨sound_dead intact _, ?_⟩
      obtain ⟨amount, queue⟩ := evicted.queue
      rw [queue]
      refine .evict amount ?_
      rintro ⟨⟩
    · exact ⟨sound_dead intact _, appended intact new⟩

theorem Station.Sound.peek
    (step : before.step maxBytes (.peek verdicts) = some after) :
    after.Follows (queueOf before.directory.journal) (.peek verdicts) := by
  obtain ⟨spool, alive, rfl⟩ := map_eq_some_iff.mp step
  have indexes := sound.indexes spool alive
  refine settle_of_wp verdicts (wp_peek_fifo sound.intact indexes) ?_ ?_
  · rintro ⟨result, answer⟩ after ⟨rfl, rfl, oldest⟩
    refine ⟨⟨sound.intact, ?_⟩, .peek ?_⟩
    · rintro _ ⟨⟩
      exact indexes
    · rintro payload name ⟨⟩
      exact oldest payload name rfl
  · rintro after rfl
    refine ⟨sound_dead sound.intact _, .peek ?_⟩
    rintro payload name ⟨⟩

theorem Station.Sound.release {name : String}
    (step : before.step maxBytes (.release name verdicts) = some after) :
    after.Follows (queueOf before.directory.journal)
      (.release name verdicts) := by
  obtain ⟨spool, alive, rfl⟩ := map_eq_some_iff.mp step
  have indexes := sound.indexes spool alive
  refine settle_of_wp verdicts (wp_release_fifo name sound.intact indexes)
    ?_ ?_
  · rintro ⟨result, fault⟩ after ⟨intact, listed, ⟨rfl, absent⟩ | rfl⟩
    · refine ⟨⟨intact, ?_⟩, .keep ?_⟩
      · rintro _ ⟨⟩
        exact listed
      · rintro ⟨⟩
        exact absent rfl
    · refine ⟨⟨intact, ?_⟩, ?_⟩
      · rintro _ ⟨⟩
        exact listed
      · rw [Directory.without, queueOf_removed]
        exact .release
  · rintro after rfl
    refine ⟨sound_dead sound.intact _, .keep ?_⟩
    rintro ⟨⟩

theorem Station.Sound.step
    (bound : ∀ payload verdicts, deed = .enqueue payload verdicts →
      publishedCount before.directory.journal < 2 ^ 63 - 1)
    (step : before.step maxBytes deed = some after) :
    after.Follows (queueOf before.directory.journal) deed := by
  cases deed with
  | openSpool verdicts => exact sound.openSpool verdicts step
  | enqueue payload verdicts =>
    exact sound.enqueue (bound payload verdicts rfl) step
  | peek verdicts => exact sound.peek step
  | release name verdicts => exact sound.release step
  | kill =>
    cases step
    exact ⟨sound_dead sound.intact _, .kill⟩

end Sound

theorem Station.sound_initial : sampleStation.Sound := by
  refine sound_dead ⟨stored_empty, ?_, Pairwise.nil⟩ _
  intro entry member
  exact absurd member not_mem_nil

/-- Every reachable state is sound, while the ordinals last. -/
theorem Station.sound (reachable : (stationMachine maxBytes).Reachable before)
    (bound : publishedCount before.directory.journal < 2 ^ 63 - 1) :
    before.Sound := by
  refine @Machine.Reachable.invariant _ _ _
    (fun station => publishedCount station.directory.journal < 2 ^ 63 - 1 →
        station.Sound) _ ?_ ?_ reachable bound
  · rintro station rfl _
    exact sound_initial
  · intro before deed after _ sound step bound
    have earlier := publishedCount_le_of_prefix (journal_step step)
    exact ((sound (by omega)).step (fun _ _ _ => by omega) step).1

/-- A spool that is alive lists the queue with its payloads. -/
theorem Station.Sound.entries_eq {station : Station} (sound : station.Sound) :
    station.entries =
      station.spool.map fun _ => queueOf station.directory.journal := by
  cases alive : station.spool with
  | none => simp [entries, alive]
  | some spool =>
    simp only [entries, alive, map_some, some.injEq]
    rw [(sound.indexes spool alive).order_eq, listing, filterMap_map]
    have held : ∀ entry ∈ queueOf station.directory.journal, ((fun name =>
          (station.directory.files.lookup name).map
            (Entry.mk name)) ∘ Entry.name) entry = some entry := by
      intro entry member
      simp [sound.intact.present entry member]
    rw [filterMap_congr held, filterMap_some]

/--
The directory is a crash-safe queue.  Every operation, finished or killed,
takes a step that the abstract queue permits; the spool that is alive lists
the queue in order with the payloads; and no file that looks like an entry
holds anything else.
-/
theorem crash_safe_queue
    (reachable : (stationMachine maxBytes).Reachable before)
    (step : (stationMachine maxBytes).step before deed = some after)
    (bound : publishedCount after.directory.journal < 2 ^ 63 - 1) :
    QueueStep (queueOf before.directory.journal) deed after.answer
        (queueOf after.directory.journal) ∧
      after.entries =
        after.spool.map (fun _ => queueOf after.directory.journal) ∧
      ∀ name payload, ext name = extension →
        (after.directory.files.lookup name = some payload ↔
          ⟨name, payload⟩ ∈ queueOf after.directory.journal) := by
  have earlier := publishedCount_le_of_prefix (Station.journal_step step)
  have sound := Station.sound reachable (by omega)
  obtain ⟨kept, permitted⟩ := sound.step (fun _ _ _ => by omega) step
  refine ⟨permitted, kept.entries_eq, ?_⟩
  intro name payload batch
  constructor
  · intro found
    exact kept.intact.only name payload found batch
  · exact kept.intact.present ⟨name, payload⟩

end Runs

/-! ## A killed `Enqueue` -/

/-- An `Enqueue` killed right after its rename. -/
def sampleDeeds : List Deed :=
  [.openSpool [.proceed, .proceed, .proceed],
    .enqueue [7] [.proceed, .proceed, .proceed, .proceed, .proceed]]

/-- The next process lists, reads and inspects the directory. -/
def sampleReopen : Deed :=
  .openSpool [.proceed, .proceed, .proceed, .proceed]

def sampleKilled : Station :=
  ((stationMachine 4096).run sampleStation sampleDeeds).get (by decide)

def sampleReopened : Station :=
  ((stationMachine 4096).step sampleKilled sampleReopen).get (by decide)

theorem crash_safe_queue_sample : sampleReopened.entries =
        some [⟨"00000000000000000001-00000000000000000001.batch", [7]⟩] ∧
      QueueStep (queueOf sampleKilled.directory.journal) sampleReopen
        sampleReopened.answer
        (queueOf sampleReopened.directory.journal) := by
  refine ⟨by decide, ?_⟩
  have reachable : (stationMachine 4096).Reachable sampleKilled :=
    (Machine.Reachable.start rfl).run (Option.some_get _).symm
  exact (crash_safe_queue reachable (Option.some_get _).symm (by decide)).1

end Ironclaw.Disk
