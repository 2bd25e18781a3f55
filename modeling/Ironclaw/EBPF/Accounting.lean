import Ironclaw.EBPF.Outcome
import Ironclaw.Lib.Machine

/-!
# What the kernel program counts and submits

Any threads enter and leave system calls on any CPUs while the clock does not
go back, the ring buffer has no room whenever it likes, and entries of
`start_times` are evicted at any time.

The counters of a CPU always add up.  The records of a CPU keep to its rate
windows, and the latency of a record is the time since its thread last entered.
-/

namespace Ironclaw.EBPF

open Lib List Function

/-! ## Runs -/

/-- A record that was submitted, and when: its thread and CPU, the start of the
rate window, the last time that the thread entered, and the time of the
exit. -/
structure Submission (cpus : Nat) where
  record : Event
  thread : UInt64
  cpu : Fin cpus
  window : Nat
  entered : Option UInt64
  exited : UInt64

/-- The program's maps with what has happened: the last reading of the clock,
when each thread last entered with an entry that was admitted, the starts of
the rate windows and the number of exits of every CPU, and what was
submitted. -/
structure Capture (cpus : Nat) where
  maps : Maps cpus
  clock : UInt64
  entered : UInt64 → Option UInt64
  starts : Fin cpus → List Nat
  exits : Fin cpus → Nat
  submissions : List (Submission cpus)

/-- Entries and exits of threads, and evictions from `start_times`. -/
inductive Invocation (cpus : Nat) where
  | enter (pidTgid now : UInt64)
  | exit
      (cpu : Fin cpus) (context : SysExit) (pidTgid now : UInt64)
      (room : Bool)
  | evict (pidTgid : UInt64)

namespace Capture

variable {cpus : Nat} (config : Config) (capture : Capture cpus)

def loaded (cpus : Nat) : Capture cpus where
  maps := Maps.loaded cpus
  clock := 0
  entered := fun _ => none
  starts := fun _ => []
  exits := fun _ => 0
  submissions := []

/-- An entry is admitted if neither the target nor the sample leaves it out. -/
def admitted (pidTgid : UInt64) : Bool :=
  (config.targetTgid = 0 ∨ tgidOf pidTgid = config.targetTgid) ∧
    (config.sampleModulus ≤ 1 ∨ tgidOf pidTgid % config.sampleModulus = 0)

def enter (pidTgid now : UInt64) : Capture cpus :=
  { capture with
    maps := ironclawSysEnter config pidTgid now capture.maps
    clock := now
    entered :=
      if admitted config pidTgid then
        Function.update capture.entered pidTgid (some now)
      else capture.entered }

/-- The start of the rate window of a CPU. -/
def windowStart (maps : Maps cpus) (cpu : Fin cpus) : Nat :=
  (maps.perCpu cpu).rateLimit.windowStartNs.toNat

def submissionOf
    (cpu : Fin cpus) (pidTgid now : UInt64) (window : Nat)
    (record : Event) : Submission cpus where
  record := record
  thread := pidTgid
  cpu := cpu
  window := window
  entered := capture.entered pidTgid
  exited := now

def exit
    (cpu : Fin cpus) (context : SysExit) (pidTgid now : UInt64)
    (room : Bool) : Capture cpus :=
  let maps := ironclawSysExit config cpu context pidTgid now room
    capture.maps
  { capture with
    maps := maps
    clock := now
    starts := Function.update capture.starts cpu
      (startsAfter (capture.starts cpu) (windowStart capture.maps cpu)
        (windowStart maps cpu))
    exits := Function.update capture.exits cpu (capture.exits cpu + 1)
    submissions := capture.submissions ++
      (maps.events.drop capture.maps.events.length).map
        (capture.submissionOf cpu pidTgid now (windowStart maps cpu)) }

def evict (pidTgid : UInt64) : Capture cpus :=
  { capture with
    maps :=
      { capture.maps with
        startTimes :=
          Function.update capture.maps.startTimes pidTgid none } }

/-- The clock is read as a number other than zero, and does not go back. -/
def ticks (now : UInt64) : Prop := now ≠ 0 ∧ capture.clock ≤ now

instance (now : UInt64) : Decidable (capture.ticks now) :=
  inferInstanceAs (Decidable (_ ∧ _))

def machine (cpus : Nat) : Machine (Capture cpus) (Invocation cpus) where
  initial := fun capture => capture = loaded cpus
  step capture
    | .enter pidTgid now =>
      if capture.ticks now then some (capture.enter config pidTgid now)
      else none
    | .exit cpu context pidTgid now room =>
      if capture.ticks now then
        some (capture.exit config cpu context pidTgid now room)
      else none
    | .evict pidTgid => some (capture.evict pidTgid)

/-- The windows in which a CPU submitted its records, one for each. -/
def windows (cpu : Fin cpus) : List Nat :=
  (capture.submissions.filter (·.cpu = cpu)).map (·.window)

end Capture

/-! ## Invariant -/

/-- A record tells the time since its thread last entered, and it lies in its
rate window. -/
structure Submission.Measured
    (config : Config) {cpus : Nat} (submission : Submission cpus) : Prop where
  thread : submission.record.pid = submission.thread.toUInt32 ∧
    submission.record.tgid = tgidOf submission.thread
  timestamp : submission.record.timestampNs = submission.exited
  latency : ∃ entered : UInt64, submission.entered = some entered ∧
      entered.toNat + submission.record.latencyNs.toNat =
        submission.exited.toNat
  long : config.minLatencyNs ≤ submission.record.latencyNs
  window : submission.window ≤ submission.exited.toNat ∧
    submission.exited.toNat < submission.window + 1000000000

/-- The slots of a CPU tell its exits and its rate windows. -/
structure PerCpu.Sound
    (config : Config) (clock : UInt64) (slots : PerCpu) (exits : Nat)
    (starts windows : List Nat) : Prop where
  counted : Counted slots.stats exits
  recent : slots.rateLimit.windowStartNs ≤ clock
  paced : Window.Paced 1000000000 config.maxEventsPerCpuPerSecond.toNat
      slots.rateLimit.windowStartNs.toNat slots.rateLimit.emitted.toNat
      starts windows

section Slots

variable {config : Config} {clock now : UInt64} {slots : PerCpu}
variable {exits : Nat} {starts windows : List Nat}

section Sound

variable (sound : slots.Sound config clock exits starts windows)
include sound

theorem PerCpu.Sound.later (tick : clock ≤ now) :
    slots.Sound config now exits starts windows :=
  { sound with
    recent := UInt64.le_trans sound.recent tick }

theorem PerCpu.Sound.unpaired :
    (slots.bump .droppedUnpaired).Sound config clock (exits + 1) starts
      windows :=
  { sound with
    counted := sound.counted.unpaired }

end Sound

end Slots

/-- The invariant of a capture. -/
structure Capture.Sound
    (config : Config) {cpus : Nat} (capture : Capture cpus) : Prop where
  paired : ∀ pidTgid started, capture.maps.startTimes pidTgid = some started →
      capture.entered pidTgid = some started ∧ started ≤ capture.clock
  slots : ∀ cpu, (capture.maps.perCpu cpu).Sound config capture.clock
      (capture.exits cpu) (capture.starts cpu) (capture.windows cpu)
  measured : ∀ submission ∈ capture.submissions, submission.Measured config
  listed : capture.submissions.map (·.record) = capture.maps.events

namespace Capture

variable {cpus : Nat} {config : Config} {capture : Capture cpus}

theorem Sound.loaded : (loaded cpus).Sound config where
  paired := fun _ _ found => by cases found
  slots := fun _ =>
    { counted := ⟨fun _ => 0, fun _ => rfl, rfl, rfl⟩
      recent := UInt64.le_refl 0
      paced := Window.Paced.unused }
  measured := forall_mem_nil _
  listed := rfl

theorem admitted_iff (config : Config) (pidTgid : UInt64) :
    admitted config pidTgid = true ↔
      ¬(config.targetTgid ≠ 0 ∧ tgidOf pidTgid ≠ config.targetTgid) ∧
        ¬sampledOut config (tgidOf pidTgid) = true := by
  rw [admitted, sampledOut, decide_eq_true_eq]
  by_cases small : config.sampleModulus ≤ 1
  · simp only [small, if_true, true_or, Bool.false_eq_true]
    tauto
  · simp only [small, if_false, false_or, decide_eq_true_eq]
    tauto

/-- What an entry stores. -/
theorem ironclawSysEnter_eq
    (enabled : config.enabled ≠ 0) (pidTgid now : UInt64)
    (maps : Maps cpus) :
    ironclawSysEnter config pidTgid now maps = if admitted config pidTgid then
        { maps with
          startTimes :=
            update maps.startTimes pidTgid (some now) }
      else maps := by
  rw [ironclawSysEnter, if_neg enabled]
  dsimp only
  simp only [admitted_iff]
  by_cases other : config.targetTgid ≠ 0 ∧ tgidOf pidTgid ≠ config.targetTgid
  · rw [if_pos other, if_neg fun taken => taken.1 other]
  · rw [if_neg other]
    by_cases sampled : sampledOut config (tgidOf pidTgid) = true
    · rw [if_pos sampled, if_neg fun taken => taken.2 sampled]
    · rw [if_neg sampled, if_pos ⟨other, sampled⟩]

theorem Sound.paired_removed
    (sound : capture.Sound config) {removed pidTgid started : UInt64}
    (found : Function.update capture.maps.startTimes removed none pidTgid =
      some started) :
    capture.entered pidTgid = some started ∧ started ≤ capture.clock := by
  by_cases same : pidTgid = removed
  · rw [same, update_self] at found
    cases found
  · rw [update_of_ne same] at found
    exact sound.paired pidTgid started found

theorem Sound.evict (sound : capture.Sound config) (pidTgid : UInt64) :
    (capture.evict pidTgid).Sound config :=
  { sound with
    paired := fun _ _ found => sound.paired_removed found }

variable {pidTgid now : UInt64}

theorem Sound.tick
    (sound : capture.Sound config) (ticks : capture.ticks now) :
    { capture with clock := now }.Sound config :=
  { sound with
    paired := fun pidTgid started found =>
      ⟨(sound.paired pidTgid started found).1,
        UInt64.le_trans (sound.paired pidTgid started found).2 ticks.2⟩
    slots := fun cpu => (sound.slots cpu).later ticks.2 }

theorem Sound.enter
    (sound : capture.Sound config) (enabled : config.enabled ≠ 0)
    (ticks : capture.ticks now) :
    (capture.enter config pidTgid now).Sound config := by
  have ticked := sound.tick ticks
  rw [Capture.enter, ironclawSysEnter_eq enabled]
  by_cases taken : admitted config pidTgid = true
  · rw [if_pos taken, if_pos taken]
    constructor
    · intro other started found
      by_cases same : other = pidTgid
      · rw [same] at found ⊢
        dsimp only at found ⊢
        rw [update_self] at found ⊢
        cases found
        exact ⟨rfl, UInt64.le_refl now⟩
      · dsimp only at found ⊢
        rw [update_of_ne same] at found ⊢
        exact ticked.paired other started found
    · exact ticked.slots
    · exact ticked.measured
    · exact ticked.listed
  · rw [if_neg taken, if_neg taken]
    exact ticked

variable {cpu : Fin cpus} {context : SysExit} {room : Bool}

/-- An exit without an entry changes one counter. -/
theorem exit_unpaired (enabled : config.enabled ≠ 0)
    (missing : capture.maps.startTimes pidTgid = none) :
    capture.exit config cpu context pidTgid now room =
      { capture with
        maps := capture.maps.bump cpu .droppedUnpaired
        clock := now
        exits :=
          update capture.exits cpu (capture.exits cpu + 1) } := by
  have same : windowStart (capture.maps.bump cpu .droppedUnpaired) cpu =
      windowStart capture.maps cpu := by
    rw [windowStart, Maps.bump]
    dsimp only
    rw [update_self]
    rfl
  rw [Capture.exit, ironclawSysExit_unpaired enabled missing, same,
    startsAfter, if_pos rfl, update_eq_self]
  simp only [Maps.bump, drop_length, map_nil, append_nil]

/-- All that an exit with an entry changes. -/
theorem exit_paired (enabled : config.enabled ≠ 0) {started : UInt64}
    (found : capture.maps.startTimes pidTgid = some started) :
    ∃ index rate records,
      Outcome config (recordOf context pidTgid now (now - started)) now
          (now - started) (capture.maps.perCpu cpu).rateLimit index rate
          records ∧
        capture.exit config cpu context pidTgid now room =
          { maps :=
              { startTimes := update capture.maps.startTimes pidTgid none
                perCpu := update capture.maps.perCpu cpu
                  ⟨rate,
                    raise (raise (capture.maps.perCpu cpu).stats .observed)
                      index⟩
                events := capture.maps.events ++ records }
            clock := now
            entered := capture.entered
            starts := update capture.starts cpu
              (startsAfter (capture.starts cpu)
                (windowStart capture.maps cpu) rate.windowStartNs.toNat)
            exits := update capture.exits cpu (capture.exits cpu + 1)
            submissions := capture.submissions ++
              records.map (capture.submissionOf cpu pidTgid now
                rate.windowStartNs.toNat) } := by
  rcases @ironclawSysExit_paired cpus config cpu context pidTgid now room
    capture.maps enabled started found with
    ⟨index, rate, records, outcome, equal⟩
  refine ⟨index, rate, records, outcome, ?_⟩
  rw [Capture.exit, equal]
  simp only [windowStart, update_self, drop_left]

theorem Sound.exit_unpaired
    (sound : capture.Sound config) (enabled : config.enabled ≠ 0)
    (ticks : capture.ticks now)
    (missing : capture.maps.startTimes pidTgid = none) :
    (capture.exit config cpu context pidTgid now room).Sound config := by
  have ticked := sound.tick ticks
  rw [Capture.exit_unpaired enabled missing]
  constructor
  · exact ticked.paired
  · intro other
    by_cases same : other = cpu
    · rw [same]
      simp only [Maps.bump, update_self]
      exact (ticked.slots cpu).unpaired
    · simp only [Maps.bump, update_of_ne same]
      exact ticked.slots other
  · exact ticked.measured
  · exact ticked.listed

/-- The windows of a CPU, after records of one window. -/
theorem windows_append
    (submissions : List (Submission cpus)) (records : List Event)
    (window : Nat) (other : Fin cpus) :
    ((submissions ++
          records.map (capture.submissionOf cpu pidTgid now window)).filter
        (·.cpu = other)).map (·.window) =
      (submissions.filter (·.cpu = other)).map (·.window) ++
        if other = cpu then List.replicate records.length window
        else [] := by
  rw [filter_append, map_append, filter_map, map_map]
  congr 1
  by_cases same : other = cpu
  · rw [if_pos same, filter_eq_self.mpr]
    · exact map_const
    · exact fun _ _ => decide_eq_true same.symm
  · rw [if_neg same, filter_eq_nil_iff.mpr]
    · rfl
    · exact fun _ _ here => same (of_decide_eq_true here).symm

section Sound

variable (sound : capture.Sound config) (enabled : config.enabled ≠ 0)
include sound enabled

theorem Sound.exit_paired (ticks : capture.ticks now) {started : UInt64}
    (found : capture.maps.startTimes pidTgid = some started) :
    (capture.exit config cpu context pidTgid now room).Sound config := by
  have ticked := sound.tick ticks
  rcases @Capture.exit_paired cpus config capture pidTgid now cpu context
    room enabled started found with ⟨index, rate, records, outcome, equal⟩
  rcases ticked.paired pidTgid started found with ⟨entered, early⟩
  have latency : started.toNat + (now - started).toNat = now.toNat := by
    rw [UInt64.toNat_sub_of_le now started early]
    exact Nat.add_sub_cancel' (UInt64.le_iff_toNat_le.mp early)
  rw [equal]
  constructor
  · exact fun _ _ found => ticked.paired_removed found
  · intro other
    dsimp only [Capture.windows]
    rw [windows_append]
    by_cases same : other = cpu
    · rw [same, if_pos rfl]
      simp only [update_self]
      have slots := sound.slots cpu
      have recent := (slots.later ticks.2).recent
      exact ⟨slots.counted.observed outcome.mem_outcomes,
        outcome.recent recent, outcome.paced slots.paced recent ticks.1⟩
    · rw [if_neg same, append_nil]
      simp only [update_of_ne same]
      exact ticked.slots other
  · intro submission member
    rcases mem_append.mp member with old | new
    · exact sound.measured submission old
    · rcases mem_map.mp new with ⟨record, submitted, rfl⟩
      have earlier := (ticked.slots cpu).recent
      rcases outcome.submitted_of_mem earlier submitted with
        ⟨rfl, long, window⟩
      exact
        { thread := ⟨rfl, rfl⟩
          timestamp := rfl
          latency := ⟨started, entered, latency⟩
          long := long
          window := window }
  · dsimp only
    rw [map_append, map_map, sound.listed]
    congr 1
    exact map_id _

theorem Sound.exit (ticks : capture.ticks now) :
    (capture.exit config cpu context pidTgid now room).Sound config := by
  cases found : capture.maps.startTimes pidTgid with
  | none => exact sound.exit_unpaired enabled ticks found
  | some started => exact sound.exit_paired enabled ticks found

theorem Sound.step {invocation : Invocation cpus} {after : Capture cpus}
    (step : (machine config cpus).step capture invocation = some after) :
    after.Sound config := by
  cases invocation with
  | enter pidTgid now =>
    rcases Option.ite_none_right_eq_some.mp step with ⟨ticks, equal⟩
    cases equal
    exact sound.enter enabled ticks
  | exit cpu context pidTgid now room =>
    rcases Option.ite_none_right_eq_some.mp step with ⟨ticks, equal⟩
    cases equal
    exact sound.exit enabled ticks
  | evict pidTgid =>
    cases step
    exact sound.evict pidTgid

end Sound

theorem sound_of_reachable (enabled : config.enabled ≠ 0)
    (reachable : (machine config cpus).Reachable capture) :
    capture.Sound config := by
  apply reachable.invariant
  · rintro capture rfl
    exact Sound.loaded
  · intro before invocation after _ sound step
    exact sound.step enabled step

end Capture

/-! ## Accounting -/

/-- What one exit adds to the counters of its CPU: an exit without an entry
counts as that alone, any other as observed and as one outcome. -/
def Bumped (before after : StatIndex → UInt64) : Prop :=
  after = raise before .droppedUnpaired ∨
    ∃ index ∈ outcomes, after = raise (raise before .observed) index

theorem bumped_ironclawSysExit
    {cpus : Nat} {config : Config} (enabled : config.enabled ≠ 0)
    (cpu : Fin cpus) (context : SysExit) (pidTgid now : UInt64)
    (room : Bool) (maps : Maps cpus) :
    let after := ironclawSysExit config cpu context pidTgid now room maps
    Bumped (maps.perCpu cpu).stats (after.perCpu cpu).stats ∧
      ∀ other, other ≠ cpu → after.perCpu other = maps.perCpu other := by
  dsimp only
  cases found : maps.startTimes pidTgid with
  | none =>
    rw [ironclawSysExit_unpaired enabled found, Maps.bump]
    dsimp only
    rw [update_self]
    exact ⟨Or.inl rfl, fun other different => update_of_ne different _ _⟩
  | some started =>
    rcases @ironclawSysExit_paired cpus config cpu context pidTgid now
      room maps enabled started found with
      ⟨index, rate, records, outcome, equal⟩
    rw [equal]
    dsimp only
    rw [update_self]
    exact ⟨Or.inr ⟨index, outcome.mem_outcomes, rfl⟩,
      fun other different => update_of_ne different _ _⟩

/-- In every run the counters of every CPU add up, as words of 64 bits and, up
to 2^64 exits, as numbers; every exit counts as unpaired alone or as observed
with one outcome; no rate window of a CPU has more records than the limit, and
the windows start a second apart; and each record has the time since its thread
last entered, which is no less than the least latency. -/
theorem capture_accounting
    {cpus : Nat} {config : Config} (enabled : config.enabled ≠ 0)
    {capture : Capture cpus}
    (reachable : (Capture.machine config cpus).Reachable capture)
    (cpu : Fin cpus) :
    let stats := (capture.maps.perCpu cpu).stats
    stats .observed =
        stats .emitted + stats .droppedRingbuf + stats .droppedRate +
          stats .droppedFilter ∧
      (capture.exits cpu < 2 ^ 64 → (stats .observed).toNat =
          (stats .emitted).toNat + (stats .droppedRingbuf).toNat +
            (stats .droppedRate).toNat + (stats .droppedFilter).toNat) ∧
      (∀ context pidTgid now room,
        let after := ironclawSysExit config cpu context pidTgid now room
          capture.maps
        Bumped stats (after.perCpu cpu).stats ∧ ∀ other, other ≠ cpu →
            after.perCpu other = capture.maps.perCpu other) ∧
      (config.maxEventsPerCpuPerSecond ≠ 0 →
        ∀ window, (capture.windows cpu).count window ≤
          config.maxEventsPerCpuPerSecond.toNat) ∧
      (∀ window ∈ capture.windows cpu, window ∈ capture.starts cpu) ∧
      ((capture.starts cpu).IsChain fun first second =>
        first + 1000000000 ≤ second) ∧
      capture.submissions.map (·.record) = capture.maps.events ∧
      ∀ submission ∈ capture.submissions,
        submission.Measured config := by
  have sound := Capture.sound_of_reachable enabled reachable
  have slots := sound.slots cpu
  refine ⟨slots.counted.balance, slots.counted.balance_toNat, ?_, ?_,
    slots.paced.opened, slots.paced.spaced, sound.listed,
    sound.measured⟩
  · intro context pidTgid now room
    exact bumped_ironclawSysExit enabled cpu context pidTgid now room _
  · intro limited
    apply (slots.paced.capped _).2.2
    exact fun zero => limited (UInt64.toNat_inj.mp zero)

/-- One record each second, of calls that take five nanoseconds. -/
def busyConfig : Config where
  minLatencyNs := 5
  maxEventsPerCpuPerSecond := 1
  sampleModulus := 0
  targetTgid := 0
  enabled := 1

section

local instance oneCpu : NeZero 1 := ⟨Nat.one_ne_zero⟩

/-- Calls of one thread, with every outcome. -/
def busyCalls : List (Invocation 1) :=
  [.enter 7 10, .exit 0 ⟨0, 0⟩ 7 20 true,
    .enter 7 30, .exit 0 ⟨0, 0⟩ 7 40 true,
    .enter 7 50, .exit 0 ⟨0, 0⟩ 7 52 true,
    .enter 7 60, .evict 7, .exit 0 ⟨0, 0⟩ 7 70 true,
    .enter 7 80, .exit 0 ⟨0, 0⟩ 7 2000000000 false]

end

def busyCapture : Capture 1 :=
  ((Capture.machine busyConfig 1).run (Capture.loaded 1) busyCalls).get
    (by decide)

theorem busy_reachable :
    (Capture.machine busyConfig 1).Reachable busyCapture :=
  (Machine.Reachable.start rfl).run (Option.some_get _).symm

theorem capture_accounting_busy :
    ((busyCapture.maps.perCpu 0).stats .observed = 4 ∧
        (busyCapture.maps.perCpu 0).stats .droppedUnpaired = 1 ∧
          busyCapture.starts 0 = [20, 2000000000]) ∧
      ((busyCapture.maps.perCpu 0).stats .observed).toNat =
        ((busyCapture.maps.perCpu 0).stats .emitted).toNat +
          ((busyCapture.maps.perCpu 0).stats .droppedRingbuf).toNat +
            ((busyCapture.maps.perCpu 0).stats .droppedRate).toNat +
              ((busyCapture.maps.perCpu 0).stats .droppedFilter).toNat ∧
        ∀ submission ∈ busyCapture.submissions,
          submission.Measured busyConfig := by
  have accounts := capture_accounting (by decide) busy_reachable 0
  exact ⟨by decide, accounts.2.1 (by decide),
    accounts.2.2.2.2.2.2.2⟩

end Ironclaw.EBPF
