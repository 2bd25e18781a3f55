import Mathlib.Logic.Function.Basic

/-!
# The kernel program

What `bpf/ironclaw.c` does at the entry and at the exit of a system call.  The
program keeps when each thread entered in one map for all CPUs, and its
counters and the state of its rate limit in maps of which each CPU has its own
slot.  The two programs are functions on these maps.

The helpers of the kernel are arguments: the thread, the clock, the CPU, and
whether the ring buffer has room.  Array maps have every index that the program
looks up, so those lookups do not fail.
-/

namespace Ironclaw.EBPF

/-! ## Maps -/

/-- One record of the ring buffer, without its padding. -/
structure Event where
  timestampNs : UInt64
  latencyNs : UInt64
  ret : Int64
  pid : UInt32
  tgid : UInt32
  syscallNr : Int32
  failed : UInt8
deriving DecidableEq

/-- The configuration that user space loads. -/
structure Config where
  minLatencyNs : UInt64
  maxEventsPerCpuPerSecond : UInt64
  sampleModulus : UInt32
  targetTgid : UInt32
  enabled : UInt8

/-- The current second, and what it has emitted. -/
structure RateState where
  windowStartNs : UInt64
  emitted : UInt64
deriving DecidableEq

/-- The counters of a CPU. -/
inductive StatIndex where
  | observed
  | emitted
  | droppedRingbuf
  | droppedRate
  | droppedFilter
  | droppedUnpaired
deriving DecidableEq

/-- The slots of one CPU. -/
structure PerCpu where
  rateLimit : RateState
  stats : StatIndex → UInt64

/-- The maps of the program; `events` has every record submitted so far. -/
structure Maps (cpus : Nat) where
  startTimes : UInt64 → Option UInt64
  perCpu : Fin cpus → PerCpu
  events : List Event

/-- The maps when the program is loaded. -/
def Maps.loaded (cpus : Nat) : Maps cpus where
  startTimes := fun _ => none
  perCpu := fun _ => ⟨⟨0, 0⟩, fun _ => 0⟩
  events := []

/-- What the tracepoint of an exit passes. -/
structure SysExit where
  id : Int64
  ret : Int64

def maxErrno : Int64 := 4095

def nanosPerSecond : UInt64 := 1000000000

/-! ## Programs -/

section Programs

variable {cpus : Nat} (config : Config)

/-- The counters with one of them raised. -/
def raise (stats : StatIndex → UInt64) (index : StatIndex) :
    StatIndex → UInt64 :=
  Function.update stats index (stats index + 1)

def PerCpu.bump (slots : PerCpu) (index : StatIndex) : PerCpu :=
  { slots with stats := raise slots.stats index }

def Maps.bump
    (maps : Maps cpus) (cpu : Fin cpus) (index : StatIndex) : Maps cpus :=
  { maps with
    perCpu := Function.update maps.perCpu cpu
      ((maps.perCpu cpu).bump index) }

def Maps.setRate
    (maps : Maps cpus) (cpu : Fin cpus) (rate : RateState) : Maps cpus :=
  { maps with
    perCpu := Function.update maps.perCpu cpu
      { maps.perCpu cpu with rateLimit := rate } }

def sampledOut (tgid : UInt32) : Bool :=
  if config.sampleModulus ≤ 1 then false
  else tgid % config.sampleModulus ≠ 0

/-- Whether the record is over the limit, and the state that is left. -/
def rateLimited (now : UInt64) (state : RateState) : Bool × RateState :=
  -- a state that was never used, or a window of a second that is over
  let state :=
    if state.windowStartNs = 0 ∨
        now - state.windowStartNs ≥ nanosPerSecond then
      ⟨now, 0⟩
    else state
  if config.maxEventsPerCpuPerSecond ≠ 0 ∧
      state.emitted ≥ config.maxEventsPerCpuPerSecond then
    (true, state)
  else (false, { state with emitted := state.emitted + 1 })

def tgidOf (pidTgid : UInt64) : UInt32 := (pidTgid >>> 32).toUInt32

/-- The entry probe notes when a sampled thread enters. -/
def ironclawSysEnter
    (pidTgid now : UInt64) (maps : Maps cpus) : Maps cpus :=
  if config.enabled = 0 then maps
  else
    let tgid := tgidOf pidTgid
    if config.targetTgid ≠ 0 ∧ tgid ≠ config.targetTgid then maps
    else if sampledOut config tgid then maps
    else
      { maps with
        startTimes := Function.update maps.startTimes pidTgid (some now) }

/-- The record of an exit. -/
def recordOf
    (context : SysExit) (pidTgid now latency : UInt64) : Event where
  timestampNs := now
  latencyNs := latency
  ret := context.ret
  pid := pidTgid.toUInt32
  tgid := tgidOf pidTgid
  syscallNr := context.id.toInt32
  failed := if context.ret < 0 ∧ context.ret ≥ -maxErrno then 1 else 0

/-- The exit of a system call; `room` tells whether `bpf_ringbuf_reserve` gives
a record. -/
def ironclawSysExit
    (cpu : Fin cpus) (context : SysExit) (pidTgid now : UInt64)
    (room : Bool) (maps : Maps cpus) : Maps cpus :=
  if config.enabled = 0 then maps
  else
    match maps.startTimes pidTgid with
    | none => maps.bump cpu .droppedUnpaired
    | some started =>
      let latency := now - started
      let maps :=
        { maps with
          startTimes := Function.update maps.startTimes pidTgid none }
      let maps := maps.bump cpu .observed
      if latency < config.minLatencyNs then
        maps.bump cpu .droppedFilter
      else
        let (limited, rate) :=
          rateLimited config now (maps.perCpu cpu).rateLimit
        let maps := maps.setRate cpu rate
        if limited then maps.bump cpu .droppedRate
        else if ¬room then maps.bump cpu .droppedRingbuf
        else
          let maps :=
            { maps with
              events := maps.events ++
                [recordOf context pidTgid now latency] }
          maps.bump cpu .emitted

end Programs

end Ironclaw.EBPF
