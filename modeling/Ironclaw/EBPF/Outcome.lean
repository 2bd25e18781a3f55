import Ironclaw.EBPF.Program
import Ironclaw.Lib.Window
import Mathlib.Data.UInt

/-!
# What becomes of an exit

An exit of a thread whose entry is not kept is counted as unpaired and nothing
else.  Any other exit is counted as observed, and once more under the one thing
that becomes of it: it is too short, over the rate limit, without room in the
ring buffer, or submitted.  `Outcome` lists these, each with the state that the
rate limit has after it.

The rate limit keeps the pace of its windows, and the counters add up.
-/

namespace Ironclaw.EBPF

open Lib List Function UInt64

variable {stats : StatIndex → UInt64} {exits : Nat}

/-! ## One invocation -/

section Invocation

variable {cpus : Nat} {config : Config}

/-- What becomes of an exit with an entry: the counter that tells it, the
state of the rate limit after it, and what is submitted. -/
inductive Outcome
    (config : Config) (record : Event) (now latency : UInt64)
    (rate : RateState) : StatIndex → RateState → List Event → Prop where
  | filtered
      (short : latency < config.minLatencyNs) :
      Outcome config record now latency rate .droppedFilter rate []
  | limited {after : RateState}
      (full : rateLimited config now rate = (true, after)) :
      Outcome config record now latency rate .droppedRate after []
  | unreserved {after : RateState}
      (free : rateLimited config now rate = (false, after)) :
      Outcome config record now latency rate .droppedRingbuf after []
  | submitted {after : RateState}
      (long : config.minLatencyNs ≤ latency)
      (free : rateLimited config now rate = (false, after)) :
      Outcome config record now latency rate .emitted after [record]

/-- The counters of what becomes of an observed exit. -/
def outcomes : List StatIndex :=
  [.emitted, .droppedRingbuf, .droppedRate, .droppedFilter]

theorem Outcome.mem_outcomes
    {record : Event} {now latency : UInt64} {rate after : RateState}
    {index : StatIndex} {records : List Event}
    (outcome : Outcome config record now latency rate index after records) :
    index ∈ outcomes := by
  cases outcome <;> decide

variable
  {cpu : Fin cpus} {context : SysExit} {pidTgid now : UInt64} {room : Bool}
  {maps : Maps cpus}

theorem ironclawSysExit_unpaired (enabled : config.enabled ≠ 0)
    (missing : maps.startTimes pidTgid = none) :
    ironclawSysExit config cpu context pidTgid now room maps =
      maps.bump cpu .droppedUnpaired := by
  rw [ironclawSysExit, if_neg enabled, missing]

/-- All that an exit with an entry does. -/
theorem ironclawSysExit_paired (enabled : config.enabled ≠ 0)
    {started : UInt64} (found : maps.startTimes pidTgid = some started) :
    ∃ index rate records,
      Outcome config (recordOf context pidTgid now (now - started)) now
          (now - started) (maps.perCpu cpu).rateLimit index rate records ∧
        ironclawSysExit config cpu context pidTgid now room maps =
          { startTimes := update maps.startTimes pidTgid none
            perCpu := update maps.perCpu cpu
              ⟨rate, raise (raise (maps.perCpu cpu).stats .observed) index⟩
            events := maps.events ++ records } := by
  rw [ironclawSysExit, if_neg enabled, found]
  dsimp only [Maps.bump, Maps.setRate, PerCpu.bump]
  simp only [update_self, update_idem]
  by_cases short : now - started < config.minLatencyNs
  · rw [if_pos short]
    exact ⟨_, _, _, .filtered short, by rw [append_nil]⟩
  · rw [if_neg short]
    have long := UInt64.not_lt.mp short
    rcases limit : rateLimited config now (maps.perCpu cpu).rateLimit with
      ⟨limited, rate⟩
    cases limited with
    | true => exact ⟨_, _, _, .limited limit, by simp⟩
    | false =>
      cases room with
      | false => exact ⟨_, _, _, .unreserved limit, by simp⟩
      | true => exact ⟨_, _, _, .submitted long limit, by simp⟩

end Invocation

/-! ## Rate windows -/

section Rate

variable {config : Config} {now : UInt64} {rate : RateState}

theorem window_due_iff (earlier : rate.windowStartNs ≤ now) :
    (rate.windowStartNs = 0 ∨ now - rate.windowStartNs ≥ nanosPerSecond) ↔
      rate.windowStartNs.toNat = 0 ∨
        rate.windowStartNs.toNat + 1000000000 ≤ now.toNat := by
  have order := UInt64.le_iff_toNat_le.mp earlier
  have second : nanosPerSecond.toNat = 1000000000 := rfl
  rw [ge_iff_le, UInt64.le_iff_toNat_le,
    UInt64.toNat_sub_of_le now _ earlier, second, ← UInt64.toNat_inj,
    UInt64.toNat_zero]
  omega

/-- The limit: a new window is used once; one that is full stays as it is; any
other is used once more. -/
theorem rateLimited_cases (earlier : rate.windowStartNs ≤ now) :
    (rate.windowStartNs.toNat = 0 ∨
        rate.windowStartNs.toNat + 1000000000 ≤ now.toNat) ∧
        rateLimited config now rate = (false, ⟨now, 1⟩) ∨
      (rate.windowStartNs.toNat ≠ 0 ∧
          now.toNat < rate.windowStartNs.toNat + 1000000000) ∧
        (rateLimited config now rate = (true, rate) ∨
          (config.maxEventsPerCpuPerSecond ≠ 0 →
              rate.emitted < config.maxEventsPerCpuPerSecond) ∧
            rateLimited config now rate =
              (false, ⟨rate.windowStartNs, rate.emitted + 1⟩)) := by
  by_cases due : rate.windowStartNs = 0 ∨
      now - rate.windowStartNs ≥ nanosPerSecond
  · refine Or.inl ⟨(window_due_iff earlier).mp due, ?_⟩
    have unused : ¬(config.maxEventsPerCpuPerSecond ≠ 0 ∧
        (0 : UInt64) ≥ config.maxEventsPerCpuPerSecond) := by
      rintro ⟨limited, none⟩
      exact limited (UInt64.le_zero_iff.mp none)
    rw [rateLimited, if_pos due, if_neg unused, UInt64.zero_add]
  · have running := (not_congr (window_due_iff earlier)).mp due
    refine Or.inr ⟨by omega, ?_⟩
    rw [rateLimited, if_neg due]
    by_cases full : config.maxEventsPerCpuPerSecond ≠ 0 ∧
        rate.emitted ≥ config.maxEventsPerCpuPerSecond
    · exact Or.inl (if_pos full)
    · refine Or.inr ⟨?_, if_neg full⟩
      intro limited
      exact UInt64.not_le.mp fun reached => full ⟨limited, reached⟩

variable {limited : Bool} {after : RateState}

/-- The time lies in the window that is left. -/
theorem rateLimited_inside (earlier : rate.windowStartNs ≤ now)
    (limit : rateLimited config now rate = (limited, after)) :
    after.windowStartNs ≤ now ∧
      now.toNat < after.windowStartNs.toNat + 1000000000 := by
  rcases rateLimited_cases earlier with
    ⟨_, fresh⟩ | ⟨inside, full | ⟨_, again⟩⟩
  · rw [fresh] at limit
    cases limit
    exact ⟨UInt64.le_refl now, by simp⟩
  · rw [full] at limit
    cases limit
    exact ⟨earlier, inside.2⟩
  · rw [again] at limit
    cases limit
    exact ⟨earlier, inside.2⟩

/-- The starts of the windows, with one more if there is a new one. -/
def startsAfter (starts : List Nat) (before after : Nat) : List Nat :=
  if after = before then starts else starts ++ [after]

/-- The limit keeps the pace; what it lets through may still be given up. -/
theorem rateLimited_paced {starts uses : List Nat}
    (paced : Window.Paced 1000000000 config.maxEventsPerCpuPerSecond.toNat
        rate.windowStartNs.toNat rate.emitted.toNat starts uses)
    (earlier : rate.windowStartNs ≤ now) (nonzero : now ≠ 0)
    (limit : rateLimited config now rate = (limited, after)) {amount : Nat}
    (single : amount ≤ 1) (stopped : limited = true → amount = 0) :
    Window.Paced 1000000000 config.maxEventsPerCpuPerSecond.toNat
      after.windowStartNs.toNat after.emitted.toNat
      (startsAfter starts rate.windowStartNs.toNat after.windowStartNs.toNat)
      (uses ++ List.replicate amount after.windowStartNs.toNat) := by
  have positive : now.toNat ≠ 0 := fun zero =>
    nonzero (UInt64.toNat_inj.mp zero)
  rcases rateLimited_cases earlier with
    ⟨due, fresh⟩ | ⟨inside, full | ⟨room, again⟩⟩
  · rw [fresh] at limit
    cases limit
    rw [startsAfter, if_neg (by dsimp only; omega)]
    exact paced.next (by decide) due positive single
  · rw [full] at limit
    cases limit
    rw [startsAfter, if_pos rfl, stopped rfl, replicate_zero, append_nil]
    exact paced
  · rw [again] at limit
    cases limit
    rw [startsAfter, if_pos rfl]
    apply paced.again inside.1 _ single
    intro limited
    have free := lt_iff_toNat_lt.mp
      (room fun zero => limited (congrArg UInt64.toNat zero))
    have bound := config.maxEventsPerCpuPerSecond.toNat_lt
    refine ⟨free, ?_⟩
    rw [UInt64.toNat_add, UInt64.toNat_one, Nat.mod_eq_of_lt (by omega)]

variable {record : Event} {latency : UInt64} {index : StatIndex}
variable {records : List Event}

section Outcome

variable (outcome : Outcome config record now latency rate index after records)
include outcome

theorem Outcome.recent (earlier : rate.windowStartNs ≤ now) :
    after.windowStartNs ≤ now := by
  cases outcome with
  | filtered _ => exact earlier
  | limited limit => exact (rateLimited_inside earlier limit).1
  | unreserved limit => exact (rateLimited_inside earlier limit).1
  | submitted _ limit => exact (rateLimited_inside earlier limit).1

theorem Outcome.submitted_of_mem (earlier : rate.windowStartNs ≤ now)
    {submitted : Event} (member : submitted ∈ records) :
    submitted = record ∧ config.minLatencyNs ≤ latency ∧
      after.windowStartNs.toNat ≤ now.toNat ∧
        now.toNat < after.windowStartNs.toNat + 1000000000 := by
  cases outcome with
  | filtered | limited | unreserved => exact absurd member not_mem_nil
  | submitted long limit =>
    rcases rateLimited_inside earlier limit with ⟨lower, upper⟩
    exact ⟨mem_singleton.mp member, long, le_iff_toNat_le.mp lower, upper⟩

/-- Whatever becomes of an exit, its CPU keeps the pace. -/
theorem Outcome.paced {starts uses : List Nat}
    (paced : Window.Paced 1000000000 config.maxEventsPerCpuPerSecond.toNat
        rate.windowStartNs.toNat rate.emitted.toNat starts uses)
    (earlier : rate.windowStartNs ≤ now) (nonzero : now ≠ 0) :
    Window.Paced 1000000000 config.maxEventsPerCpuPerSecond.toNat
      after.windowStartNs.toNat after.emitted.toNat
      (startsAfter starts rate.windowStartNs.toNat after.windowStartNs.toNat)
      (uses ++ List.replicate records.length after.windowStartNs.toNat) := by
  cases outcome with
  | filtered _ =>
    rw [startsAfter, if_pos rfl, length_nil, replicate_zero, append_nil]
    exact paced
  | limited limit | unreserved limit =>
    exact rateLimited_paced paced earlier nonzero limit zero_le_one
      fun _ => rfl
  | submitted _ limit =>
    exact rateLimited_paced paced earlier nonzero limit le_rfl
      fun stop => Bool.noConfusion stop

end Outcome

end Rate

/-! ## Counters -/

/-- The counters hold numbers that add up to the exits of their CPU. -/
def Counted (stats : StatIndex → UInt64) (exits : Nat) : Prop :=
  ∃ counts : StatIndex → Nat,
    (∀ index, stats index = UInt64.ofNat (counts index)) ∧
      counts .observed = (outcomes.map counts).sum ∧
        counts .observed + counts .droppedUnpaired = exits

theorem raise_ofNat {counts : StatIndex → Nat}
    (counted : ∀ index, stats index = UInt64.ofNat (counts index))
    (raised : StatIndex) (index : StatIndex) :
    raise stats raised index = UInt64.ofNat
      (update counts raised (counts raised + 1) index) := by
  by_cases same : index = raised
  · rw [same, raise, update_self, update_self,
      ofNat_add, ← counted]
    rfl
  · rw [raise, update_of_ne same, update_of_ne same, counted]

section Counted

variable (counted : Counted stats exits)
include counted

theorem Counted.unpaired :
    Counted (raise stats .droppedUnpaired) (exits + 1) := by
  rcases counted with ⟨counts, values, sum, total⟩
  refine ⟨_, raise_ofNat values _, ?_, ?_⟩
  · simpa [outcomes] using sum
  · simp only [update_self, ne_eq, reduceCtorEq,
      not_false_eq_true, update_of_ne]
    omega

theorem Counted.observed {index : StatIndex} (outcome : index ∈ outcomes) :
    Counted (raise (raise stats .observed) index) (exits + 1) := by
  rcases counted with ⟨counts, values, sum, total⟩
  refine ⟨_, raise_ofNat (raise_ofNat values _) _, ?_⟩
  simp only [outcomes, map_cons, map_nil, sum_cons, sum_nil] at sum ⊢
  simp only [outcomes, mem_cons, not_mem_nil, or_false] at outcome
  rcases outcome with rfl | rfl | rfl | rfl
  all_goals
    simp only [update_self, ne_eq, reduceCtorEq,
      not_false_eq_true, update_of_ne]
    omega

theorem Counted.balance : stats .observed =
      stats .emitted + stats .droppedRingbuf + stats .droppedRate +
        stats .droppedFilter := by
  rcases counted with ⟨counts, values, sum, _⟩
  simp only [outcomes, map_cons, map_nil, sum_cons, sum_nil] at sum
  simp only [values, ← ofNat_add]
  congr 1
  omega

theorem Counted.balance_toNat (few : exits < 2 ^ 64) :
    (stats .observed).toNat =
      (stats .emitted).toNat + (stats .droppedRingbuf).toNat +
        (stats .droppedRate).toNat + (stats .droppedFilter).toNat := by
  rcases counted with ⟨counts, values, sum, total⟩
  simp only [outcomes, map_cons, map_nil, sum_cons, sum_nil] at sum
  simp only [values, UInt64.toNat_ofNat']
  omega

end Counted

end Ironclaw.EBPF
