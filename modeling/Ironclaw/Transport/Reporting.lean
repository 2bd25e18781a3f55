import Ironclaw.Lib.Slots
import Ironclaw.Transport.Custody
import Mathlib.Algebra.Order.BigOperators.Group.Finset

/-!
# How the drops of the spool are reported

A `Send` that has spooled its batch reads the drop counter of the spool, then
exchanges it under the lock for the count that was reported last, and then
adds the difference to `agent_spool_dropped` if it is positive.  The counter
is read before the lock is taken, so a reading may be applied after a later
one: the count that was reported last then falls, and the same drops are
reported twice.

As long as no reading is applied after a greater one, the differences
telescope: what is reported, together with what calls have still to report,
is the count of the last exchange.
-/

namespace Ironclaw.Transport

open Lib Domain Disk List Option Int64 Slots Agent Metrics HTTPS

variable {maxBytes : Int64} {recorded : Bool} {call : SendCall}

/-! ## The monitored agent -/

/-- An agent, and the drop count that a call read last. -/
structure Reporting where
  agent : Agent
  /-- Zero before the first reading. -/
  lastRead : Int64

/-- The drop count that a move reads. -/
def Agent.reads (agent : Agent) (lastRead : Int64) : Move → Int64
  | .readDropped _ =>
    match agent.https.queue with
    | some spool => spool.dropped
    | none => lastRead
  | _ => lastRead

def Reporting.step (reporting : Reporting) (move : Move) :
    Option Reporting :=
  (reporting.agent.step move).map fun after =>
    ⟨after, reporting.agent.reads reporting.lastRead move⟩

def reportingMachine (maxBytes : Int64) (recorded : Bool) :
    Machine Reporting Move where
  initial reporting := reporting.agent.Opened maxBytes recorded ∧
    reporting.lastRead = 0
  step := Reporting.step

/-- A move that applies no reading after a greater one. -/
def Reporting.InOrder (reporting : Reporting) (move : Move) : Prop :=
  ∀ id payload enqueued dropped, move = .swapDropped id →
    reporting.agent.calls[id]? = some ⟨payload, .swapping enqueued dropped⟩ →
      reporting.agent.https.lastDropped ≤ dropped

theorem reporting_agent_reachable {reporting : Reporting}
    (reachable : (reportingMachine maxBytes recorded).Reachable reporting) :
    (agentMachine maxBytes recorded).Reachable reporting.agent := by
  apply reachable.invariant
  · rintro reporting ⟨opened, -⟩
    exact Machine.Reachable.start opened
  · intro before move after _ earlier step
    obtain ⟨agent, moved, rfl⟩ := map_eq_some_iff.mp step
    exact earlier.next moved

/-! ## The invariant -/

/-- A phase without a reading to apply or a difference to report. -/
def Phase.quiet : Phase → Bool
  | .swapping _ _ | .reporting _ _ => false
  | _ => true

/-- What a call has still to report. -/
def SendCall.due (call : SendCall) : Int :=
  match call.phase with
  | .reporting _ delta => delta.toInt
  | _ => 0

/-- A reading is at most the last one; a report is not negative. -/
def SendCall.Bounded (lastRead : Int64) (call : SendCall) : Prop :=
  match call.phase with
  | .swapping _ dropped => dropped.toInt ≤ lastRead.toInt
  | .reporting _ delta => 0 ≤ delta.toInt
  | _ => True

def Agent.due (agent : Agent) : Int :=
  Slots.total (fun _ => SendCall.due) agent.calls

/-- What was reported, with what is due, is the count exchanged last. -/
def Agent.Reported (agent : Agent) (value : Int64) : Prop :=
  0 ≤ value.toInt ∧ value.toInt + agent.due = agent.https.lastDropped.toInt

/-- Reports add up to the last reading. -/
structure Telescopes (agent : Agent) (lastRead : Int64) : Prop where
  read_le : lastRead.toInt ≤ agent.dropped.length
  last_le : agent.https.lastDropped.toInt ≤ lastRead.toInt
  last_nonneg : 0 ≤ agent.https.lastDropped.toInt
  calls : ∀ call ∈ agent.calls, call.Bounded lastRead
  /-- The last reading is applied, or a call is about to apply it. -/
  applied : agent.https.lastDropped = lastRead ∨
    ∃ (id : Nat) (payload : Payload) (enqueued : Option Fault),
      agent.calls[id]? = some ⟨payload, .swapping enqueued lastRead⟩
  reported : ∀ metrics, agent.https.metrics = some metrics →
    agent.Reported (value metrics metricSpoolDropped)

theorem due_of_quiet (quiet : call.phase.quiet = true) : call.due = 0 := by
  rcases call with ⟨payload, phase⟩
  cases phase <;> first | rfl | cases quiet

theorem bounded_of_quiet
    (lastRead : Int64) (quiet : call.phase.quiet = true) :
    call.Bounded lastRead := by
  rcases call with ⟨payload, phase⟩
  cases phase <;> trivial

theorem due_nonneg {lastRead : Int64} (bounded : call.Bounded lastRead) :
    0 ≤ call.due := by
  rcases call with ⟨payload, phase⟩
  cases phase <;> first | exact bounded | exact le_refl 0

theorem SendCall.Bounded.mono
    {lastRead later : Int64} (bounded : call.Bounded lastRead)
    (after : lastRead.toInt ≤ later.toInt) : call.Bounded later := by
  rcases call with ⟨payload, phase⟩
  cases phase <;> first | exact bounded | exact bounded.trans after

theorem total_due_nonneg {lastRead : Int64} {calls : List SendCall}
    (bounded : ∀ call ∈ calls, call.Bounded lastRead) :
    0 ≤ total (fun _ => SendCall.due) calls := by
  rw [total_eq_sum]
  apply Finset.sum_nonneg
  intro index _
  exact due_nonneg (bounded _ (get_mem _ _))

variable {id : Nat}

theorem exists_swapping_advance
    {calls : List SendCall} {payload : Payload} {old : Phase}
    {count : Int64} (found : calls[id]? = some ⟨payload, old⟩)
    (phase : Phase) (different : ∀ enqueued, old ≠ .swapping enqueued count)
    (waits : ∃ (other : Nat) (payload : Payload)
      (enqueued : Option Fault), calls[other]? =
        some ⟨payload, .swapping enqueued count⟩) :
    ∃ (other : Nat) (otherPayload : Payload) (enqueued : Option Fault),
      (calls.set id ⟨payload, phase⟩)[other]? =
        some ⟨otherPayload, .swapping enqueued count⟩ := by
  obtain ⟨other, otherPayload, enqueued, waiting⟩ := waits
  refine ⟨other, otherPayload, enqueued, ?_⟩
  rw [getElem?_set _ found, if_neg]
  · exact waiting
  · rintro rfl
    rw [found] at waiting
    cases waiting
    exact different enqueued rfl

/-! ## Moves -/

/-- The end of a post touches other counters only. -/
theorem settle_reported {https : HTTPS} {holds : Int64 → Prop}
    (known : ∀ metrics, https.metrics = some metrics →
      holds (value metrics metricSpoolDropped))
    (posted : Option Fault) :
    (https.settle posted).1.lastDropped = https.lastDropped ∧
      ∀ metrics, (https.settle posted).1.metrics = some metrics →
        holds (value metrics metricSpoolDropped) := by
  cases posted with
  | none => exact ⟨rfl, forall_record (by decide) known⟩
  | some fault =>
    rw [settle]
    split
    · exact ⟨rfl, forall_record (by decide) known⟩
    · split
      · exact ⟨rfl, known⟩
      · exact ⟨rfl, forall_record (by decide) known⟩

/-- So does the end of a turn of `Drain`. -/
theorem settleRelease_reported {https : HTTPS} {holds : Int64 → Prop}
    (known : ∀ metrics, https.metrics = some metrics →
      holds (value metrics metricSpoolDropped))
    (turn : HTTPS.Turn) (released : Option Fault) :
    (https.settleRelease turn released).lastDropped = https.lastDropped ∧
      ∀ metrics, (https.settleRelease turn released).metrics = some metrics →
          holds (value metrics metricSpoolDropped) := by
  have noted : ∀ metrics, (if released.isSome then
      https.record metricReleaseFailed 1 else https).metrics = some metrics →
      holds (value metrics metricSpoolDropped) := by
    split
    · exact forall_record (by decide) known
    · exact known
  have last : (if released.isSome then
      https.record metricReleaseFailed 1 else https).lastDropped =
        https.lastDropped := by
    split <;> rfl
  cases turn with
  | drained | refused => exact ⟨last, forall_record (by decide) noted⟩
  | stopped | idle | retry => exact ⟨last, noted⟩

theorem lastDropped_reportDropped (delta : Int64) (https : HTTPS) :
    (https.reportDropped delta).lastDropped = https.lastDropped := by
  rw [HTTPS.reportDropped]
  split <;> rfl

namespace Telescopes

section Moves

variable {agent after : Agent} {lastRead : Int64}
variable {verdicts : List FsVerdict} {spool : Spool}

section Telescopes

variable (telescopes : Telescopes agent lastRead)
include telescopes

/-- A change of the rest of the agent. -/
theorem frame (calls : after.calls = agent.calls)
    (dropped : agent.dropped.length ≤ after.dropped.length)
    (last : after.https.lastDropped = agent.https.lastDropped)
    (reported : ∀ metrics, after.https.metrics = some metrics →
      agent.Reported (value metrics metricSpoolDropped)) :
    Telescopes after lastRead where
  read_le := by
    have before := telescopes.read_le
    omega
  last_le := by
    rw [last]
    exact telescopes.last_le
  last_nonneg := by
    rw [last]
    exact telescopes.last_nonneg
  calls := by
    rw [calls]
    exact telescopes.calls
  applied := by
    rw [calls, last]
    exact telescopes.applied
  reported := by
    intro metrics present
    have known := reported metrics present
    rwa [Agent.Reported, due, ← calls, ← last] at known

/-- A call goes from one quiet phase to another. -/
theorem advance {payload : Payload} {old : Phase}
    (found : agent.calls[id]? = some ⟨payload, old⟩) (phase : Phase)
    (oldQuiet : old.quiet = true) (quiet : phase.quiet = true) :
    Telescopes { agent with calls := agent.calls.set id ⟨payload, phase⟩ }
      lastRead :=
  { telescopes with
    calls := by
      intro call member
      rcases mem_or_eq_of_mem_set member with old | new
      · exact telescopes.calls call old
      · rw [new]
        exact bounded_of_quiet lastRead quiet
    applied := by
      rcases telescopes.applied with applied | waits
      · exact Or.inl applied
      · refine Or.inr (exists_swapping_advance found phase ?_ waits)
        rintro enqueued rfl
        cases oldQuiet
    reported := by
      intro metrics present
      have same : total (fun _ => SendCall.due)
          (agent.calls.set id ⟨payload, phase⟩) = agent.due := by
        apply total_set_same _ found
        exact (due_of_quiet quiet).trans (due_of_quiet oldQuiet).symm
      have known := telescopes.reported metrics present
      rwa [Agent.Reported, ← same] at known }

/-- A new call that is quiet. -/
theorem append (call : SendCall) (quiet : call.phase.quiet = true) :
    Telescopes { agent with calls := agent.calls ++ [call] }
      lastRead :=
  { telescopes with
    calls := forall_mem_concat telescopes.calls
      (bounded_of_quiet lastRead quiet)
    applied := by
      rcases telescopes.applied with applied | waits
      · exact Or.inl applied
      · obtain ⟨id, payload, enqueued, waiting⟩ := waits
        refine Or.inr ⟨id, payload, enqueued, ?_⟩
        have inside := (List.getElem?_eq_some_iff.mp waiting).1
        exact (List.getElem?_append_left inside).trans waiting
    reported := by
      intro metrics present
      have same : total (fun _ => SendCall.due)
          (agent.calls ++ [call]) = agent.due := by
        rw [total_append, due_of_quiet quiet, add_zero, due]
      have known := telescopes.reported metrics present
      rwa [Agent.Reported, ← same] at known }

theorem send (encoded : Except Fault Payload) :
    Telescopes (agent.send encoded) lastRead := by
  cases encoded with
  | ok | error => exact telescopes.append _ rfl

end Telescopes

theorem quiet_settled (settled : HTTPS.Sending) : (match settled with
      | .returned fault => Phase.returned fault
      | .spooling => .spooling).quiet = true := by
  cases settled <;> rfl

section Telescopes

variable (telescopes : Telescopes agent lastRead)
include telescopes

theorem answer {reply : Reply} (step : agent.answer id reply = some after) :
    Telescopes after lastRead := by
  rw [Agent.answer] at step
  split at step
  · rename_i payload found
    cases step
    have advanced := telescopes.advance found _ rfl
      (quiet_settled (agent.https.settle (post reply)).2)
    have settled := settle_reported advanced.reported (post reply)
    exact advanced.frame rfl (le_refl _) settled.1 settled.2
  · cases step

theorem enqueue (step : agent.enqueue id verdicts = some after) :
    Telescopes after lastRead := by
  rw [Agent.enqueue] at step
  split at step
  · rename_i payload spool found configured
    split at step
    · rename_i directory result fault unused ran
      cases step
      have advanced := telescopes.advance found (.reading fault) rfl rfl
      refine advanced.frame rfl ?_ rfl advanced.reported
      rw [length_append]
      exact Nat.le_add_right _ _
    · cases step
  · cases step

/-- A reading is the last one, and it is to be applied. -/
theorem readDropped (configured : agent.https.queue = some spool)
    (counts : spool.dropped.toInt = agent.dropped.length)
    (step : agent.readDropped id = some after) :
    Telescopes after spool.dropped := by
  rw [Agent.readDropped, configured] at step
  split at step
  · rename_i payload enqueued current found same
    cases same
    cases step
    have later : lastRead.toInt ≤ spool.dropped.toInt := by
      rw [counts]
      exact telescopes.read_le
    refine ⟨le_of_eq counts, telescopes.last_le.trans later,
      telescopes.last_nonneg, ?_, Or.inr ?_, ?_⟩
    · intro call member
      rcases mem_or_eq_of_mem_set member with old | new
      · exact (telescopes.calls call old).mono later
      · rw [new]
        exact le_refl _
    · refine ⟨id, payload, enqueued, ?_⟩
      exact (getElem?_set _ found id).trans (if_pos rfl)
    · intro metrics present
      have same : total (fun _ => SendCall.due)
          (agent.calls.set id ⟨payload, .swapping enqueued spool.dropped⟩) =
            agent.due :=
        total_set_same _ found rfl
      have known := telescopes.reported metrics present
      rwa [Agent.Reported, ← same] at known
  · cases step

/-- A reading that is not before the one applied last is applied. -/
theorem swapDropped
    (inOrder : ∀ payload enqueued dropped, agent.calls[id]? =
      some ⟨payload, .swapping enqueued dropped⟩ →
        agent.https.lastDropped.toInt ≤ dropped.toInt)
    (step : agent.swapDropped id = some after) :
    Telescopes after lastRead := by
  rw [Agent.swapDropped] at step
  split at step
  · rename_i payload enqueued dropped found
    cases step
    have ordered := inOrder payload enqueued dropped found
    have nonneg := telescopes.last_nonneg
    have bounded : dropped.toInt ≤ lastRead.toInt :=
      telescopes.calls _ (mem_of_getElem? found)
    have delta : (dropped - agent.https.lastDropped).toInt =
        dropped.toInt - agent.https.lastDropped.toInt := by
      have most := toInt_lt dropped
      apply Word.toInt_sub <;> omega
    refine ⟨telescopes.read_le, bounded, nonneg.trans ordered, ?_, ?_, ?_⟩
    · intro call member
      rcases mem_or_eq_of_mem_set member with old | new
      · exact telescopes.calls call old
      · rw [new]
        change 0 ≤ (dropped - agent.https.lastDropped).toInt
        omega
    · by_cases last : dropped = lastRead
      · exact Or.inl last
      -- Another call waits with the last reading.
      rcases telescopes.applied with applied | waits
      · rw [applied] at ordered
        exact absurd (toInt_inj.mp (le_antisymm bounded ordered)) last
      · refine Or.inr (exists_swapping_advance found _ ?_ waits)
        rintro other ⟨⟩
        exact last rfl
    · intro metrics present
      obtain ⟨valueNonneg, sum⟩ := telescopes.reported metrics present
      refine ⟨valueNonneg, ?_⟩
      have exchanged := total_set (fun _ => SendCall.due)
        ⟨payload, .reporting enqueued
          (dropped - agent.https.lastDropped)⟩ found
      simp only [SendCall.due, delta] at exchanged
      simp only [due, HTTPS.swapDropped] at sum ⊢
      omega
  · cases step

/-- What is due to one call moves into the counter. -/
theorem reported_reportDropped {delta : Int64} {due : Int} {metrics : Metrics}
    (nonneg : 0 ≤ delta.toInt) (dueNonneg : 0 ≤ due)
    (exchanged : due + delta.toInt = agent.due)
    (present : (agent.https.reportDropped delta).metrics = some metrics) :
    0 ≤ (value metrics metricSpoolDropped).toInt ∧
      (value metrics metricSpoolDropped).toInt + due =
        agent.https.lastDropped.toInt := by
  rw [HTTPS.reportDropped] at present
  split at present
  · obtain ⟨old, known, rfl⟩ := map_eq_some_iff.mp present
    obtain ⟨valueNonneg, sum⟩ := telescopes.reported old known
    have most := toInt_lt agent.https.lastDropped
    have added : (value old metricSpoolDropped + delta).toInt =
        (value old metricSpoolDropped).toInt + delta.toInt := by
      apply Word.toInt_add <;> omega
    rw [value_increment_self, added]
    omega
  · rename_i zero
    obtain ⟨valueNonneg, sum⟩ := telescopes.reported metrics present
    rw [lt_iff_toInt_lt] at zero
    have nothing : (0 : Int64).toInt = 0 := rfl
    omega

/-- A difference is reported, unless it is zero. -/
theorem reportDropped (step : agent.reportDropped id = some after) :
    Telescopes after lastRead := by
  rw [Agent.reportDropped] at step
  split at step
  · rename_i payload enqueued delta found
    cases step
    have exchanged := total_set (fun _ => SendCall.due)
      ⟨payload, .returned enqueued⟩ found
    have bounded : 0 ≤ delta.toInt :=
      telescopes.calls _ (mem_of_getElem? found)
    simp only [SendCall.due, add_zero] at exchanged
    have calls : ∀ call ∈ agent.calls.set id
        ⟨payload, .returned enqueued⟩, call.Bounded lastRead := by
      intro call member
      rcases mem_or_eq_of_mem_set member with old | new
      · exact telescopes.calls call old
      · rw [new]
        trivial
    refine ⟨telescopes.read_le, ?_, ?_, calls, ?_, ?_⟩
    · rw [lastDropped_reportDropped]
      exact telescopes.last_le
    · rw [lastDropped_reportDropped]
      exact telescopes.last_nonneg
    · rw [lastDropped_reportDropped]
      rcases telescopes.applied with applied | waits
      · exact Or.inl applied
      · refine Or.inr (exists_swapping_advance found _ ?_ waits)
        rintro enqueued ⟨⟩
    · intro metrics present
      rw [Agent.Reported, lastDropped_reportDropped]
      exact telescopes.reported_reportDropped bounded
        (total_due_nonneg calls) exchanged present
  · cases step

theorem count (step : agent.count = some after) :
    Telescopes after lastRead := by
  rw [Agent.count] at step
  split at step
  · rename_i held turn released counting
    cases step
    have noted := settleRelease_reported telescopes.reported turn released
    exact telescopes.frame rfl (le_refl _) noted.1 noted.2
  · cases step

end Telescopes

/-! ### Runs -/

theorem dropped_of_sound
    (sound : agent.Sound spool) (few : agent.dropped.length < 2 ^ 63) :
    spool.dropped.toInt = agent.dropped.length := by
  rw [sound.dropped, toInt_ofNat_of_lt few]

theorem step
    (telescopes : Telescopes agent lastRead) (sound : agent.Sound spool)
    (few : agent.dropped.length < 2 ^ 63) {move : Move}
    (inOrder : Reporting.InOrder ⟨agent, lastRead⟩ move)
    (step : agent.step move = some after) :
    Telescopes after (agent.reads lastRead move) := by
  cases move with
  | send encoded =>
    cases step
    exact telescopes.send encoded
  | answer id reply => exact telescopes.answer step
  | enqueue id verdicts => exact telescopes.enqueue step
  | readDropped id =>
    rw [reads, sound.queue]
    exact telescopes.readDropped sound.queue (dropped_of_sound sound few) step
  | swapDropped id =>
    refine telescopes.swapDropped ?_ step
    intro payload enqueued dropped found
    exact le_iff_toInt_le.mp (inOrder id payload enqueued dropped rfl found)
  | reportDropped id => exact telescopes.reportDropped step
  | peek | answerDrain | release =>
    simp only [Agent.step, Agent.peek, Agent.answerDrain,
      Agent.release] at step
    (repeat' split at step) <;> cases step <;>
      exact telescopes.frame rfl (le_refl _) rfl telescopes.reported
  | count => exact telescopes.count step

end Moves

end Telescopes

theorem telescopes_of_opened
    {agent : Agent} (opened : agent.Opened maxBytes recorded) :
    Telescopes agent 0 := by
  obtain ⟨before, verdicts, spool, unused, stored, ran, https, -, -⟩ :=
    opened.opens
  have last : agent.https.lastDropped = 0 := by rw [https]
  have zero : (0 : Int64).toInt = 0 := rfl
  refine ⟨by omega, ?_, ?_, ?_, Or.inl last, ?_⟩
  · rw [last]
  · rw [last, zero]
  · rw [opened.calls]
    exact nofun
  · rw [https]
    intro metrics present
    cases recorded with
    | true =>
      cases present
      rw [Agent.Reported, due, opened.calls, last]
      exact ⟨le_refl 0, rfl⟩
    | false => cases present

theorem telescopes_of_reachable {reporting : Reporting}
    (reachable : (reportingMachine maxBytes recorded).ReachableUnder
      Reporting.InOrder reporting)
    (names : reporting.agent.names < 2 ^ 64)
    (few : reporting.agent.dropped.length < 2 ^ 63) :
    Telescopes reporting.agent reporting.lastRead := by
  refine @Machine.ReachableUnder.invariant _ _ _ _
    (fun reporting => reporting.agent.names < 2 ^ 64 →
      reporting.agent.dropped.length < 2 ^ 63 →
        Telescopes reporting.agent reporting.lastRead)
    _ ?_ ?_ reachable names few
  · rintro reporting ⟨opened, unread⟩ _ _
    rw [unread]
    exact telescopes_of_opened opened
  · intro before move after earlier telescopes inOrder step limit less
    obtain ⟨agent, moved, rfl⟩ := map_eq_some_iff.mp step
    have bound := (grows_step moved).1.trans_lt limit
    have short := (grows_step moved).2.trans_lt less
    obtain ⟨spool, sound⟩ := sound_of_reachable
      (reporting_agent_reachable earlier.reachable) bound
    exact (telescopes bound short).step sound short inOrder moved

/-! ## The property -/

/--
If no reading of the drop counter is applied after a greater one, and the
counters do not wrap, then no more drops are reported than the spool counted,
and once every call has returned the drops reported are those read last.
-/
theorem spool_drops_reported
    {maxBytes : Int64} {recorded : Bool} {reporting : Reporting}
    (reachable : (reportingMachine maxBytes recorded).ReachableUnder
      Reporting.InOrder reporting)
    (names : reporting.agent.names < 2 ^ 64)
    (few : reporting.agent.dropped.length < 2 ^ 63)
    {metrics : Metrics} {spool : Spool}
    (recording : reporting.agent.https.metrics = some metrics)
    (configured : reporting.agent.https.queue = some spool) :
    value metrics metricSpoolDropped ≤ spool.dropped ∧
      ((∀ call ∈ reporting.agent.calls,
          ∃ fault, call.phase = .returned fault) →
        value metrics metricSpoolDropped = reporting.lastRead) := by
  have telescopes := telescopes_of_reachable reachable names few
  obtain ⟨current, sound⟩ := Agent.sound_of_reachable
    (reporting_agent_reachable reachable.reachable) names
  have counted := Telescopes.dropped_of_sound sound few
  rw [sound.queue] at configured
  cases configured
  obtain ⟨-, sum⟩ := telescopes.reported metrics recording
  have due := total_due_nonneg telescopes.calls
  rw [← Agent.due] at due
  have last := telescopes.last_le
  have read := telescopes.read_le
  constructor
  · rw [Int64.le_iff_toInt_le]
    omega
  · intro returned
    have nothing : reporting.agent.due = 0 := by
      rw [Agent.due, Slots.total_eq_sum]
      apply Finset.sum_eq_zero
      intro index _
      obtain ⟨fault, phase⟩ := returned _ (get_mem _ index)
      apply due_of_quiet
      rw [phase]
      rfl
    rcases telescopes.applied with applied | ⟨id, payload, enqueued, waits⟩
    · rw [← applied]
      apply Int64.toInt_inj.mp
      omega
    · obtain ⟨fault, phase⟩ := returned _ (mem_of_getElem? waits)
      cases phase

/-! ### Readings in order and out of order -/

def freshReporting : Reporting := ⟨freshAgent 1 true, 0⟩

theorem freshReporting_initial :
    (reportingMachine 1 true).initial freshReporting :=
  ⟨freshAgent_opened (by decide) true, rfl⟩

/-- Whether a move applies no reading after a greater one. -/
def inOrder (reporting : Reporting) : Move → Bool
  | .swapDropped id =>
    match reporting.agent.calls[id]? with
    | some ⟨_, .swapping _ dropped⟩ =>
      reporting.agent.https.lastDropped ≤ dropped
    | _ => true
  | _ => true

theorem inOrder_permits (reporting : Reporting) (move : Move)
    (checked : inOrder reporting move = true) : reporting.InOrder move := by
  rintro id payload enqueued dropped rfl found
  simpa only [inOrder, found, decide_eq_true_eq] using checked

/--
Two batches are spooled where one has room, and a drop is read.  A third batch
drops another one, which is read too.
-/
def overflowMoves : List Move :=
  [.send (.ok [7]), .answer 0 (.failed errNetwork),
    .enqueue 0 (List.replicate 6 .proceed), .send (.ok [8]),
    .answer 1 (.failed errNetwork),
    .enqueue 1 (List.replicate 7 .proceed), .readDropped 1,
    .send (.ok [9]), .answer 2 (.failed errNetwork),
    .enqueue 2 (List.replicate 7 .proceed), .readDropped 2]

/-- The readings are applied as they were made. -/
def orderlyMoves : List Move :=
  overflowMoves ++ [.swapDropped 1, .reportDropped 1, .swapDropped 2,
    .reportDropped 2, .readDropped 0, .swapDropped 0, .reportDropped 0]

def orderlyReporting : Reporting :=
  ((reportingMachine 1 true).runIf inOrder freshReporting
    orderlyMoves).get (by decide)

theorem spool_drops_reported_orderly : ∃ metrics spool,
      orderlyReporting.agent.https.metrics = some metrics ∧
      orderlyReporting.agent.https.queue = some spool ∧
      orderlyReporting.lastRead = 2 ∧
      value metrics metricSpoolDropped ≤ spool.dropped ∧
      value metrics metricSpoolDropped =
        orderlyReporting.lastRead := by
  have reachable : (reportingMachine 1 true).ReachableUnder
      Reporting.InOrder orderlyReporting :=
    (Machine.ReachableUnder.start freshReporting_initial).runIf
      inOrder_permits (some_get _).symm
  obtain ⟨metrics, recording⟩ := Option.isSome_iff_exists.mp
    (show orderlyReporting.agent.https.metrics.isSome = true by decide)
  obtain ⟨spool, configured⟩ := Option.isSome_iff_exists.mp
    (show orderlyReporting.agent.https.queue.isSome = true by decide)
  obtain ⟨bounded, exact⟩ := spool_drops_reported reachable (by decide)
    (by decide) recording configured
  have returned : ∀ call ∈ orderlyReporting.agent.calls,
      call.phase = .returned none := by
    decide
  exact ⟨metrics, spool, recording, configured, by decide, bounded,
    exact fun call member => ⟨none, returned call member⟩⟩

/--
The second reading is applied and reported before the first one; then the
first call reads the counter.
-/
def overtakingMoves : List Move :=
  overflowMoves ++ [.swapDropped 2, .reportDropped 2, .swapDropped 1,
    .reportDropped 1, .readDropped 0, .swapDropped 0, .reportDropped 0]

/-- What an agent has reported. -/
def Agent.reportedDrops (agent : Agent) : Option Int64 :=
  agent.https.metrics.map fun metrics =>
    value metrics metricSpoolDropped

/-- Three drops are reported although the spool counted two. -/
theorem overtaken_reading_reported_twice :
    ∃ reporting, (reportingMachine 1 true).Reachable reporting ∧
      (∀ call ∈ reporting.agent.calls, call.phase = .returned none) ∧
      reporting.agent.reportedDrops = some 3 ∧
      reporting.lastRead = 2 ∧
      reporting.agent.https.queue.map Spool.dropped = some 2 := by
  refine ⟨((reportingMachine 1 true).run freshReporting
    overtakingMoves).get (by decide), ?_, ?_, ?_, ?_, ?_⟩
  · exact (Machine.Reachable.start freshReporting_initial).run
      (Option.some_get _).symm
  · decide
  · decide
  · decide
  · decide

end Ironclaw.Transport
