import Ironclaw.Disk.Laps
import Ironclaw.Transport.Agent

/-!
# When sequence numbers wrap

After `2^64` publications of one process the spool gives out its first name
again.  If `Drain` has been busy with the first entry all the while, it then
releases an entry that it never posted.  The run is built lap by lap: each lap
is a `Send` that is not answered, on a spool with room for one entry.
-/

namespace Ironclaw.Transport

open Lib Domain Disk Option Agent

/-! ## One lap -/

/-- A `Send` that is not answered, and evicts the entry before it. -/
def lapMoves (count : Nat) : List Move :=
  [.send (.ok [7]), .answer count (.failed errNetwork),
    .enqueue count (List.replicate 7 .proceed), .readDropped count,
    .swapDropped count, .reportDropped count]

/-- The agent after some laps, with `Drain` still at the first entry. -/
structure Busy (count : Nat) (agent : Agent) (spool : Spool) : Prop where
  queue : agent.https.queue = some spool
  lap : Lap count agent.directory spool
  calls : agent.calls.length = count
  returned : agent.calls.getLast? = some ⟨[7], .returned none⟩
  drain : agent.drain = .releasing ⟨⟨lapName 1, [7]⟩, some 0⟩ .drained
  owner : agent.owners.lookup (lapName count) = some (count - 1)
  acknowledged : agent.acknowledged = [some 0]
  refused : agent.refused = []
  /-- Only entries of earlier laps were dropped. -/
  dropped : ∀ id, some id ∈ agent.dropped → id + 1 < count

section Laps

variable {count : Nat} {agent : Agent} {spool : Spool}

theorem Busy.gained (busy : Busy count agent spool) :
    missing (lapDirectory count agent.directory) agent.directory =
      [⟨lapName (count + 1), [7]⟩] := by
  rw [missing, busy.lap.next.entries, busy.lap.entries]
  simp [(lapName_ne count).symm]

theorem Busy.lost (busy : Busy count agent spool) :
    missing agent.directory (lapDirectory count agent.directory) =
      [⟨lapName count, [7]⟩] := by
  rw [missing, busy.lap.next.entries, busy.lap.entries]
  simp [lapName_ne count]

theorem Busy.droppedBy_eq (busy : Busy count agent spool) (id : Nat) :
    agent.droppedBy id spool (lapSpool count spool)
        (lapDirectory count agent.directory) = [some (count - 1)] := by
  have counted : (lapSpool count spool).dropped =
      spool.dropped + Int64.ofNat 1 := by
    simp [lapSpool, lapEvicted, Spool.append]
  simp only [droppedBy, busy.lost, List.length_singleton, counted,
    if_true, List.map_singleton, List.append_nil]
  exact congrArg (fun owner => [owner]) busy.owner

/-- The agent after one more lap. -/
def lapAgent (spool : Spool) (agent : Agent) : Agent :=
  let count := agent.calls.length
  let https := { agent.https.record metricSpooled 1 with
    queue := some (lapSpool count spool) }
  { agent with
    directory := lapDirectory count agent.directory
    https := https.recordSpoolDrops (lapSpool count spool).dropped
    calls := agent.calls ++ [⟨[7], .returned none⟩]
    owners := agent.owners.insert (lapName (count + 1)) count
    dropped := agent.dropped ++ [some (count - 1)]
    names := agent.names + 1 }

theorem set_last (calls : List SendCall) (call other : SendCall) :
    (calls ++ [call]).set calls.length other = calls ++ [other] := by
  simp

theorem Busy.run_moves (busy : Busy count agent spool) :
    (agentMachine 1 true).run agent (lapMoves count) =
      some (lapAgent spool agent) := by
  obtain rfl := busy.calls
  have enqueued := busy.lap.run_enqueue []
  rw [List.append_nil] at enqueued
  have transient : errNetwork.is errUnacceptable = false := by decide
  simp only [lapMoves, Machine.run, agentMachine, step, send,
    answer, List.getElem?_concat_length, post, HTTPS.settle, HTTPS.judge,
    transient, busy.queue, isNone_some, Bool.false_eq_true,
    if_false, bind_some, set_last]
  simp only [enqueue, List.getElem?_concat_length, HTTPS.record, busy.queue,
    enqueued, set_last, bind_some, busy.gained]
  simp only [readDropped, swapDropped, reportDropped,
    List.getElem?_concat_length, set_last, bind_some]
  simp only [lapAgent, ← busy.droppedBy_eq agent.calls.length]
  rfl

theorem Busy.next (busy : Busy count agent spool) :
    Busy (count + 1) (lapAgent spool agent) (lapSpool count spool) := by
  obtain rfl := busy.calls
  constructor
  · exact HTTPS.queue_reportDropped _ _
  · exact busy.lap.next
  · simp [lapAgent]
  · simp [lapAgent]
  · exact busy.drain
  · exact AList.lookup_insert _
  · exact busy.acknowledged
  · exact busy.refused
  · intro id member
    have positive : agent.calls ≠ [] := by
      intro empty
      have last := busy.returned
      rw [empty] at last
      cases last
    have length := List.length_pos_iff.mpr positive
    rcases List.mem_append.mp member with old | new
    · have less := busy.dropped id old
      omega
    · obtain rfl := some.inj (List.mem_singleton.mp new)
      omega

theorem Busy.iterate (busy : Busy count agent spool)
    (reachable : (agentMachine 1 true).Reachable agent) (laps : Nat) :
    ∃ after last, (agentMachine 1 true).Reachable after ∧
      Busy (count + laps) after last := by
  induction laps with
  | zero => exact ⟨agent, spool, reachable, busy⟩
  | succ laps induction =>
    obtain ⟨middle, current, earlier, known⟩ := induction
    exact ⟨lapAgent current middle, lapSpool (count + laps) current,
      earlier.run known.run_moves, known.next⟩

end Laps

/-! ## The run -/

/-- The first entry is spooled, peeked and acknowledged. -/
def firstMoves : List Move :=
  spooledMoves ++ [.peek [.proceed, .proceed], .answerDrain (.answered 200)]

def firstAgent : Agent :=
  ((agentMachine 1 true).run (freshAgent 1 true) firstMoves).get (by decide)

theorem firstAgent_reachable : (agentMachine 1 true).Reachable firstAgent :=
  (Machine.Reachable.start
    (freshAgent_opened (by decide) true)).run (some_get _).symm

def firstSpool : Spool :=
  { Spool.new 1 with seq := 1 }.append (lapName 1) 1

theorem firstAgent_busy : Busy 1 firstAgent firstSpool where
  queue := rfl
  lap := Lap.first
  calls := rfl
  returned := rfl
  drain := rfl
  owner := rfl
  acknowledged := rfl
  refused := rfl
  dropped _ member := absurd member List.not_mem_nil

theorem lapName_wraps : lapName (1 + 2 ^ 64) = lapName 1 := by
  have ordinal : Int64.ofNat (1 + 2 ^ 64) = Int64.ofNat 1 := by decide
  have sequence : UInt64.ofNat (1 + 2 ^ 64) = UInt64.ofNat 1 := by decide
  rw [lapName, lapName, ordinal, sequence]

theorem Busy.release {count : Nat} {agent : Agent} {spool : Spool}
    (busy : Busy count agent spool) (wrapped : lapName count = lapName 1) :
    ∃ after, (agentMachine 1 true).run agent [.release [.proceed], .count] =
        some after ∧ after.drain = .idle ∧ after.calls = agent.calls ∧
      after.acknowledged = agent.acknowledged ∧
      after.refused = agent.refused ∧ after.dropped = agent.dropped ∧
      queueOf after.directory.journal = [] := by
  have released :=
    run_release busy.lap.stored busy.lap.lists busy.lap.queued []
  have remaining := busy.lap.entries_without
  simp only [wrapped] at released remaining
  simp only [Machine.run, agentMachine, Agent.step, Agent.release,
    busy.drain, busy.queue, released, bind_some, Agent.count]
  exact ⟨_, rfl, rfl, rfl, rfl, rfl, rfl, remaining⟩

/-- A refused batch of an agent without a recorder. -/
def unrecordedMoves : List Move :=
  spooledMoves ++ [.peek [.proceed, .proceed], .answerDrain (.answered 400),
      .release [.proceed], .count]

def unrecordedAgent : Agent :=
  ((agentMachine 1 false).run (freshAgent 1 false) unrecordedMoves).get
    (by decide)

/--
A batch is lost once the sequence numbers wrap: its `Send` returned nil, and
it is neither acknowledged nor refused, dropped or spooled.  And without a
recorder the refusal of a spooled batch is counted nowhere.
-/
theorem batch_lost_silently :
    (∃ agent id, (agentMachine 1 true).Reachable agent ∧
      agent.calls[id]? = some ⟨[7], .returned none⟩ ∧
      agent.drain = .idle ∧ some id ∉ agent.acknowledged ∧
      some id ∉ agent.refused ∧ some id ∉ agent.dropped ∧
      queueOf agent.directory.journal = []) ∧
    ∃ agent, (agentMachine 1 false).Reachable agent ∧
      agent.calls[0]? = some ⟨[7], .returned none⟩ ∧
      agent.drain = .idle ∧ some 0 ∉ agent.acknowledged ∧
      agent.https.metrics = none ∧ some 0 ∉ agent.dropped ∧
      queueOf agent.directory.journal = [] := by
  constructor
  · obtain ⟨agent, spool, reachable, busy⟩ :=
      firstAgent_busy.iterate firstAgent_reachable (2 ^ 64)
    obtain ⟨after, ran, drain, calls, acknowledged, refused, dropped,
      empty⟩ := busy.release lapName_wraps
    refine ⟨after, 2 ^ 64, reachable.run ran, ?_, drain, ?_, ?_, ?_, empty⟩
    · have last := busy.returned
      rw [List.getLast?_eq_getElem?, busy.calls] at last
      rw [calls]
      exact last
    · rw [acknowledged, busy.acknowledged]
      decide
    · rw [refused, busy.refused]
      exact List.not_mem_nil
    · rw [dropped]
      intro member
      have less := busy.dropped _ member
      omega
  · refine ⟨unrecordedAgent, ?_, rfl, rfl, ?_, rfl, ?_, rfl⟩
    · exact (Machine.Reachable.start
        (freshAgent_opened (by decide) false)).run
          (Option.some_get _).symm
    · decide
    · decide

end Ironclaw.Transport
