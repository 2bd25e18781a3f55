import Ironclaw.Disk.Numbering
import Ironclaw.Transport.HTTPS

/-!
# The agent

Any number of `Send` calls and one `Drain` share a spool.  The operations of
the spool hold its lock, so each is one step, and so is each access to the
counters of the transport; between any two of them the other calls run.

The machine keeps beside the state of the source what becomes of each batch:
which call published each entry, and which batches were acknowledged, refused
and dropped.  A batch that was already spooled when the directory was opened
belongs to no call.
-/

namespace Ironclaw.Transport

open Lib Domain Disk

/-- Where a call of `Send` stands. -/
inductive Phase where
  | posting
  | spooling
  | reading (enqueued : Option Fault)
  | swapping (enqueued : Option Fault) (dropped : Int64)
  | reporting (enqueued : Option Fault) (delta : Int64)
  | returned (fault : Option Fault)
deriving DecidableEq

/-- A call of `Send`. -/
structure SendCall where
  payload : Payload
  phase : Phase
deriving DecidableEq

/-- The entry that `Drain` works on, and the call that spooled it. -/
structure Held where
  entry : Entry
  owner : Option Nat
deriving DecidableEq

/-- Where `Drain` stands. -/
inductive DrainPhase where
  | idle
  | posting (held : Held)
  | releasing (held : Held) (turn : HTTPS.Turn)
  | counting (held : Held) (turn : HTTPS.Turn) (released : Option Fault)
deriving DecidableEq

/-- The batch that `Drain` works on. -/
def DrainPhase.held : DrainPhase → Option Held
  | .idle => none
  | .posting held => some held
  | .releasing held _ => some held
  | .counting held _ _ => some held

/-- The transport, its disk and its calls. -/
structure Agent where
  directory : Directory
  https : HTTPS
  calls : List SendCall
  drain : DrainPhase
  /-- The call that published each name. -/
  owners : GoMap String Nat
  acknowledged : List (Option Nat)
  refused : List (Option Nat)
  /-- The batches that the spool evicted or turned away. -/
  dropped : List (Option Nat)
  /-- A bound on the sequence numbers in names. -/
  names : Nat

/-- One step of a `Send` or of `Drain`. -/
inductive Move where
  | send (encoded : Except Fault Payload)
  | answer (id : Nat) (reply : Reply)
  | enqueue (id : Nat) (verdicts : List FsVerdict)
  | readDropped (id : Nat)
  | swapDropped (id : Nat)
  | reportDropped (id : Nat)
  | peek (verdicts : List FsVerdict)
  | answerDrain (reply : Reply)
  | release (verdicts : List FsVerdict)
  | count

namespace Agent

def owner (agent : Agent) (entry : Entry) : Option Nat :=
  agent.owners.lookup entry.name

/-! ## Send -/

def send (encoded : Except Fault Payload) (agent : Agent) : Agent :=
  { agent with
    calls := agent.calls ++
      [match encoded with
        | .ok payload => ⟨payload, .posting⟩
        | .error fault => ⟨[], .returned (some fault)⟩] }

/-- The post of a `Send` returns. -/
def answer (id : Nat) (reply : Reply) (agent : Agent) : Option Agent :=
  match agent.calls[id]? with
  | some ⟨payload, .posting⟩ =>
    let settled := agent.https.settle (post reply)
    some { agent with
      https := settled.1
      calls := agent.calls.set id
        ⟨payload, match settled.2 with
          | .returned fault => .returned fault
          | .spooling => .spooling⟩
      acknowledged := match HTTPS.judge (post reply) with
        | .drained => agent.acknowledged ++ [some id]
        | _ => agent.acknowledged
      refused := match HTTPS.judge (post reply) with
        | .refused => agent.refused ++ [some id]
        | _ => agent.refused }
  | _ => none

/-- The entries become those of a call. -/
def claim (id : Nat) (entries : List Entry) (owners : GoMap String Nat) :
    GoMap String Nat :=
  entries.foldl (fun owners entry => owners.insert entry.name id) owners

/--
What an `Enqueue` dropped: the entries it evicted, and its own payload if it
counted one more.
-/
def droppedBy
    (id : Nat) (spool result : Spool) (directory : Directory)
    (agent : Agent) : List (Option Nat) :=
  let evicted := missing agent.directory directory
  evicted.map agent.owner ++
    if result.dropped = spool.dropped + Int64.ofNat evicted.length then []
    else [some id]

/-- Spool the payload of a call. -/
def enqueue (id : Nat) (verdicts : List FsVerdict) (agent : Agent) :
    Option Agent :=
  match agent.calls[id]?, agent.https.queue with
  | some ⟨payload, .spooling⟩, some spool =>
    match (spool.enqueue payload).run fileSystem agent.directory
        verdicts with
    | .finished directory (result, fault) _ =>
      some { agent with
        directory := directory
        https := { agent.https with queue := some result }
        calls := agent.calls.set id ⟨payload, .reading fault⟩
        owners := claim id (missing directory agent.directory)
          agent.owners
        dropped := agent.dropped ++
          agent.droppedBy id spool result directory
        names := agent.names + 1 }
    | .killed _ => none
  | _, _ => none

def readDropped (id : Nat) (agent : Agent) : Option Agent :=
  match agent.calls[id]?, agent.https.queue with
  | some ⟨payload, .reading enqueued⟩, some spool =>
    some { agent with
      calls := agent.calls.set id
        ⟨payload, .swapping enqueued spool.dropped⟩ }
  | _, _ => none

def swapDropped (id : Nat) (agent : Agent) : Option Agent :=
  match agent.calls[id]? with
  | some ⟨payload, .swapping enqueued dropped⟩ =>
    let swapped := agent.https.swapDropped dropped
    some { agent with
      https := swapped.1
      calls := agent.calls.set id
        ⟨payload, .reporting enqueued swapped.2⟩ }
  | _ => none

def reportDropped (id : Nat) (agent : Agent) : Option Agent :=
  match agent.calls[id]? with
  | some ⟨payload, .reporting enqueued delta⟩ =>
    some { agent with
      https := agent.https.reportDropped delta
      calls := agent.calls.set id ⟨payload, .returned enqueued⟩ }
  | _ => none

/-! ## Drain -/

/-- `Drain` takes the oldest entry. -/
def peek (verdicts : List FsVerdict) (agent : Agent) : Option Agent :=
  match agent.drain, agent.https.queue with
  | .idle, some spool =>
    match spool.peek.run fileSystem agent.directory verdicts with
    | .finished directory (result, peeked) _ =>
      some { agent with
        directory := directory
        https := { agent.https with queue := some result }
        drain := match peeked with
          | .ok (payload, name) =>
            .posting ⟨⟨name, payload⟩, agent.owners.lookup name⟩
          | .error _ => .idle }
    | .killed _ => none
  | _, _ => none

/-- The post of `Drain` returns. -/
def answerDrain (reply : Reply) (agent : Agent) : Option Agent :=
  match agent.drain with
  | .posting held =>
    match HTTPS.judge (post reply) with
    | .drained =>
      some { agent with
        drain := .releasing held .drained
        acknowledged := agent.acknowledged ++ [held.owner] }
    | .refused => some { agent with drain := .releasing held .refused }
    | _ => some { agent with drain := .idle }
  | _ => none

/-- `Drain` removes what was answered. -/
def release (verdicts : List FsVerdict) (agent : Agent) : Option Agent :=
  match agent.drain, agent.https.queue with
  | .releasing held turn, some spool =>
    match (spool.release held.entry.name).run fileSystem
        agent.directory verdicts with
    | .finished directory (result, released) _ =>
      some { agent with
        directory := directory
        https := { agent.https with queue := some result }
        drain := .counting held turn released }
    | .killed _ => none
  | _, _ => none

def count (agent : Agent) : Option Agent :=
  match agent.drain with
  | .counting held turn released =>
    some { agent with
      https := agent.https.settleRelease turn released
      drain := .idle
      refused := match turn with
        | .refused => agent.refused ++ [held.owner]
        | _ => agent.refused }
  | _ => none

/-- The agent after a move that can be made. -/
def step (agent : Agent) : Move → Option Agent
  | .send encoded => some (agent.send encoded)
  | .answer id reply => agent.answer id reply
  | .enqueue id verdicts => agent.enqueue id verdicts
  | .readDropped id => agent.readDropped id
  | .swapDropped id => agent.swapDropped id
  | .reportDropped id => agent.reportDropped id
  | .peek verdicts => agent.peek verdicts
  | .answerDrain reply => agent.answerDrain reply
  | .release verdicts => agent.release verdicts
  | .count => agent.count

/-- An agent that has just opened its spool. -/
structure Opened
    (maxBytes : Int64) (recorded : Bool) (agent : Agent) : Prop where
  opens : ∃ before verdicts spool unused, Stored before ∧
    (openSpool maxBytes).run fileSystem before verdicts =
      .finished agent.directory (.ok spool) unused ∧
    agent.https = ⟨some spool, if recorded then some ∅ else none, 0⟩ ∧
    agent.names = spool.seq.toNat ∧
    spool.dropped = Int64.ofNat agent.dropped.length
  calls : agent.calls = []
  drain : agent.drain = .idle
  owners : agent.owners = ∅
  acknowledged : agent.acknowledged = []
  refused : agent.refused = []
  /-- What recovery trimmed belongs to no call. -/
  dropped : ∀ owner ∈ agent.dropped, owner = none

end Agent

def agentMachine (maxBytes : Int64) (recorded : Bool) :
    Machine Agent Move where
  initial := Agent.Opened maxBytes recorded
  step := Agent.step

/-! ## A fresh agent -/

/-- An agent with a new spool on an empty directory. -/
def freshAgent (maxBytes : Int64) (recorded : Bool) : Agent where
  directory := Directory.empty
  https := ⟨some (Spool.new maxBytes), if recorded then some ∅ else none, 0⟩
  calls := []
  drain := .idle
  owners := ∅
  acknowledged := []
  refused := []
  dropped := []
  names := 0

theorem freshAgent_opened
    {maxBytes : Int64} (positive : ¬maxBytes ≤ 0) (recorded : Bool) :
    (freshAgent maxBytes recorded).Opened maxBytes recorded where
  opens := by
    refine ⟨Directory.empty, [.proceed, .proceed, .proceed],
      Spool.new maxBytes, [], stored_empty, ?_, rfl, rfl, rfl⟩
    rw [openSpool, if_neg positive]
    rfl
  calls := rfl
  drain := rfl
  owners := rfl
  acknowledged := rfl
  refused := rfl
  dropped := List.forall_mem_nil _

def errNetwork : Fault := .sentinel "connection refused"

/-- The first batch is not answered, and spooled. -/
def spooledMoves : List Move :=
  [.send (.ok [7]), .answer 0 (.failed errNetwork),
    .enqueue 0 (List.replicate 6 .proceed), .readDropped 0,
    .swapDropped 0, .reportDropped 0]

end Ironclaw.Transport
