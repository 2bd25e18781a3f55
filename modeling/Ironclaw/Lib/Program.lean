import Mathlib.Data.List.Basic

/-!
# Programs over a device that fails and dies

A program is a sequence of calls on a device, each continued by its reply.
The device answers a call according to a verdict: the call may take effect,
fail, or be the last thing that happens before the process is killed.  A run
consumes one verdict for each call; when they end, the process was killed
between two calls.

`wp` computes what must hold before a program for a postcondition to hold
where it finishes and a crash condition wherever it can be killed.
-/

namespace Ironclaw.Lib

/-- A program of calls, continued by their replies. -/
inductive Program (Op Reply Value : Type) where
  | done (value : Value)
  | call (op : Op) (next : Reply → Program Op Reply Value)

/-- What one call does: return, or die and leave a state behind. -/
inductive Effect (State Reply : Type) where
  | returned (state : State) (reply : Reply)
  | killed (state : State)

/-- A device: the effect of each call under each verdict. -/
structure Device (State Op Reply Verdict : Type) where
  effect : State → Op → Verdict → Effect State Reply

/-- How a run ends. -/
inductive Ending (State Verdict Value : Type) where
  | finished (state : State) (value : Value) (unused : List Verdict)
  | killed (state : State)

/-- A run that finishes meets the one condition, a killed one the other. -/
def Ending.Meets
    {State Verdict Value : Type} (post : Value → State → Prop)
    (crash : State → Prop) : Ending State Verdict Value → Prop
  | .finished after value _ => post value after
  | .killed after => crash after

namespace Program

variable {Op Reply Value Result State Verdict : Type}
variable {state : State} {program : Program Op Reply Value}

def bind (program : Program Op Reply Value)
    (next : Value → Program Op Reply Result) :
    Program Op Reply Result :=
  match program with
  | .done value => next value
  | .call op continuation =>
    .call op fun reply => (continuation reply).bind next

instance : Monad (Program Op Reply) where
  pure := Program.done
  bind := Program.bind

/-- One call, returning its reply. -/
def perform (op : Op) : Program Op Reply Reply := .call op .done

/-- Execute a program under a list of verdicts. -/
def run (device : Device State Op Reply Verdict) :
    Program Op Reply Value → State → List Verdict → Ending State Verdict Value
  | .done value, state, verdicts => .finished state value verdicts
  | .call _ _, state, [] => .killed state
  | .call op next, state, verdict :: verdicts =>
    match device.effect state op verdict with
    | .returned after reply => run device (next reply) after verdicts
    | .killed after => .killed after

/-- A run of a sequence continues where its first part finished. -/
theorem run_bind (device : Device State Op Reply Verdict)
    (program : Program Op Reply Value)
    (next : Value → Program Op Reply Result)
    (state : State) (verdicts : List Verdict) :
    run device (program >>= next) state verdicts =
      match run device program state verdicts with
      | .finished after value unused =>
        run device (next value) after unused
      | .killed after => .killed after := by
  induction program generalizing state verdicts with
  | done value => rfl
  | call op continuation induction =>
    cases verdicts with
    | nil => rfl
    | cons verdict rest =>
      change run device (.call op fun reply =>
        (continuation reply).bind next) state (verdict :: rest) = _
      simp only [run]
      cases device.effect state op verdict with
      | returned after reply => exact induction reply after rest
      | killed after => rfl

/--
The weakest precondition: `post` where the program finishes, and `crash` in
every state in which it can be killed.
-/
def wp (device : Device State Op Reply Verdict)
    (post : Value → State → Prop) (crash : State → Prop) :
    Program Op Reply Value → State → Prop
  | .done value, state => post value state
  | .call op next, state =>
    crash state ∧ ∀ verdict, match device.effect state op verdict with
        | .returned after reply => wp device post crash (next reply) after
        | .killed after => crash after

variable {device : Device State Op Reply Verdict}
variable {post : Value → State → Prop} {crash : State → Prop}

theorem wp_perform
    {op : Op} {post : Reply → State → Prop} (before : crash state)
    (returns : ∀ verdict after reply,
      device.effect state op verdict = .returned after reply →
        post reply after)
    (dies : ∀ verdict after,
      device.effect state op verdict = .killed after → crash after) :
    wp device post crash (perform op) state := by
  refine ⟨before, ?_⟩
  intro verdict
  cases effect : device.effect state op verdict with
  | returned after reply => exact returns verdict after reply effect
  | killed after => exact dies verdict after effect

/-- The rule for sequencing. -/
theorem wp_bind
    {next : Value → Program Op Reply Result} {post : Result → State → Prop}
    (first : wp device
      (fun value after => wp device post crash (next value) after) crash
      program state) : wp device post crash (program >>= next) state := by
  induction program generalizing state with
  | done value => exact first
  | call op continuation induction =>
    refine ⟨first.1, ?_⟩
    intro verdict
    have rest := first.2 verdict
    cases effect : device.effect state op verdict with
    | returned after reply =>
      rw [effect] at rest
      exact induction reply rest
    | killed after =>
      rw [effect] at rest
      exact rest

/-- The rule of consequence. -/
theorem wp_mono
    {weakerPost : Value → State → Prop} {weakerCrash : State → Prop}
    (holds : wp device post crash program state)
    (posts : ∀ value after, post value after → weakerPost value after)
    (crashes : ∀ after, crash after → weakerCrash after) :
    wp device weakerPost weakerCrash program state := by
  induction program generalizing state with
  | done value => exact posts value state holds
  | call op continuation induction =>
    refine ⟨crashes state holds.1, ?_⟩
    intro verdict
    have rest := holds.2 verdict
    cases effect : device.effect state op verdict with
    | returned after reply =>
      rw [effect] at rest
      exact induction reply rest
    | killed after =>
      rw [effect] at rest
      exact crashes after rest

theorem wp_trivial (program : Program Op Reply Value) (state : State) :
    wp device (fun _ _ => True) (fun _ => True) program state := by
  induction program generalizing state with
  | done value => trivial
  | call op continuation induction =>
    refine ⟨trivial, ?_⟩
    intro verdict
    cases device.effect state op verdict with
    | returned after reply => exact induction reply after
    | killed after => trivial

theorem wp_of_forall (always : ∀ value after, post value after) :
    wp device post (fun _ => True) program state :=
  wp_mono (wp_trivial program state) (fun value after _ => always value after)
    fun _ _ => trivial

theorem wp_bind_trivial
    {next : Value → Program Op Reply Result} {post : Result → State → Prop}
    (rest : ∀ value after,
      wp device post (fun _ => True) (next value) after) :
    wp device post (fun _ => True) (program >>= next) state :=
  wp_bind (wp_of_forall rest)

/-- The rule of conjunction; the second part need not say where it dies. -/
theorem wp_and {otherPost : Value → State → Prop}
    (first : wp device post crash program state)
    (second : wp device otherPost (fun _ => True) program state) :
    wp device (fun value after => post value after ∧ otherPost value after)
      crash program state := by
  induction program generalizing state with
  | done value => exact ⟨first, second⟩
  | call op continuation induction =>
    refine ⟨first.1, ?_⟩
    intro verdict
    have left := first.2 verdict
    have right := second.2 verdict
    cases effect : device.effect state op verdict with
    | returned after reply =>
      rw [effect] at left right
      exact induction reply left right
    | killed after =>
      rw [effect] at left
      exact left

/-- Every run ends as the weakest precondition says. -/
theorem run_of_wp
    (holds : wp device post crash program state) (verdicts : List Verdict) :
    (run device program state verdicts).Meets post crash := by
  induction program generalizing state verdicts with
  | done value => exact holds
  | call op continuation induction =>
    cases verdicts with
    | nil => exact holds.1
    | cons verdict rest =>
      have next := holds.2 verdict
      simp only [run]
      cases effect : device.effect state op verdict with
      | returned after reply =>
        rw [effect] at next
        exact induction reply next rest
      | killed after =>
        rw [effect] at next
        exact next

theorem finished_of_wp
    {after : State} {value : Value} {verdicts unused : List Verdict}
    (holds : wp device post crash program state)
    (ran : run device program state verdicts = .finished after value unused) :
    post value after := by
  have ends := run_of_wp holds verdicts
  rw [ran] at ends
  exact ends

end Program

end Ironclaw.Lib
