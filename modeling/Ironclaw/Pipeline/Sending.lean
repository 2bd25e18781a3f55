import Ironclaw.Pipeline.Accounts

/-!
# What the transport sees of a batcher

Only an answer of the transport changes what was sent or ends a send.  No
step of a batcher leaves the end of `Run` again.
-/

namespace Ironclaw.Pipeline

open Lib Domain Batcher

/-- Whether an action is an answer of the transport. -/
def Action.isSettle : Action → Bool
  | .settle _ => true
  | _ => false

namespace Batcher

variable {settings : Settings} {batcher after : Batcher settings}
variable {now : Time}

/-- What a step leaves alone that is no answer of the transport. -/
structure Keeps (batcher after : Batcher settings) : Prop where
  sent : after.sent = batcher.sent
  sending : ∀ batch, batcher.sender = .sending batch →
    after.sender = .sending batch
  returned : ∀ result, batcher.collector = .returned result →
    after.collector = .returned result

theorem keeps_of_running
    {collector : Collector} (stage : batcher.collector = collector)
    (running : collector.quiet = false) (sent : after.sent = batcher.sent)
    (sender : after.sender = batcher.sender) : Keeps batcher after where
  sent := sent
  sending batch held := sender.trans held
  returned result returned := by
    rw [stage.symm.trans returned] at running
    cases running

theorem Sound.keeps_run {launch : Launch} (sound : batcher.Sound)
    (step : batcher.run launch = some after) : Keeps batcher after := by
  cases stage : batcher.collector with
  | idle =>
    have still := sound.quiet (by rw [stage]; rfl)
    have free : ∀ batch, batcher.sender ≠ .sending batch := by
      intro batch held
      rw [held] at still
      cases still.2
    have idle : ∀ result, batcher.collector ≠ .returned result := by
      intro result returned
      cases stage.symm.trans returned
    have sent : after.sent = batcher.sent := by
      simp only [Batcher.run, stage] at step
      cases launch <;> cases step <;> rfl
    exact ⟨sent, fun batch held => absurd held (free batch),
      fun result returned => absurd returned (idle result)⟩
  | _ => simp [Batcher.run, stage] at step

theorem keeps_enqueue (step : batcher.enqueue = some after) :
    Keeps batcher after := by
  have frame : after.sent = batcher.sent ∧
      after.sender = batcher.sender := by
    simp only [enqueue, push] at step
    (repeat' split at step) <;> cases step <;> exact ⟨rfl, rfl⟩
  cases stage : batcher.collector with
  | enqueueing | evicting | replacing =>
    exact keeps_of_running stage rfl frame.1 frame.2
  | _ => simp [enqueue, stage] at step

theorem keeps_take (step : batcher.take = some after) :
    Keeps batcher after := by
  cases worker : batcher.sender with
  | ranging =>
    have free : ∀ batch, batcher.sender ≠ .sending batch := by
      intro batch held
      cases worker.symm.trans held
    simp only [take, worker] at step
    split at step
    · cases step
      exact ⟨rfl, fun batch held => absurd held (free batch),
        fun _ returned => returned⟩
    · split at step
      · cases step
        exact ⟨rfl, fun batch held => absurd held (free batch),
          fun _ returned => returned⟩
      · cases step
  | _ => simp [take, worker] at step

theorem Sound.keeps {action : Action} (sound : batcher.Sound)
    (step : batcher.step action = some after)
    (other : action.isSettle = false) : Keeps batcher after := by
  cases action with
  | run launch => exact sound.keeps_run step
  | cancel fault =>
    simp only [Batcher.step, Batcher.cancel] at step
    split at step
    · cases step
      exact ⟨rfl, fun _ held => held, fun _ returned => returned⟩
    · cases step
  | enqueue => exact keeps_enqueue step
  | stop | receive | exhaust | tick | expire | record | close | wait =>
    simp only [Batcher.step, Batcher.stop, Batcher.receive, Batcher.exhaust,
      Batcher.tick, Batcher.flush, Batcher.expire, Batcher.record,
      Batcher.close, Batcher.wait] at step
    (repeat' split at step) <;> cases step <;> apply keeps_of_running
    all_goals first | assumption | rfl
  | take => exact keeps_take step
  | settle result => cases other

/-- An answer ends the send, and a batch counts as sent without an error. -/
theorem settle_cases
    {result : Option Fault} (step : batcher.settle result = some after) :
    ∃ batch, batcher.sender = .sending batch ∧
      after.sender = .ranging ∧ after.collector = batcher.collector ∧
      after.sent = batcher.sent ++ if result.isNone then [batch] else [] := by
  rw [settle] at step
  split at step
  · rename_i batch held
    cases result with
    | none =>
      cases step
      exact ⟨batch, held, rfl, rfl, rfl⟩
    | some fault =>
      cases step
      exact ⟨batch, held, rfl, rfl, (List.append_nil _).symm⟩
  · cases step

end Batcher

end Ironclaw.Pipeline
