import Ironclaw.Lib.Fault

/-!
# Computations with a record of their calls

A component answers a request by checks and by calls on its collaborators.
Its answer is modelled together with the calls it made, in order, so that one
can say of a request that it was refused before any collaborator was asked.
-/

namespace Ironclaw.Lib

/-- An answer, with the calls that were made for it. -/
structure Recorded (Op Value : Type) where
  result : Except Fault Value
  calls : List Op

namespace Recorded

variable {Op Value Result Port : Type}

def bind (first : Recorded Op Value) (next : Value → Recorded Op Result) :
    Recorded Op Result :=
  match first.result with
  | .error fault => ⟨.error fault, first.calls⟩
  | .ok value => ⟨(next value).result, first.calls ++ (next value).calls⟩

instance : Monad (Recorded Op) where
  pure value := ⟨.ok value, []⟩
  bind := bind

/-- Stop with an error, if there is one. -/
def check : Option Fault → Recorded Op Unit
  | none => ⟨.ok (), []⟩
  | some fault => ⟨.error fault, []⟩

/-- A collaborator that may not be configured. -/
def configured (port : Option Port) (fault : Fault) : Recorded Op Port :=
  match port with
  | none => ⟨.error fault, []⟩
  | some port => ⟨.ok port, []⟩

/-- A call, with what the collaborator answers. -/
def invoke (op : Op) (answer : Except Fault Value) : Recorded Op Value :=
  ⟨answer, [op]⟩

/-- Answered by an error, without a call. -/
def Refused (answer : Recorded Op Value) : Prop :=
  ∃ fault, answer = ⟨.error fault, []⟩

/-- Refused, or behind a gate and answered with one call. -/
def Guards (gate : Prop) (op : Op) (answer : Recorded Op Value) : Prop :=
  Refused answer ∨ (gate ∧ answer.calls = [op])

section Rules

variable {condition : Option Fault} {fault : Fault}
variable {next other : Unit → Recorded Op Value}
variable {answer : Recorded Op Value}

/-! ## Guarded answers -/

variable {gate : Prop} {op : Op}

theorem guards_check (rest : condition = none → Guards gate op (next ())) :
    Guards gate op (check condition >>= next) := by
  cases condition with
  | none => exact rest rfl
  | some fault => exact Or.inl ⟨fault, rfl⟩

theorem guards_configured
    {port : Option Port} {next : Port → Recorded Op Value}
    (rest : ∀ configured, Guards gate op (next configured)) :
    Guards gate op (configured port fault >>= next) := by
  cases port with
  | none => exact Or.inl ⟨fault, rfl⟩
  | some port => exact rest port

theorem guards_invoke (passes : gate) (answer : Except Fault Value) :
    Guards gate op (invoke op answer) :=
  Or.inr ⟨passes, rfl⟩

theorem Guards.map
    (guards : Guards gate op answer) (convert : Value → Result) :
    Guards gate op (convert <$> answer) := by
  rcases guards with ⟨fault, rfl⟩ | ⟨passes, calls⟩
  · exact Or.inl ⟨fault, rfl⟩
  · rcases answer with ⟨result, made⟩
    cases result with
    | error fault => exact Or.inr ⟨passes, calls⟩
    | ok value =>
      exact Or.inr ⟨passes, (List.append_nil made).trans calls⟩

theorem Guards.refused (guards : Guards gate op answer) (fails : ¬gate) :
    Refused answer := by
  rcases guards with refused | ⟨passes, _⟩
  · exact refused
  · exact absurd passes fails

theorem Guards.made (guards : Guards gate op answer)
    {made : Op} (member : made ∈ answer.calls) : gate ∧ made = op := by
  rcases guards with ⟨fault, rfl⟩ | ⟨passes, calls⟩
  · cases member
  · rw [calls] at member
    exact ⟨passes, List.mem_singleton.mp member⟩

/-! ## Agreement -/

theorem check_congr (rest : condition = none → next () = other ()) :
    check condition >>= next = check condition >>= other := by
  cases condition with
  | none => exact rest rfl
  | some fault => rfl

theorem configured_congr
    {Setting : Type} {setting : Option Setting} {left right : Setting → Port}
    {next other : Port → Recorded Op Value}
    (rest : ∀ given, next (left given) = other (right given)) :
    configured (setting.map left) fault >>= next =
      configured (setting.map right) fault >>= other := by
  cases setting with
  | none => rfl
  | some given => exact rest given

end Rules

end Recorded

end Ironclaw.Lib
