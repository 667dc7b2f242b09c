import RuleWatch.Condition.Evaluation
import RuleWatch.Rule.Identity
/-!
  Actions and rules.
-/

namespace RuleWatch

/-- What a rule does once it has given the same outcome often enough in a row. -/
structure Action where
  name : String
  /-- How many equal outcomes in a row the action waits for. -/
  threshold : Nat
  /-- What the handler of the action is told. -/
  params : Fields
deriving DecidableEq

/-- An action with the given parameters; of two with one name the later counts. -/
def Action.ofParams (name : String) (threshold : Nat) (params : List (String × Value)) : Action :=
  ⟨name, threshold, Std.ExtTreeMap.ofList params⟩

/-- The longest run of outcomes that is looked at, which is not zero. -/
structure Bound where
  size : Nat
  size_pos : 0 < size
deriving DecidableEq

/-- A condition of any kind and the actions for its two outcomes. -/
structure Rule (ε : Type) where
  id : RuleId
  name : String
  condition : ε
  onTrue : List Action
  onFalse : List Action
  /-- How many outcomes of the rule are retained. -/
  bound : Bound
deriving DecidableEq

namespace Rule

variable {ε : Type}

/-- The actions for an outcome. -/
def actionsFor (r : Rule ε) (outcome : Bool) : List Action :=
  if outcome then r.onTrue else r.onFalse

/-- All actions, those for true first. -/
def actions (r : Rule ε) : List Action := r.onTrue ++ r.onFalse

theorem mem_actions_iff {r : Rule ε} {a : Action} :
    a ∈ r.actions ↔ ∃ outcome, a ∈ r.actionsFor outcome := by
  rw [actions, List.mem_append]
  refine ⟨?_, ?_⟩
  · intro given
    rcases given with among | among
    · exact ⟨true, among⟩
    · exact ⟨false, among⟩
  · intro given
    obtain ⟨outcome, among⟩ := given
    cases outcome with
    | true => exact Or.inl among
    | false => exact Or.inr among

/-- The actions that wait for more outcomes than are retained. -/
def unreachable (r : Rule ε) : List Action :=
  r.actions.filter fun a => r.bound.size < a.threshold

end Rule

end RuleWatch
