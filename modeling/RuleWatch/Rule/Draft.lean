import RuleWatch.Rule.Basic
/-!
  Drafts of rules, and building a rule from a draft. A draft is refused if an
  action waits for no outcome at all, or else if no outcome is to be retained. A
  draft that does not say how many outcomes to retain gets the least number that
  lets each of its actions fire.
-/

namespace RuleWatch

/-- Why rules are refused. -/
inductive RuleError where
  | zeroHistory (rule : String)
  | zeroThreshold (rule action : String)
  | duplicateName (name : String)
deriving DecidableEq

/-- The message for a refusal. -/
def RuleError.message : RuleError → String
  | zeroHistory rule =>
    "rule '" ++ rule ++ "' must retain at least one evaluation (max history is 0)"
  | zeroThreshold rule action =>
    "action '" ++ action ++ "' in rule '" ++ rule ++ "' has a consecutive-hit threshold of 0"
  | duplicateName name => "duplicate rule name '" ++ name ++ "'"

/-- A rule that has not been checked yet. -/
structure Draft (ε : Type) where
  name : String
  condition : ε
  onTrue : List Action := []
  onFalse : List Action := []
  /-- How many outcomes to retain, if the draft says so. -/
  history : Option Nat := none
deriving DecidableEq

/-- One addition to a draft. -/
inductive Clause where
  | onTrue (a : Action)
  | onFalse (a : Action)
  /-- A later one replaces an earlier one. -/
  | history (n : Nat)
deriving DecidableEq

namespace Draft

variable {ε : Type}

/-- The draft with one more clause. -/
def add (d : Draft ε) : Clause → Draft ε
  | .onTrue a => { d with onTrue := d.onTrue ++ [a] }
  | .onFalse a => { d with onFalse := d.onFalse ++ [a] }
  | .history n => { d with history := some n }

/-- The draft that a list of clauses describes. -/
def ofClauses (name : String) (condition : ε) (clauses : List Clause) : Draft ε :=
  clauses.foldl add { name, condition }

/-- All actions, those for true first. -/
def actions (d : Draft ε) : List Action := d.onTrue ++ d.onFalse

/-- The largest threshold, at least one. -/
def largestThreshold (d : Draft ε) : Nat :=
  (d.actions.map Action.threshold).foldl max 1

/-- The number of outcomes to retain. -/
def retained (d : Draft ε) : Nat := d.history.getD d.largestThreshold

/-- The rule that a draft describes, under the given identity. -/
def build (d : Draft ε) (id : RuleId) : Except RuleError (Rule ε) :=
  match d.actions.find? (·.threshold = 0) with
  | some a => .error (.zeroThreshold d.name a.name)
  | none =>
    if h : 0 < d.retained then
      .ok ⟨id, d.name, d.condition, d.onTrue, d.onFalse, ⟨d.retained, h⟩⟩
    else .error (.zeroHistory d.name)

end Draft

end RuleWatch
