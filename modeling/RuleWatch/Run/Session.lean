import RuleWatch.Run.Recipe
import RuleWatch.Run.Runner
/-!
  Sessions: a list of rules, a scene, and requests that change the scene, run
  rules, and look at or forget their histories. Rules are named by their places.
-/

namespace RuleWatch

/-- Why a condition gives no outcome in a session. -/
inductive EvaluationError where
  | miss (m : Miss)
  /-- The fields say that there is nothing to evaluate. -/
  | offline
deriving DecidableEq

def EvaluationError.message : EvaluationError → String
  | miss m => m.message
  | offline => "sensor offline"

namespace Evaluator

/-- Evaluates conditions. -/
def conditions (mode : Mode) : Evaluator Scene Condition EvaluationError := fun scene c =>
  (c.evaluate mode scene.fields).mapError .miss

/-- Evaluates conditions in lenient mode, unless there is a field `offline`. -/
def whileOnline : Evaluator Scene Condition EvaluationError := fun scene c =>
  if scene.fields.contains "offline" then .error .offline else conditions .lenient scene c

/-- Takes the outcome itself for the condition. -/
def outcomes : Evaluator Scene Bool EvaluationError := fun _ outcome => .ok outcome

def conditionsText : Mode → String
  | .lenient => "ExprEvaluator \x7b strict: false \x7d"
  | .strict => "ExprEvaluator \x7b strict: true \x7d"

def outcomesText : String := "Precomputed"

end Evaluator

/-- A request, with rules named by their places. -/
inductive Request where
  | set (key : String) (value : Value)
  | remove (key : String)
  /-- Stops the clock at an instant. -/
  | stopClock (t : Instant)
  | run (rule : Nat)
  /-- Runs the given rules, or all. -/
  | runAll (rules : Option (List Nat))
  | recall (rule : Nat)
  | forget (rule : Nat)
  | clear
  /-- Adds a copy of a rule to the end of the list. -/
  | clone (rule : Nat)
deriving DecidableEq

/-- The answer to a request. -/
inductive Answer where
  | nothing
  | previous (value : Option Value)
  | report (r : Except EvaluationError Report)
  | reports (rs : Except EvaluationError (List Report))
  | records (rs : List Record)
  | remembered (b : Bool)
  | place (n : Nat)
  | noSuchRule

/-- A session over rules with conditions in `ε`. -/
structure Session (ε : Type) where
  evaluate : Evaluator Scene ε EvaluationError
  /-- Finds handlers, given the rules they may name. -/
  lookup : List (Rule ε) → Lookup Scene ε EvaluationError
  /-- How deep runs may lie within runs. -/
  depth : Nat
  rules : List (Rule ε)
  state : State Scene

namespace Session

variable {ε : Type}

/-- How the rules of a session are run. -/
def runner (s : Session ε) : Runner Scene ε EvaluationError := ⟨s.evaluate, s.lookup s.rules⟩

/-- The place of the first rule with an identity. -/
def placeOf? (s : Session ε) (id : RuleId) : Option Nat := s.rules.findIdx? (·.id == id)

def fields (s : Session ε) : Fields := s.state.context.fields

def withFields (s : Session ε) (fields : Fields) : Session ε :=
  { s with state := { s.state with context := { s.state.context with fields } } }

/-- The session with what has been told and noted put away. -/
def tidy (s : Session ε) : Session ε :=
  { s with state := { s.state with journal := [], context := { s.state.context with log := [] } } }

/-- Carries out a request. What is told and noted on the way is left in the
session. -/
def step (s : Session ε) (request : Request) : Answer × Session ε :=
  let s := s.tidy
  let withRule (i : Nat) (use : Rule ε → Answer × Session ε) : Answer × Session ε :=
    match s.rules[i]? with
    | some rule => use rule
    | none => (.noSuchRule, s)
  match request with
  | .set key value => (.previous s.fields[key]?, s.withFields (s.fields.insert key value))
  | .remove key => (.previous s.fields[key]?, s.withFields (s.fields.erase key))
  | .stopClock t => (.nothing, { s with state := { s.state with clock := .stopped t } })
  | .run i => withRule i fun rule =>
    let (report, state) := s.runner.run s.depth rule s.state
    (.report report, { s with state })
  | .runAll chosen =>
    match (chosen.map fun places => places.mapM fun (i : Nat) => s.rules[i]?).getD (some s.rules) with
    | some rules =>
      let (reports, state) := s.runner.runAll s.depth rules s.state
      (.reports reports, { s with state })
    | none => (.noSuchRule, s)
  | .recall i => withRule i fun rule => (.records (s.state.history.of rule.id), s)
  | .forget i => withRule i fun rule =>
    (.remembered (s.state.history.remembers rule.id), { s with state := s.state.forget rule.id })
  | .clear => (.nothing, { s with state := s.state.clear })
  | .clone i => withRule i fun rule =>
    (.place s.rules.length, { s with rules := s.rules ++ [rule] })

def text (s : Session ε) (evaluator handlers : String) : String :=
  "RuleProcessor \x7b evaluator: " ++ evaluator ++ ", resolver: " ++ handlers ++
    ", history: " ++ s.state.history.text ++ " \x7d"

end Session

end RuleWatch
