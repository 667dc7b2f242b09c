import RuleWatch.Event
import RuleWatch.Run.Script
/-!
  Running rules. A run evaluates the condition, records the outcome, and then
  goes through the actions for that outcome: one whose threshold the streak
  reaches is carried out, the others wait. What fails in an action is noted and
  hinders nothing else. If the condition cannot be evaluated, nothing happens.

  Handlers may run rules themselves. Such runs within runs are allowed up to a
  given depth.
-/

namespace RuleWatch

/-- Decides whether a condition holds in a context. -/
abbrev Evaluator (σ ε ι : Type) := σ → ε → Except ι Bool

/-- What runs depend on and change. -/
structure State (σ : Type) where
  context : σ
  history : History
  clock : Clock
  /-- The events so far, oldest first. -/
  journal : List Event

namespace State

variable {σ : Type}

/-- The state after an event. -/
def tell (s : State σ) (e : Event) : State σ := { s with journal := s.journal ++ [e] }

def start (context : σ) (clock : Clock) : State σ := ⟨context, .empty, clock, []⟩

/-- Records an outcome of a rule at the next reading of the clock. -/
def record (s : State σ) (rule : RuleId) (bound : Bound) (outcome : Bool) :
    Streak × State σ :=
  let r := s.history.record rule bound outcome s.clock.now
  (r.streak,
    { s with history := r.history, clock := s.clock.tick }.tell
      (.recorded rule r.record.sequence outcome r.evicted))

def forget (s : State σ) (rule : RuleId) : State σ :=
  { s with history := s.history.forget rule }

def clear (s : State σ) : State σ := { s with history := s.history.clear }

end State

/-- How rules are run from within handlers. -/
abbrev NestedRun (σ ε ι : Type) := Rule ε → State σ → Except (Refusal ι) Report × State σ

variable {σ ε ι : Type}

/-- Carries out a script. -/
def Script.play (nested : NestedRun σ ε ι) : Script σ ε ι → State σ → Except Failure Unit × State σ
  | .done ending, s => (ending, s)
  | .look next, s => (next s.context).play nested s
  | .write context next, s => next.play nested { s with context }
  | .run rule next, s =>
    let (answer, s) := nested rule s
    (next answer).play nested s
  | .recall rule next, s => (next (s.history.of rule)).play nested s
  | .forget rule next, s => (next (s.history.remembers rule)).play nested (s.forget rule)
  | .clear next, s => next.play nested s.clear

/-- How conditions are evaluated, and how handlers are found. -/
structure Runner (σ ε ι : Type) where
  evaluate : Evaluator σ ε ι
  lookup : Lookup σ ε ι

namespace Runner

/-- Finds the handler of an action and carries it out. -/
def perform (e : Runner σ ε ι) (nested : NestedRun σ ε ι) (rule : Rule ε) (action : Action)
    (s : State σ) : Except Failure Unit × State σ :=
  match e.lookup action with
  | .error failure => (.error failure, s)
  | .ok handler => (handler rule action).play nested s

/-- Goes through one action, the streak being `hits` long. -/
def consider (e : Runner σ ε ι) (nested : NestedRun σ ε ι) (rule : Rule ε) (hits : Nat)
    (action : Action) (s : State σ) : Status × State σ :=
  if hits < action.threshold then
    (.skipped, s.tell (.waiting action.name rule.name hits action.threshold))
  else
    match e.perform nested rule action s with
    | (.ok (), s) => (.fired, s.tell (.fired action.name rule.name hits action.threshold))
    | (.error failure, s) =>
      (.failed failure.message,
        s.tell (.failed action.name rule.name hits action.threshold failure.message))

/-- Goes through actions in order. -/
def considerAll (e : Runner σ ε ι) (nested : NestedRun σ ε ι) (rule : Rule ε) (hits : Nat) :
    List Action → State σ → List ActionReport × State σ
  | [], s => ([], s)
  | action :: rest, s =>
    let (status, s) := e.consider nested rule hits action s
    let (reports, s) := e.considerAll nested rule hits rest s
    (⟨action.name, action.threshold, status⟩ :: reports, s)

/-- Runs a rule, given how rules are run within it. -/
def runWith (e : Runner σ ε ι) (nested : NestedRun σ ε ι) (rule : Rule ε) (s : State σ) :
    Except ι Report × State σ :=
  match e.evaluate s.context rule.condition with
  | .error error => (.error error, s)
  | .ok outcome =>
    let (streak, s) := s.record rule.id rule.bound outcome
    let s := s.tell (.evaluated rule.name outcome streak.size)
    let (actions, s) := e.considerAll nested rule streak.size (rule.actionsFor outcome) s
    (.ok ⟨rule.name, streak, actions⟩, s)

/-- Runs a rule, with runs within runs up to the given depth. -/
def run (e : Runner σ ε ι) : Nat → Rule ε → State σ → Except ι Report × State σ
  | 0 => e.runWith fun _ s => (.error .tooDeep, s)
  | depth + 1 => e.runWith fun rule s =>
    match e.run depth rule s with
    | (.ok report, s) => (.ok report, s)
    | (.error error, s) => (.error (.evaluation error), s)

/-- Runs rules in order, up to the first that cannot be evaluated. -/
def runAll (e : Runner σ ε ι) (depth : Nat) :
    List (Rule ε) → State σ → Except ι (List Report) × State σ
  | [], s => (.ok [], s)
  | rule :: rest, s =>
    match e.run depth rule s with
    | (.error error, s) => (.error error, s)
    | (.ok report, s) =>
      let (reports, s) := e.runAll depth rest s
      (reports.map (report :: ·), s)

end Runner

end RuleWatch
