import RuleWatch.Rule.Basic
/-!
  Diagnostic events: what is told about building rules, loading rule books and
  running rules, each with a level, a message and named details.
-/

namespace RuleWatch

/-- How much an event matters. -/
inductive Level where
  | trace
  | debug
  | info
  | warn
  | error
deriving DecidableEq

def Level.text : Level → String
  | trace => "TRACE"
  | debug => "DEBUG"
  | info => "INFO"
  | warn => "WARN"
  | error => "ERROR"

inductive Event where
  /-- An action waits for more outcomes than its rule retains. -/
  | unreachable (rule action : String) (threshold bound : Nat)
  | loaded (rules : Nat)
  /-- An outcome has been recorded, and old ones were evicted for it. -/
  | recorded (rule : RuleId) (sequence : Nat) (result : Bool) (evicted : Nat)
  /-- A rule has been evaluated, and its streak is now so long. -/
  | evaluated (rule : String) (outcome : Bool) (streak : Nat)
  /-- An action waits for more outcomes. -/
  | waiting (action rule : String) (hits threshold : Nat)
  /-- An action has run to its end. -/
  | fired (action rule : String) (hits threshold : Nat)
  /-- An action was due and failed. -/
  | failed (action rule : String) (hits threshold : Nat) (message : String)
deriving DecidableEq

namespace Event

def level : Event → Level
  | unreachable .. => .warn
  | loaded _ => .debug
  | recorded .. => .trace
  | evaluated .. => .debug
  | waiting .. => .trace
  | fired .. => .info
  | failed .. => .error

def message : Event → String
  | unreachable .. => "action threshold exceeds retained history and will never fire"
  | loaded _ => "loaded rule book"
  | recorded .. => "recorded evaluation"
  | evaluated .. => "rule evaluated"
  | waiting .. => "action below threshold"
  | fired .. => "action fired"
  | failed .. => "action failed"

/-- The details of an event; `nameOf` says how to write an identity. -/
def details (nameOf : RuleId → String) : Event → List (String × String)
  | unreachable rule action threshold bound =>
    [("rule", rule), ("action", action), ("hits", threshold.repr), ("max_history", bound.repr)]
  | loaded rules => [("rules", rules.repr)]
  | recorded rule sequence result evicted =>
    [("rule", nameOf rule), ("sequence", sequence.repr), ("result", Value.boolText result),
     ("evicted", evicted.repr)]
  | evaluated rule outcome streak =>
    [("rule", rule), ("outcome", Value.boolText outcome), ("streak", streak.repr)]
  | waiting action rule hits threshold =>
    [("action", action), ("rule", rule), ("hits", hits.repr), ("threshold", threshold.repr)]
  | fired action rule hits threshold =>
    [("action", action), ("rule", rule), ("hits", hits.repr), ("threshold", threshold.repr)]
  | failed action rule hits threshold message =>
    [("action", action), ("rule", rule), ("hits", hits.repr), ("threshold", threshold.repr),
     ("error", message)]

end Event

/-- What is told when a rule has been built: one event for each action that can
never fire. -/
def Rule.warnings {ε : Type} (r : Rule ε) : List Event :=
  r.unreachable.map fun a => .unreachable r.name a.name a.threshold r.bound.size

end RuleWatch
