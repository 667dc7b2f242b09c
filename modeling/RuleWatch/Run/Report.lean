import RuleWatch.History.Record
/-!
  Reports of runs.
-/

namespace RuleWatch

/-- What became of an action. -/
inductive Status where
  /-- It waits for more outcomes. -/
  | skipped
  /-- Its handler ran to its end. -/
  | fired
  /-- It was due, and finding or running its handler failed. -/
  | failed (message : String)
deriving DecidableEq

/-- What became of one action of a run. -/
structure ActionReport where
  name : String
  threshold : Nat
  status : Status
deriving DecidableEq

/-- Whether the action was due. -/
def ActionReport.triggered (a : ActionReport) : Bool := a.status != .skipped

/-- What a run of a rule did. -/
structure Report where
  rule : String
  /-- The streak that the run's own record ends. -/
  streak : Streak
  /-- The actions for the outcome, in the order of the rule. -/
  actions : List ActionReport
deriving DecidableEq

namespace Report

def outcome (r : Report) : Bool := r.streak.outcome

/-- The names of the actions that ran to their end. -/
def fired (r : Report) : List String :=
  (r.actions.filter fun a => a.status == .fired).map ActionReport.name

/-- The names of the actions that failed. -/
def failed (r : Report) : List String :=
  (r.actions.filter fun a => a.status != .skipped && a.status != .fired).map ActionReport.name

def text (r : Report) : String :=
  "rule: " ++ r.rule ++ " = " ++ Value.boolText r.outcome ++
    " (streak " ++ r.streak.size.repr ++ ")" ++
    ", fired: [" ++ ", ".intercalate r.fired ++ "]" ++
    (if r.failed.isEmpty then "" else ", failed: [" ++ ", ".intercalate r.failed ++ "]")

end Report

end RuleWatch
