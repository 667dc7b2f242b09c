import RuleWatch.RuleText.Condition
import RuleWatch.Rule.Draft
/-!
  Rule files: a list of rules, each with a name, a condition, and lists of
  actions for its outcomes. What has begun with one of the words `rule`, `on`,
  `after` or `with` must be finished.
-/

namespace RuleWatch.RuleText

/-- A parameter of an action. -/
def param : Parser (String × Value) := do
  trivia
  let key ← Parser.wanting "parameter name" (Parser.committed name)
  trivia
  let _ ← Parser.committed (Parser.char '=')
  let v ← Parser.committed value
  return (key, v)

/-- Whether a name ends a list of actions. -/
def isReserved (word : String) : Bool := word == "rule" || word == "on"

/-- The threshold of an action, if it is given. -/
def threshold? : Parser (Option Nat) :=
  Parser.optional? do
    trivia; keyword "after"; trivia
    Parser.wanting "consecutive hit count" (Parser.committed count)

/-- The parameters of an action, if they are given. -/
def params? : Parser (Option (List (String × Value))) :=
  Parser.optional? do
    trivia; keyword "with"
    Parser.committed (Parser.separated param (do trivia; let _ ← Parser.char ','))

/-- An action, which waits for one outcome unless it says otherwise. -/
def action : Parser Action := do
  trivia
  let name ← Parser.mapPartial (fun w => if isReserved w then none else some w) name
  let threshold ← threshold?
  let params ← params?
  return Action.ofParams name (threshold.getD 1) (params.getD [])

/-- An outcome and the actions for it. -/
def branch : Parser (Bool × List Action) := do
  trivia; keyword "on"; trivia
  let outcome ← Parser.wanting "true or false" <| Parser.committed <|
    (do keyword "true"; return true) <|> (do keyword "false"; return false)
  trivia
  let _ ← Parser.committed (Parser.char ':')
  let actions ← Parser.many action
  return (outcome, actions)

/-- How many outcomes to retain. -/
def historyNote : Parser Nat := do
  trivia; let _ ← Parser.char '('; trivia; keyword "history"; trivia
  let n ← Parser.wanting "history size" (Parser.committed count)
  trivia
  let _ ← Parser.committed (Parser.char ')')
  return n

/-- The actions that the branches list for an outcome. -/
def actionsOf (outcome : Bool) (branches : List (Bool × List Action)) : List Action :=
  (branches.filter fun b => b.1 == outcome).flatMap Prod.snd

def rule : Parser (Draft Condition) := do
  trivia; keyword "rule"; trivia
  let name ← Parser.wanting "rule name" (Parser.committed name)
  let history ← Parser.optional? historyNote
  trivia
  let _ ← Parser.committed (Parser.char ':')
  let condition ← Parser.wanting "rule condition" (Parser.committed condition)
  let branches ← Parser.many branch
  return { name, condition, onTrue := actionsOf true branches,
           onFalse := actionsOf false branches, history }

def rules : Parser (List (Draft Condition)) := do
  let rules ← Parser.many rule
  trivia
  return rules

/-- A condition, and blanks and comments behind it. -/
def loneCondition : Parser Condition := do
  let c ← condition
  trivia
  return c

end RuleWatch.RuleText
