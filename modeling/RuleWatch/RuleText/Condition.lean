import RuleWatch.RuleText.Token
import RuleWatch.Condition.Basic
/-!
  Conditions in rule texts. OR binds weakest, then AND, then NOT; chains of one
  operator group to the left. Whatever follows NOT, AND, OR or a comparison
  operator must be there, and so must the parenthesis that closes another.
-/

namespace RuleWatch.RuleText

/-- A field alone, or compared with a literal. -/
def comparison : Parser Condition := do
  let field ← name
  match ← Parser.optional? (do trivia; operator) with
  | some op => do
    let literal ← Parser.committed value
    return .compare field op literal
  | none => return .truthy field

/-- A condition in parentheses, a constant, or a field. -/
def primary (disjunction : Parser Condition) : Parser Condition := do
  trivia
  Parser.wanting "expression" <|
    (do let _ ← Parser.char '('
        let inner ← disjunction
        trivia
        let _ ← Parser.committed (Parser.char ')')
        return inner) <|>
    (do keyword "true"; return .const true) <|>
    (do keyword "false"; return .const false) <|>
    comparison

/-- Items joined by an operator, grouped to the left. -/
def chain (item : Parser Condition) (operator : Parser Unit)
    (join : Condition → Condition → Condition) : Parser Condition := do
  let first ← item
  let others ← Parser.many (do trivia; operator; Parser.committed item)
  return others.foldl join first

/-- Operands joined by AND. -/
def conjunction (operand : Parser Condition) : Parser Condition :=
  chain operand (keyword "AND" <|> keyword "and") .and

/-- Conjunctions joined by OR. -/
def disjunction (operand : Parser Condition) : Parser Condition := do
  trivia
  chain (conjunction operand) (keyword "OR" <|> keyword "or") .or

/-- An operand, given how to read the operands within it. -/
def operandStep (operand : Parser Condition) : Parser Condition := do
  trivia
  match ← Parser.optional? (keyword "NOT" <|> keyword "not") with
  | some _ => do
    let inner ← Parser.committed operand
    return .not inner
  | none => primary (disjunction operand)

/-- A condition without an open AND or OR. -/
def operand : Parser Condition := Parser.recursive operandStep

def condition : Parser Condition := disjunction operand

end RuleWatch.RuleText
