import RuleWatch.Value.Comparison
/-!
  Conditions over named fields, and their text.
-/

namespace RuleWatch

/-- What a rule asks of the fields. -/
inductive Condition where
  | const (outcome : Bool)
  | compare (field : String) (op : Comparison) (literal : Value)
  /-- A field that holds the truth value true. -/
  | truthy (field : String)
  | and (left right : Condition)
  | or (left right : Condition)
  | not (inner : Condition)
deriving DecidableEq

namespace Condition

/-- The fields that a condition names. -/
def fields : Condition → List String
  | const _ => []
  | compare field _ _ => [field]
  | truthy field => [field]
  | and left right => left.fields ++ right.fields
  | or left right => left.fields ++ right.fields
  | not inner => inner.fields

/-- The text of a condition: every AND and OR stands in parentheses, NOT and
comparisons in none. -/
def text : Condition → String
  | const outcome => Value.boolText outcome
  | compare field op literal => field ++ " " ++ op.symbol ++ " " ++ literal.text
  | truthy field => field
  | and left right => "(" ++ left.text ++ " AND " ++ right.text ++ ")"
  | or left right => "(" ++ left.text ++ " OR " ++ right.text ++ ")"
  | not inner => "NOT " ++ inner.text

/-- Equality of conditions, their literals compared as values. -/
def equals : Condition → Condition → Bool
  | const a, const b => a == b
  | compare f op v, compare g op' w => f == g && op == op' && v.equals w
  | truthy f, truthy g => f == g
  | and a b, and c d => a.equals c && b.equals d
  | or a b, or c d => a.equals c && b.equals d
  | not a, not b => a.equals b
  | _, _ => false

end Condition

end RuleWatch
