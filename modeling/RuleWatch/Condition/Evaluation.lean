import RuleWatch.Condition.Basic
import RuleWatch.Value.Fields
/-!
  Evaluating a condition against the fields. A leaf misses if its field is
  absent, if its comparison is undefined, or if it asks for the truth of
  something that is no truth value. A miss is false in lenient mode and an error
  in strict mode; AND and OR look at their right side only if they need it.
-/

namespace RuleWatch

/-- What a miss counts as. -/
inductive Mode where
  | lenient
  | strict
deriving DecidableEq

/-- How a leaf can miss. -/
inductive Miss where
  | absent (field : String)
  | incomparable (field : String) (op : Comparison) (literal actual : Value)
  | notBool (field : String) (actual : Value)
deriving DecidableEq

def Miss.message : Miss → String
  | absent field => "field '" ++ field ++ "' is not set"
  | incomparable field op literal actual =>
    "cannot evaluate '" ++ field ++ " " ++ op.symbol ++ " " ++ literal.text ++
      "': field holds " ++ actual.text
  | notBool field actual => "field '" ++ field ++ "' holds " ++ actual.text ++ ", expected a bool"

/-- The outcome of a leaf that misses. -/
def Mode.onMiss : Mode → Miss → Except Miss Bool
  | lenient, _ => .ok false
  | strict, m => .error m

namespace Condition

/-- The outcome of a comparison of a field with a literal, or its miss. -/
def compareField (fields : Fields) (field : String) (op : Comparison) (literal : Value) :
    Except Miss Bool :=
  match fields[field]? with
  | none => .error (.absent field)
  | some actual =>
    match actual.compare? op literal with
    | some outcome => .ok outcome
    | none => .error (.incomparable field op literal actual)

/-- The truth value that a field holds, or its miss. -/
def truthOf (fields : Fields) (field : String) : Except Miss Bool :=
  match fields[field]? with
  | none => .error (.absent field)
  | some (.bool b) => .ok b
  | some actual => .error (.notBool field actual)

def evaluate (mode : Mode) (fields : Fields) : Condition → Except Miss Bool
  | const outcome => .ok outcome
  | compare field op literal =>
    match compareField fields field op literal with
    | .ok outcome => .ok outcome
    | .error miss => mode.onMiss miss
  | truthy field =>
    match truthOf fields field with
    | .ok outcome => .ok outcome
    | .error miss => mode.onMiss miss
  | and left right =>
    match left.evaluate mode fields with
    | .ok true => right.evaluate mode fields
    | other => other
  | or left right =>
    match left.evaluate mode fields with
    | .ok false => right.evaluate mode fields
    | other => other
  | not inner =>
    match inner.evaluate mode fields with
    | .ok outcome => .ok !outcome
    | .error miss => .error miss

end Condition

end RuleWatch
