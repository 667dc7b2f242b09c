import RuleWatch.Number.Numeral
import RuleWatch.Text.Quoted
/-!
  The values that fields and action parameters hold, and their text.
-/

namespace RuleWatch

/-- A scalar value of one of four kinds. -/
inductive Value where
  | bool (b : Bool)
  | int (i : Int64)
  | float (x : Binary64)
  | string (s : String)
deriving DecidableEq

namespace Value

def kind : Value → String
  | bool _ => "bool"
  | int _ => "int"
  | float _ => "float"
  | string _ => "string"

/-- The truth value that a value holds, if it holds one. -/
def asBool? : Value → Option Bool
  | bool b => some b
  | _ => none

/-- Numbers in messages and printed rules are written in place at any size, a
whole one without a point, and of two equally near ones the larger is taken. -/
def floatLayout : Layout := ⟨.up, false, fun _ => true⟩

/-- The text of a double, with words for what is not finite. -/
def floatText (x : Binary64) : String :=
  if x.isNaN then "NaN"
  else if x.isFinite then String.ofList (floatLayout.numeral x).chars
  else if x.isNegative then "-inf" else "inf"

def boolText (b : Bool) : String := if b then "true" else "false"

/-- The text of a value: strings in quotes, the rest plain. -/
def text : Value → String
  | bool b => boolText b
  | int i => String.ofList (Numeral.ofInt i.toInt).chars
  | float x => floatText x
  | string s => Text.quote s

/-- Equality of one kind with itself. Doubles are compared as numbers, so no
number equals nothing, and an integer equals no double. -/
def equals : Value → Value → Bool
  | bool a, bool b => a == b
  | int a, int b => a == b
  | float a, float b => a.equals b
  | string a, string b => a == b
  | _, _ => false

end Value

end RuleWatch
