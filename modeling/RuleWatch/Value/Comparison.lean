import RuleWatch.Value.Basic
/-!
  Comparing two values. Values of one kind have an order, and so have an
  integer and a double, the integer taken as the double nearest to it. Truth
  values are only equal or different, and all other pairs cannot be compared.
-/

namespace RuleWatch

/-- The six questions that can be asked about two values. -/
inductive Comparison where
  | equal
  | different
  | greater
  | atLeast
  | less
  | atMost
deriving DecidableEq

namespace Comparison

def symbol : Comparison → String
  | equal => "=="
  | different => "!="
  | greater => ">"
  | atLeast => ">="
  | less => "<"
  | atMost => "<="

/-- The answer for two values that stand in a known order. -/
def accepts : Comparison → Ordering → Bool
  | equal, o => o == .eq
  | different, o => o != .eq
  | greater, o => o == .gt
  | atLeast, o => o != .lt
  | less, o => o == .lt
  | atMost, o => o != .gt

end Comparison

namespace Value

/-- The order of two values, if they have one. Truth values have none. -/
def order? : Value → Value → Option Ordering
  | int a, int b => some (compare a.toInt b.toInt)
  | float a, float b => a.compare? b
  | int a, float b => (Binary64.ofInt a.toInt).compare? b
  | float a, int b => a.compare? (Binary64.ofInt b.toInt)
  | string a, string b => some (compare a b)
  | _, _ => none

/-- The answer to `a op b`, or none if the two values cannot be compared so. -/
def compare? (a : Value) (op : Comparison) (b : Value) : Option Bool :=
  match a, b with
  | bool a, bool b =>
    match op with
    | .equal => some (a == b)
    | .different => some (a != b)
    | _ => none
  | a, b => (order? a b).map op.accepts

end Value

end RuleWatch
