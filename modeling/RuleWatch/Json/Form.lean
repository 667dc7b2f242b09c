import RuleWatch.History.Record
import RuleWatch.Json.Number
import RuleWatch.Json.Reader
import RuleWatch.Rule.Basic
import RuleWatch.Time.Timestamp
/-!
  JSON forms of values, conditions, actions, identities and records. A value is
  its plain JSON counterpart. A condition is an object with one member, named
  for the kind of condition. Structures are objects with one member for each
  part; they are also read from arrays of their parts in order.

  Values may not be nested deeper than `maxDepth`, parts that are not looked at
  apart.
-/

namespace RuleWatch

namespace Json

/-- How deep arrays and objects may lie within each other. -/
def maxDepth : Nat := 127

def text? : Json → Option String
  | string s => s
  | _ => none

def bool? : Json → Option Bool
  | bool b => some b
  | _ => none

/-- The count below `2 ^ 64` that a number without sign, point and exponent
holds. -/
def count? : Json → Option Nat
  | number ⟨false, whole, [], none⟩ =>
    let n := digitsValue whole
    if n < 2 ^ 64 then some n else none
  | _ => none

def ofCount (n : Nat) : Json := number (Numeral.ofInt n)

/-- The member of the given name, which must be there once. -/
def theMember? (name : String) (members : List (JsonString × Json)) : Option Json :=
  match members.filter fun m => m.1 == some name with
  | [(_, value)] => some value
  | _ => none

/-- The parts of a structure: the items of an array of as many, or the members
of the given names. Other members are not looked at but for their names, which
must be texts. -/
def parts? (names : List String) : Json → Option (List Json)
  | array items => if items.length = names.length then some items else none
  | object members =>
    if members.all fun m => m.1.isSome then names.mapM (theMember? · members) else none
  | _ => none

/-- An object with the given members. -/
def ofMembers (members : List (String × Json)) : Json :=
  object (members.map fun (name, value) => (some name, value))

end Json

/-! ## Values -/

namespace Value

/-- Doubles have the fewest digits to which they are the nearest double, the even
of two equally near ones, always a point or an exponent, and an exponent from
`10 ^ 16` on and below `10 ^ -5`. Since numbers are read in rounded steps, some
doubles are read back as a neighbour. -/
def jsonLayout : Layout := ⟨.toEven, true, fun e => -5 ≤ e && e ≤ 15⟩

/-- The JSON form of a value. What is not finite has none of its own. -/
def toJson : Value → Json
  | bool b => .bool b
  | int i => .number (Numeral.ofInt i.toInt)
  | float x => if x.isFinite then .number (jsonLayout.numeral x) else .null
  | string s => .string (some s)

/-- The value of a number: an integer if it has neither point nor exponent and
is not too large, else the double that it is read as. Minus zero is a double. -/
def ofNumeral? (n : Numeral) : Option Value :=
  let i : Int := if n.negative then -(digitsValue n.whole : Int) else digitsValue n.whole
  if n.places = [] ∧ n.exponent = none ∧ ¬(n.negative ∧ i = 0) ∧ -2 ^ 63 ≤ i ∧ i < 2 ^ 63 then
    some (int (Int64.ofInt i))
  else n.stepwise?.map float

def ofJson? : Json → Option Value
  | .bool b => some (bool b)
  | .number n => ofNumeral? n
  | .string s => s.map string
  | _ => none

end Value

/-! ## Conditions -/

namespace Comparison

def jsonName : Comparison → String
  | equal => "Eq"
  | different => "Neq"
  | greater => "Gt"
  | atLeast => "Gte"
  | less => "Lt"
  | atMost => "Lte"

def all : List Comparison := [equal, different, greater, atLeast, less, atMost]

def ofJsonName? (name : String) : Option Comparison := all.find? (·.jsonName == name)

def toJson (op : Comparison) : Json := .string (some op.jsonName)

/-- The operator that a JSON value is the form of: its name, or an object with
that name and nothing in it. -/
def ofJson? : (levels : Nat) → Json → Option Comparison
  | _, .string (some name) => ofJsonName? name
  | _ + 1, .object [(some name, .null)] => ofJsonName? name
  | _, _ => none

end Comparison

namespace Condition

def toJson : Condition → Json
  | const outcome => .ofMembers [("Const", .bool outcome)]
  | compare field op literal => .ofMembers [("Compare", .ofMembers
      [("field", .string (some field)), ("op", op.toJson), ("value", literal.toJson)])]
  | truthy field => .ofMembers [("Truthy", .string (some field))]
  | and left right => .ofMembers [("And", .array [left.toJson, right.toJson])]
  | or left right => .ofMembers [("Or", .array [left.toJson, right.toJson])]
  | not inner => .ofMembers [("Not", inner.toJson)]

/-- The comparison of a field with a literal from its parts. -/
def ofParts? (levels : Nat) : List Json → Option Condition
  | [field, op, literal] => do
    return compare (← field.text?) (← Comparison.ofJson? levels op) (← Value.ofJson? literal)
  | _ => none

/-- The condition that a JSON value is the form of, given how many levels of
arrays and objects are left. -/
def ofJson? : (levels : Nat) → Json → Option Condition
  | levels + 1, .object [(some kind, content)] =>
    if kind = "Const" then content.bool?.map const
    else if kind = "Truthy" then content.text?.map truthy
    else if kind = "Not" then (ofJson? levels content).map not
    else
      match levels with
      | 0 => none
      | levels + 1 =>
        if kind = "Compare" then
          (content.parts? ["field", "op", "value"]).bind (ofParts? levels)
        else
          match content with
          | .array [left, right] =>
            if kind = "And" then do
              return and (← ofJson? levels left) (← ofJson? levels right)
            else if kind = "Or" then do
              return or (← ofJson? levels left) (← ofJson? levels right)
            else none
          | _ => none
  | _, _ => none

end Condition

/-! ## Actions, identities and records -/

namespace Fields

def toJson (fields : Fields) : Json :=
  .ofMembers (fields.toList.map fun (name, value) => (name, value.toJson))

/-- The fields that a JSON value is the form of; of two values under one name
the later counts. -/
def ofJson? : Json → Option Fields
  | .object members => do
    let entries ← members.mapM fun (name, value) => do
      return (← name, ← Value.ofJson? value)
    return Std.ExtTreeMap.ofList entries
  | _ => none

end Fields

namespace Action

def toJson (a : Action) : Json :=
  .ofMembers [("name", .string (some a.name)), ("consecutive_hits", .ofCount a.threshold),
    ("params", Fields.toJson a.params)]

def ofJson? (j : Json) : Option Action := do
  match ← j.parts? ["name", "consecutive_hits", "params"] with
  | [name, threshold, params] =>
    return ⟨← name.text?, ← threshold.count?, ← Fields.ofJson? params⟩
  | _ => none

end Action

namespace RuleId

def toJson (i : RuleId) : Json := .string (some i.grouped)

def ofJson? (j : Json) : Option RuleId := j.text?.bind ofText?

end RuleId

namespace Record

def toJson (r : Record) : Json :=
  .ofMembers [("rule", r.rule.toJson), ("result", .bool r.result),
    ("timestamp", .string (some (Timestamp.text r.time))), ("sequence", .ofCount r.sequence)]

def ofJson? (j : Json) : Option Record := do
  match ← j.parts? ["rule", "result", "timestamp", "sequence"] with
  | [rule, result, time, sequence] =>
    return ⟨← RuleId.ofJson? rule, ← result.bool?, ← time.text?.bind Timestamp.ofText?,
      ← sequence.count?⟩
  | _ => none

end Record

end RuleWatch
