import Std.Data.ExtTreeMap
import RuleWatch.Value.Basic
/-!
  Named values.
-/

namespace RuleWatch

/-- Values under names, in the order of the names. -/
abbrev Fields := Std.ExtTreeMap String Value

/-- Equality of fields, their values compared as values. -/
def Fields.equals (a b : Fields) : Bool :=
  a.keys == b.keys && (a.values.zip b.values).all fun (v, w) => v.equals w

end RuleWatch
