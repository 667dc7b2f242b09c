import Std.Data.ExtTreeMap
import RuleWatch.Run.Script
/-!
  Directories: handlers under the names of their actions.
-/

namespace RuleWatch

/-- Things under names, one for each name. -/
abbrev Directory (η : Type) := Std.ExtTreeMap String η

namespace Directory

variable {η : Type}

/-- The directory of the given things; of two under one name the later counts. -/
def ofEntries (entries : List (String × η)) : Directory η := Std.ExtTreeMap.ofList entries

/-- What stands under the name of an action, or the failure to find it. -/
def find (d : Directory η) (action : Action) : Except Failure η :=
  match d[action.name]? with
  | some handler => .ok handler
  | none => .error (.error ("no handler registered for action '" ++ action.name ++ "'"))

/-- The text of a directory: its names, in order. -/
def text (d : Directory η) : String :=
  "ActionRegistry \x7b actions: [" ++ ", ".intercalate (d.keys.map Text.quote) ++ "] \x7d"

end Directory

end RuleWatch
