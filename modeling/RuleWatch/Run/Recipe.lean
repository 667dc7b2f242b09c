import RuleWatch.Run.Directory
/-!
  Handlers described by lists of effects, over a context of fields and a log.
  Rules are named by their places in a list.
-/

namespace RuleWatch

/-- What a handler noted: for which action of which rule, and the fields then. -/
structure LogEntry where
  rule : String
  action : Action
  fields : Fields
deriving DecidableEq

/-- Fields, and what handlers have noted, oldest first. -/
structure Scene where
  fields : Fields
  log : List LogEntry
deriving DecidableEq

/-- One effect of a handler. -/
inductive Effect where
  /-- Notes the rule, the action and the fields. -/
  | log
  /-- Adds one to an integer field, taking anything else for zero. -/
  | count (key : String)
  | set (key : String) (value : Value)
  | remove (key : String)
  /-- Copies a parameter of the action, or removes the field if there is none. -/
  | copyParam (key param : String)
  /-- Sets a field to the number of records of a rule. -/
  | retained (key : String) (rule : Nat)
  /-- Runs a rule, and fails if that fails. -/
  | run (rule : Nat)
  | forget (rule : Nat)
  | clear
  | fail (failure : Failure)
deriving DecidableEq

/-- A handler: its effects in order, and whether finding it fails. -/
structure Recipe where
  effects : List Effect
  unavailable : Option Failure
deriving DecidableEq

namespace Effect

/-- One more than an integer field, or one. -/
def increment : Option Value → Value
  | some (.int i) => .int (i + 1)
  | _ => .int 1

variable {ε ι : Type}

/-- Changes the fields of the scene and goes on. -/
def change (f : Fields → Fields) (next : Script Scene ε ι) : Script Scene ε ι :=
  .look fun scene => .write { scene with fields := f scene.fields } next

/-- Goes on with the rule at a place, if there is one. -/
def withRule (rules : List (Rule ε)) (i : Nat) (next : Script Scene ε ι)
    (use : Rule ε → Script Scene ε ι) : Script Scene ε ι :=
  match rules[i]? with
  | some rule => use rule
  | none => next

/-- The script of a list of effects for an action of a rule. -/
def script (describe : ι → String) (rules : List (Rule ε)) (rule : Rule ε) (action : Action) :
    List Effect → Script Scene ε ι
  | [] => .done (.ok ())
  | effect :: rest =>
    let next := script describe rules rule action rest
    match effect with
    | log => .look fun scene =>
      .write { scene with log := scene.log ++ [⟨rule.name, action, scene.fields⟩] } next
    | count key => change (fun fields => fields.insert key (increment fields[key]?)) next
    | set key value => change (fun fields => fields.insert key value) next
    | remove key => change (fun fields => fields.erase key) next
    | copyParam key param =>
      match action.params[param]? with
      | some value => change (fun fields => fields.insert key value) next
      | none => change (fun fields => fields.erase key) next
    | retained key i => withRule rules i next fun other =>
      .recall other.id fun records =>
        change (fun fields => fields.insert key (.int (Int64.ofNat records.length))) next
    | run i => withRule rules i next fun other =>
      .run other fun
        | .ok _ => next
        | .error refusal => .done (.error (.error (refusal.message describe)))
    | forget i => withRule rules i next fun other => .forget other.id fun _ => next
    | clear => .clear next
    | fail failure => .done (.error failure)

end Effect

namespace Recipe

variable {ε ι : Type}

/-- The handler that has the effects. -/
def handler (describe : ι → String) (rules : List (Rule ε)) (p : Recipe) : Handler Scene ε ι :=
  fun rule action => Effect.script describe rules rule action p.effects

/-- Finds handlers in a directory. -/
def lookup (describe : ι → String) (rules : List (Rule ε)) (recipes : Directory Recipe) :
    Lookup Scene ε ι := fun action =>
  (recipes.find action).map (·.handler describe rules)

/-- Finds handlers in a directory, unless they are not available. -/
def selectiveLookup (describe : ι → String) (rules : List (Rule ε)) (recipes : Directory Recipe) :
    Lookup Scene ε ι := fun action =>
  match recipes[action.name]? with
  | none => .error (.error ("cannot resolve " ++ action.name))
  | some p =>
    match p.unavailable with
    | some failure => .error failure
    | none => .ok (p.handler describe rules)

end Recipe

end RuleWatch
