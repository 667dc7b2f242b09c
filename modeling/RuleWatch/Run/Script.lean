import RuleWatch.History.Basic
import RuleWatch.Run.Report
/-!
  Handlers of actions as scripts: what a handler does, step by step, each step
  depending on the answers to the steps before. A script may read and write the
  context, run rules and look at or forget their histories, and it ends well or
  with a failure.
-/

namespace RuleWatch

/-- How finding or running a handler fails. -/
inductive Failure where
  /-- With an error of its own. -/
  | error (message : String)
  /-- By breaking off, with a text or with something that is none. -/
  | crash (text : Option String)
deriving DecidableEq

def Failure.message : Failure → String
  | error message => message
  | crash text => "panicked: " ++ text.getD "non-string panic payload"

/-- Why a rule that a handler wants to run gives no outcome. -/
inductive Refusal (ι : Type) where
  /-- The condition cannot be evaluated. -/
  | evaluation (e : ι)
  /-- Too many runs are under way within each other. -/
  | tooDeep
deriving DecidableEq

/-- The message for a refusal, given the messages of evaluation errors. -/
def Refusal.message {ι : Type} (describe : ι → String) : Refusal ι → String
  | evaluation e => describe e
  | tooDeep => "too deep"

/-- The steps of a handler, over contexts `σ`, rules with conditions in `ε` and
evaluation errors `ι`. -/
inductive Script (σ ε ι : Type) where
  | done (ending : Except Failure Unit)
  | look (next : σ → Script σ ε ι)
  | write (context : σ) (next : Script σ ε ι)
  /-- Runs a rule; the answer is the report of that run, if there is one. -/
  | run (rule : Rule ε) (next : Except (Refusal ι) Report → Script σ ε ι)
  | recall (rule : RuleId) (next : List Record → Script σ ε ι)
  /-- Forgets the records of a rule; the answer is whether there were any. -/
  | forget (rule : RuleId) (next : Bool → Script σ ε ι)
  | clear (next : Script σ ε ι)

/-- What is done for an action of a rule. -/
abbrev Handler (σ ε ι : Type) := Rule ε → Action → Script σ ε ι

/-- Finds handlers of actions, or fails to. -/
abbrev Lookup (σ ε ι : Type) := Action → Except Failure (Handler σ ε ι)

end RuleWatch
