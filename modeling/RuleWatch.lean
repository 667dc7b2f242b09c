import RuleWatch.Json.Form
import RuleWatch.Proofs.Condition.Chains
import RuleWatch.Proofs.Condition.Reached
import RuleWatch.Proofs.History.Renumbering
import RuleWatch.Proofs.History.Trailing
import RuleWatch.Proofs.Json.Forms
import RuleWatch.Proofs.Rule.Clauses
import RuleWatch.Proofs.RuleBook.Loading
import RuleWatch.Proofs.RuleText.Commitment
import RuleWatch.Proofs.RuleText.Concatenation
import RuleWatch.Proofs.RuleText.ConditionTexts
import RuleWatch.Proofs.RuleText.Conditions
import RuleWatch.Proofs.RuleText.Grammar
import RuleWatch.Proofs.RuleText.LiteralTexts
import RuleWatch.Proofs.RuleText.Mistakes
import RuleWatch.Proofs.RuleText.Progress
import RuleWatch.Proofs.RuleText.RuleFiles
import RuleWatch.Proofs.RuleText.StringLiterals
import RuleWatch.Proofs.RuleText.Tokens
import RuleWatch.Proofs.Run.Composition
import RuleWatch.Proofs.Run.Endings
import RuleWatch.Proofs.Run.Firing
import RuleWatch.Proofs.Run.Independence
import RuleWatch.Proofs.Run.Journal
import RuleWatch.Proofs.Run.Orderly
import RuleWatch.Proofs.Run.Reach
import RuleWatch.Proofs.Run.Succession
import RuleWatch.Proofs.Value.Mixed
import RuleWatch.RuleBook.Loading
import RuleWatch.Run.Session
