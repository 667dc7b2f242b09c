import RuleWatch.Proofs.RuleText.Gaps
import RuleWatch.Proofs.RuleText.Levels
import RuleWatch.RuleText.RuleFile
/-!
  What the parsers of rule texts leave. Each is built of parsers that leave an end of their
  text, and so leaves one itself; an operand, which is defined by itself, does so because
  its definition keeps this.
-/

namespace RuleWatch.RuleText

open Grammar

/-! ## Tokens -/

theorem name_leavesSuffix : name.LeavesSuffix :=
  .bind (.oneOf _) fun _ => .bind (.run _) fun _ => .pure _

theorem keyword_leavesSuffix (w : String) : (keyword w).LeavesSuffix :=
  .bind (.word _) fun _ => .noneOf _

theorem suffix_of_stringBody {s b r : List Char} (h : StringBody s b r) : r <:+ s := by
  induction h with
  | close r => exact List.suffix_cons _ r
  | escape _ _ ih => exact ih.trans ((List.suffix_cons _ _).trans (List.suffix_cons _ _))
  | plain _ _ _ ih => exact ih.trans (List.suffix_cons _ _)

theorem string_leavesSuffix : string.LeavesSuffix := by
  intro s v r read
  obtain ⟨t, b, rfl, body, -⟩ := string_ok.1 read
  exact (suffix_of_stringBody body).trans (List.suffix_cons _ t)

theorem double_leavesSuffix : double.LeavesSuffix :=
  .bind (.optional (.char _)) fun _ => .bind (.run1 _) fun _ => .bind (.char _) fun _ =>
    .bind (.run1 _) fun _ => .pure _

theorem naturalDigits_leavesSuffix {sign : Parser Bool} (h : sign.LeavesSuffix) :
    (naturalDigits sign).LeavesSuffix := by
  refine .orElse ?_ (.bind (.char _) fun _ => .pure _)
  exact h.bind fun _ => .bind (.oneOf _) fun _ => .bind (.run _) fun _ => .pure _

theorem int_leavesSuffix : int.LeavesSuffix :=
  .mapPartial (naturalDigits_leavesSuffix (.bind (.optional (.oneOf _)) fun _ => .pure _))

theorem count_leavesSuffix : count.LeavesSuffix :=
  .mapPartial (naturalDigits_leavesSuffix (.pure false))

theorem truth_leavesSuffix {α : Type} (w : String) (a : α) :
    (do keyword w; return a : Parser α).LeavesSuffix :=
  (keyword_leavesSuffix w).bind fun _ => .pure a

theorem value_leavesSuffix : value.LeavesSuffix := by
  refine trivia_leavesSuffix.bind fun _ => .wanting ?_
  refine .orElse (string_leavesSuffix.map _) (.orElse (truth_leavesSuffix _ _) (.orElse (truth_leavesSuffix _ _) ?_))
  exact .orElse (double_leavesSuffix.map _) (int_leavesSuffix.map _)

theorem operator_leavesSuffix : operator.LeavesSuffix := by
  have symbol (w : List Char) (op : Comparison) : (do Parser.word w; return op : Parser Comparison).LeavesSuffix :=
    .bind (.word w) fun _ => .pure op
  exact .orElse (symbol _ _) (.orElse (symbol _ _) (.orElse (symbol _ _) (.orElse (symbol _ _)
    (.orElse (symbol _ _) (symbol _ _)))))

/-! ## Conditions -/

theorem comparison_leavesSuffix : comparison.LeavesSuffix := by
  refine name_leavesSuffix.bind fun field => ?_
  refine .bind (.optional (trivia_leavesSuffix.bind fun _ => operator_leavesSuffix)) fun op => ?_
  cases op with
  | some op => exact value_leavesSuffix.committed.bind fun _ => .pure _
  | none => exact .pure _

theorem either_leavesSuffix (w w' : String) : (either w w').LeavesSuffix :=
  .orElse (keyword_leavesSuffix w) (keyword_leavesSuffix w')

section
variable {item : Parser Condition} (h : item.LeavesSuffix)
include h

theorem link_leavesSuffix {sign : Parser Unit} (k : sign.LeavesSuffix) : (link item sign).LeavesSuffix :=
  trivia_leavesSuffix.bind fun _ => k.bind fun _ => h.committed

theorem chain_leavesSuffix {sign : Parser Unit} (k : sign.LeavesSuffix)
    (join : Condition → Condition → Condition) : (chain item sign join).LeavesSuffix :=
  h.bind fun _ => (link_leavesSuffix h k).many.bind fun _ => .pure _

theorem conjunction_leavesSuffix : (conjunction item).LeavesSuffix :=
  chain_leavesSuffix h (either_leavesSuffix _ _) _

theorem disjunction_leavesSuffix : (disjunction item).LeavesSuffix :=
  trivia_leavesSuffix.bind fun _ => chain_leavesSuffix (conjunction_leavesSuffix h) (either_leavesSuffix _ _) _

theorem primary_leavesSuffix : (primary item).LeavesSuffix := by
  refine trivia_leavesSuffix.bind fun _ => .wanting ?_
  refine .orElse ?_ (.orElse (truth_leavesSuffix _ _) (.orElse (truth_leavesSuffix _ _) comparison_leavesSuffix))
  exact .bind (.char _) fun _ => h.bind fun _ => trivia_leavesSuffix.bind fun _ =>
    .bind (.committed (.char _)) fun _ => .pure _

theorem operandStep_leavesSuffix : (operandStep item).LeavesSuffix := by
  refine trivia_leavesSuffix.bind fun _ => .bind (.optional (either_leavesSuffix _ _)) fun sign => ?_
  cases sign with
  | some _ => exact h.committed.bind fun _ => .pure _
  | none => exact primary_leavesSuffix (disjunction_leavesSuffix h)

end

theorem operand_leavesSuffix : operand.LeavesSuffix := .recursive fun _ h => operandStep_leavesSuffix h

theorem condition_leavesSuffix : condition.LeavesSuffix := disjunction_leavesSuffix operand_leavesSuffix

theorem Level.leavesSuffix (l : Level) : (Level.parser l).LeavesSuffix := by
  have conjunctions := conjunction_leavesSuffix operand_leavesSuffix
  cases l with
  | condition => exact condition_leavesSuffix
  | disjunction => exact chain_leavesSuffix conjunctions (either_leavesSuffix _ _) _
  | conjunction => exact conjunctions
  | operand => exact operand_leavesSuffix
  | primary => exact primary_leavesSuffix condition_leavesSuffix

/-! ## Rules -/

theorem param_leavesSuffix : param.LeavesSuffix :=
  trivia_leavesSuffix.bind fun _ => name_leavesSuffix.committed.wanting.bind fun _ =>
    trivia_leavesSuffix.bind fun _ => .bind (.committed (.char _)) fun _ =>
    value_leavesSuffix.committed.bind fun _ => .pure _

/-- The comma between two parameters. -/
def comma : Parser Unit := do
  trivia
  let _ ← Parser.char ','

theorem comma_leavesSuffix : comma.LeavesSuffix :=
  trivia_leavesSuffix.bind fun _ => .bind (.char _) fun _ => .pure _

theorem threshold?_leavesSuffix : threshold?.LeavesSuffix :=
  .optional <| trivia_leavesSuffix.bind fun _ => (keyword_leavesSuffix _).bind fun _ =>
    trivia_leavesSuffix.bind fun _ => count_leavesSuffix.committed.wanting

theorem params?_leavesSuffix : params?.LeavesSuffix :=
  .optional <| trivia_leavesSuffix.bind fun _ => (keyword_leavesSuffix _).bind fun _ =>
    (param_leavesSuffix.separated comma_leavesSuffix).committed

theorem action_leavesSuffix : action.LeavesSuffix :=
  trivia_leavesSuffix.bind fun _ => name_leavesSuffix.mapPartial.bind fun _ =>
    threshold?_leavesSuffix.bind fun _ => params?_leavesSuffix.bind fun _ => .pure _

theorem branch_leavesSuffix : branch.LeavesSuffix := by
  refine trivia_leavesSuffix.bind fun _ => (keyword_leavesSuffix _).bind fun _ => trivia_leavesSuffix.bind fun _ => ?_
  refine .bind (.wanting (.committed (.orElse (truth_leavesSuffix _ _) (truth_leavesSuffix _ _)))) fun _ => ?_
  exact trivia_leavesSuffix.bind fun _ => .bind (.committed (.char _)) fun _ =>
    action_leavesSuffix.many.bind fun _ => .pure _

theorem historyNote_leavesSuffix : historyNote.LeavesSuffix := by
  refine trivia_leavesSuffix.bind fun _ => .bind (.char _) fun _ => trivia_leavesSuffix.bind fun _ => ?_
  refine (keyword_leavesSuffix _).bind fun _ => trivia_leavesSuffix.bind fun _ => ?_
  exact count_leavesSuffix.committed.wanting.bind fun _ => trivia_leavesSuffix.bind fun _ =>
    .bind (.committed (.char _)) fun _ => .pure _

theorem rule_leavesSuffix : rule.LeavesSuffix := by
  refine trivia_leavesSuffix.bind fun _ => (keyword_leavesSuffix _).bind fun _ => trivia_leavesSuffix.bind fun _ => ?_
  refine name_leavesSuffix.committed.wanting.bind fun _ => historyNote_leavesSuffix.optional.bind fun _ => ?_
  refine trivia_leavesSuffix.bind fun _ => .bind (.committed (.char _)) fun _ => ?_
  exact condition_leavesSuffix.committed.wanting.bind fun _ => branch_leavesSuffix.many.bind fun _ => .pure _

end RuleWatch.RuleText
