import RuleWatch.Proofs.RuleText.Commitment
import RuleWatch.Proofs.RuleText.Suffixes
/-!
  Reading rule texts makes progress. Every parser of the grammar leaves an end of its text,
  every item of its lists takes a character, and every call of a condition within a condition
  is on a shorter text. So no list stalls, the calls end, and a text holds no more rules,
  branches, actions and parts of conditions than characters (`grammar_progresses`).
-/

namespace RuleWatch.RuleText

open Grammar
open RuleWatch.Parser (LeavesSuffix Many Reads Repeats)

/-! ## The items of the lists -/

theorem comma_consumes : comma.Consumes := by
  intro s u r h
  simp only [comma, Parser.bind_ok, trivia_ok, Parser.char_ok, Parser.pure_ok] at h
  obtain ⟨-, -, rfl, -, t, ⟨mark, -⟩, -, rfl⟩ := h
  have := trivia_length (trivia_skipTrivia s)
  rw [mark, List.length_cons] at this
  omega

/-- What is read as many times as there is: the parts between tokens, the operands behind
AND and the conjunctions behind OR, the actions of a branch, the parameters behind commas,
the branches of a rule and the rules of a file. -/
inductive Item where
  | gap
  | andTail
  | orTail
  | action
  | param
  | branch
  | rule

namespace Item

abbrev Content : Item → Type
  | gap => Unit
  | andTail => Condition
  | orTail => Condition
  | action => Action
  | param => String × Value
  | branch => Bool × List Action
  | rule => Draft Condition

def parser : (i : Item) → Parser i.Content
  | gap => gapPart
  | andTail => link operand (either "AND" "and")
  | orTail => link (conjunction operand) (either "OR" "or")
  | action => RuleText.action
  | param => nextParam
  | branch => RuleText.branch
  | rule => RuleText.rule

theorem consumes (i : Item) : i.parser.Consumes := by
  cases i with
  | gap => exact gapPart_consumes
  | andTail => exact link_consumes isName_and.1 isName_and.2 Level.operand_consumes
  | orTail => exact link_consumes isName_or.1 isName_or.2 (conjunction_consumes Level.operand_consumes)
  | action => exact action_consumes
  | param => exact nextParam_consumes
  | branch => exact branch_consumes
  | rule => exact rule_consumes

end Item

theorem Item.leavesSuffix (i : Item) : i.parser.LeavesSuffix := by
  cases i with
  | gap => exact gapPart_leavesSuffix
  | andTail => exact link_leavesSuffix operand_leavesSuffix (either_leavesSuffix _ _)
  | orTail => exact link_leavesSuffix (conjunction_leavesSuffix operand_leavesSuffix) (either_leavesSuffix _ _)
  | action => exact action_leavesSuffix
  | param => exact comma_leavesSuffix.bind fun _ => param_leavesSuffix
  | branch => exact branch_leavesSuffix
  | rule => exact rule_leavesSuffix

/-! ## The parsers of the grammar -/

/-- The parsers of the grammar, the items of its lists and the levels of conditions among
them. -/
inductive Production where
  | item (i : Item)
  | level (l : Level)
  | trivia
  | name
  | keyword (w : String)
  | string
  | double
  | int
  | count
  | value
  | operator
  | comparison
  | param
  | comma
  | threshold
  | params
  | historyNote
  | rules
  | loneCondition

namespace Production

abbrev Content : Production → Type
  | item i => i.Content
  | level _ => Condition
  | trivia => Unit
  | name => String
  | keyword _ => Unit
  | string => String
  | double => Binary64
  | int => Int64
  | count => Nat
  | value => Value
  | operator => Comparison
  | comparison => Condition
  | param => String × Value
  | comma => Unit
  | threshold => Option Nat
  | params => Option (List (String × Value))
  | historyNote => Nat
  | rules => List (Draft Condition)
  | loneCondition => Condition

def parser : (x : Production) → Parser x.Content
  | item i => i.parser
  | level l => Level.parser l
  | trivia => RuleText.trivia
  | name => RuleText.name
  | keyword w => RuleText.keyword w
  | string => RuleText.string
  | double => RuleText.double
  | int => RuleText.int
  | count => RuleText.count
  | value => RuleText.value
  | operator => RuleText.operator
  | comparison => RuleText.comparison
  | param => RuleText.param
  | comma => RuleText.comma
  | threshold => threshold?
  | params => params?
  | historyNote => RuleText.historyNote
  | rules => RuleText.rules
  | loneCondition => RuleText.loneCondition

theorem leavesSuffix (x : Production) : x.parser.LeavesSuffix := by
  cases x with
  | item i => exact i.leavesSuffix
  | level l => exact l.leavesSuffix
  | trivia => exact trivia_leavesSuffix
  | name => exact name_leavesSuffix
  | keyword w => exact keyword_leavesSuffix w
  | string => exact string_leavesSuffix
  | double => exact double_leavesSuffix
  | int => exact int_leavesSuffix
  | count => exact count_leavesSuffix
  | value => exact value_leavesSuffix
  | operator => exact operator_leavesSuffix
  | comparison => exact comparison_leavesSuffix
  | param => exact param_leavesSuffix
  | comma => exact comma_leavesSuffix
  | threshold => exact threshold?_leavesSuffix
  | params => exact params?_leavesSuffix
  | historyNote => exact historyNote_leavesSuffix
  | rules => exact rule_leavesSuffix.many.bind fun _ => trivia_leavesSuffix.bind fun _ => .pure _
  | loneCondition => exact condition_leavesSuffix.bind fun _ => trivia_leavesSuffix.bind fun _ => .pure _

end Production

/-! ## How much a text holds -/

/-- A rule as it is read, its branches still apart. -/
structure RuleParts where
  name : String
  history : Option Nat
  condition : Condition
  branches : List (Bool × List Action)

namespace RuleParts

def draft (p : RuleParts) : Draft Condition where
  name := p.name
  condition := p.condition
  onTrue := actionsOf true p.branches
  onFalse := actionsOf false p.branches
  history := p.history

/-- How much a rule holds: itself, its branches, its actions and the parts of its condition. -/
def size (p : RuleParts) : Nat :=
  1 + p.branches.length + p.draft.actions.length + p.condition.nodes

end RuleParts

def ruleParts : Parser RuleParts := do
  let (name, history, condition) ← ruleHead
  let branches ← Parser.many branch
  return { name, history, condition, branches }

theorem rule_eq_draft : rule = RuleParts.draft <$> ruleParts := by
  rw [rule_eq]
  simp [ruleParts, RuleParts.draft]

/-- Each action of a branch is an action for one of the two outcomes. -/
theorem length_actionsOf (branches : List (Bool × List Action)) :
    (actionsOf true branches).length + (actionsOf false branches).length + branches.length =
      (branches.map fun b => b.2.length + 1).sum := by
  induction branches with
  | nil => rfl
  | cons b branches ih =>
    rw [actionsOf_cons, actionsOf_cons, List.map_cons, List.sum_cons, List.length_cons, ← ih]
    cases b.1 <;> simp only [List.length_append, if_true, if_false, reduceCtorEq] <;> omega

theorem ruleHead_nodes {s r : List Char} {head : String × Option Nat × Condition}
    (h : ruleHead s = .ok head r) : head.2.2.nodes + 1 + r.length ≤ s.length := by
  obtain ⟨s₁, s₂, gap, word, h⟩ := (clause_ok isName_rule).1 h
  simp only [Parser.bind_ok, trivia_ok, Parser.wanting_ok, Parser.committed_ok, name_ok, Parser.char_ok,
    Parser.pure_ok] at h
  obtain ⟨-, -, rfl, name, s₄, is_name, n, s₅, note, -, -, rfl, -, s₆, ⟨colon, -⟩, c, s₇, read, rfl, rfl⟩ := h
  have := trivia_length gap
  have := name_length (name_of_word word isName_rule)
  have := trivia_length (trivia_skipTrivia s₂)
  have := name_length is_name
  have := historyNote_length (historyNote_sound note)
  have := trivia_length (colon ▸ trivia_skipTrivia s₅)
  have := phrase_nodes (condition_sound _ _ _ read)
  simp only [List.length_cons] at *
  omega

/-- A rule holds no more than the characters that it takes. -/
theorem ruleParts_size {s r : List Char} {p : RuleParts} (h : ruleParts s = .ok p r) :
    p.size + r.length ≤ s.length := by
  simp only [ruleParts, Parser.bind_ok, Parser.pure_ok] at h
  obtain ⟨⟨name, history, condition⟩, t, head, branches, t', items, rfl, rfl⟩ := h
  obtain ⟨items, -⟩ := (Parser.many_ok branch_consumes).1 items
  have : condition.nodes + 1 + t.length ≤ s.length := ruleHead_nodes head
  have := (items.imp branch_sound).weight_le (w := fun b => b.2.length + 1) fun _ _ _ => branch_weight
  have := length_actionsOf branches
  simp only [RuleParts.size, RuleParts.draft, Draft.actions, List.length_append]
  omega

/-- What is read as rules is read as rules whose branches are still apart. -/
theorem parseRules_parts {text : String} {drafts : List (Draft Condition)} (h : parseRules text = .ok drafts) :
    ∃ ps r, ruleParts.many text.toList = .ok ps r ∧ drafts = ps.map RuleParts.draft := by
  rw [parseRules, parse_ok, rules, rule_eq_draft, Parser.many_map] at h
  simp only [Parser.bind_ok, Parser.map_ok, trivia_ok, Parser.pure_ok] at h
  obtain ⟨ds, r, ⟨ps, read, rfl⟩, -, -, -, rfl, -⟩ := h
  exact ⟨ps, r, read, rfl⟩

theorem ruleParts_consumes : ruleParts.Consumes := by
  intro s p r h
  have := ruleParts_size h
  rw [RuleParts.size] at this
  omega

/-- **Reading makes progress.**

* Every parser of the grammar leaves an end of its text.
* Every item of a list takes a character, and so does the comma between two parameters; read
  with no bound on their number, the items give on every text the answer of the list, and the
  list does not stall. Blanks and comments are such a list.
* The levels of a condition call one another as their definitions say. No call is on a longer
  text, and those of a condition or an operand by an operand or a primary are on a shorter
  one: behind the parenthesis, or behind the NOT. No chain of calls goes on for ever, and calls
  within calls down to a depth fixed by the text give the answer, whatever stands below.
* The rules read from a text, with their branches, their actions and the parts of their
  conditions, are no more than its characters, and so are the parts of a condition that
  stands alone. -/
theorem grammar_progresses :
    (∀ x : Production, x.parser.LeavesSuffix) ∧
    (∀ i : Item, i.parser.Consumes ∧ ∀ s o, Repeats i.parser s o ↔ o = some (i.parser.many s)) ∧
    comma.Consumes ∧
    trivia = (do let _ ← Item.gap.parser.many) ∧
    (∀ l, Level.parser l = Level.body Level.parser l) ∧
    (∀ l s l' t, Level.Calls l s l' t → t.length ≤ s.length ∧
      (l ∈ [.operand, .primary] → l' ∈ [.condition, .operand] → t.length < s.length)) ∧
    (∀ s t, Level.Calls .primary s .condition t ↔ skipTrivia none s = '(' :: t) ∧
    (∀ s t, Level.Calls .operand s .operand t ↔
      Word "NOT" (skipTrivia none s) t ∨ Word "not" (skipTrivia none s) t) ∧
    (WellFounded fun x y : Level × List Char => Level.Calls y.1 y.2 x.1 x.2) ∧
    (∀ bottom n l s, Level.height l s < n → Level.unfolded bottom n l s = Level.parser l s) ∧
    (∀ s ps r, Many ruleParts.Reads s ps r → (ps.map RuleParts.size).sum + r.length ≤ s.length) ∧
    (∀ text drafts, parseRules text = .ok drafts → ∃ ps r, ruleParts.many text.toList = .ok ps r ∧
      drafts = ps.map RuleParts.draft ∧ (ps.map RuleParts.size).sum ≤ text.length) ∧
    ∀ text c, parseCondition text = .ok c → c.nodes ≤ text.length := by
  have sizes (s : List Char) (ps : List RuleParts) (r : List Char) (items : Many ruleParts.Reads s ps r) :
      (ps.map RuleParts.size).sum + r.length ≤ s.length := items.weight_le (w := RuleParts.size) fun _ _ _ => ruleParts_size
  refine ⟨Production.leavesSuffix, ?_, comma_consumes, trivia_eq, Level.parser_eq, ?_,
    fun _ _ => Level.calls_primary, fun _ _ => Level.calls_operand, Level.calls_wellFounded, ?_, sizes, ?_, ?_⟩
  · intro i
    exact ⟨i.consumes, fun s o => Parser.repeats_iff i.consumes⟩
  · intro l s l' t call
    refine ⟨call.length_le, ?_⟩
    intro caller called
    apply call.length_lt
    simp only [List.mem_cons, List.not_mem_nil, or_false] at caller called
    rcases caller with rfl | rfl <;> rcases called with rfl | rfl <;> decide
  · intro bottom n l s deep
    exact Level.unfolded_eq bottom deep
  · intro text drafts h
    obtain ⟨ps, r, read, same⟩ := parseRules_parts h
    have := sizes _ ps r ((Parser.many_ok ruleParts_consumes).1 read).1
    rw [String.length_toList] at this
    exact ⟨ps, r, read, same, by omega⟩
  · intro text c h
    obtain ⟨r, read, -⟩ := parseCondition_ok.1 h
    have := phrase_nodes (condition_sound _ _ _ read)
    rw [String.length_toList] at this
    omega

/-- A comment that a carriage return and a line feed end, a NOT in front of a parenthesis, and
a rule with both. -/
theorem grammar_progresses_commented :
    (gapPart "# y\r\nz".toList = .ok () "\r\nz".toList ∧ "\r\nz".toList <:+ "# y\r\nz".toList ∧
      "\r\nz".toList.length < "# y\r\nz".toList.length) ∧
    (Level.Calls .operand " NOT (x)".toList .operand " (x)".toList ∧
      " (x)".toList.length < " NOT (x)".toList.length) ∧
    (Level.height .operand " NOT (x)".toList < 42 ∧
      ∀ bottom, Level.unfolded bottom 42 .operand " NOT (x)".toList = Level.parser .operand " NOT (x)".toList) ∧
    (∃ p, Many ruleParts.Reads "rule a: NOT (x) # y\r\n on true: b".toList [p] [] ∧
      p.size ≤ "rule a: NOT (x) # y\r\n on true: b".toList.length) ∧
    (∃ drafts, parseRules "rule a: NOT (x) # y\r\n on true: b" = .ok drafts ∧
      ∃ ps : List RuleParts, drafts = ps.map RuleParts.draft ∧
        (ps.map RuleParts.size).sum ≤ "rule a: NOT (x) # y\r\n on true: b".length) ∧
    (parseCondition "NOT (x)" = .ok (.not (.truthy "x")) ∧
      (Condition.not (.truthy "x")).nodes ≤ "NOT (x)".length) := by
  obtain ⟨suffix, items, -, -, -, calls, -, operand_calls, -, deep, parts, files, conditions⟩ :=
    grammar_progresses
  have comment_read : gapPart "# y\r\nz".toList = .ok () "\r\nz".toList := by cbv
  have call : Level.Calls .operand " NOT (x)".toList .operand " (x)".toList :=
    (operand_calls _ _).2 (Or.inl ⟨by cbv, apart_cons rfl _⟩)
  have low : Level.height .operand " NOT (x)".toList < 42 := by decide
  have rule_read : ruleParts "rule a: NOT (x) # y\r\n on true: b".toList =
      .ok ⟨"a", none, .not (.truthy "x"), [(true, [Action.ofParams "b" 1 []])]⟩ [] := by cbv
  have one : Many ruleParts.Reads "rule a: NOT (x) # y\r\n on true: b".toList [_] [] :=
    .cons rule_read (.nil [])
  have file_read : parseRules "rule a: NOT (x) # y\r\n on true: b" =
      .ok [⟨"a", .not (.truthy "x"), [Action.ofParams "b" 1 []], [], none⟩] := by cbv
  have condition_read : parseCondition "NOT (x)" = .ok (.not (.truthy "x")) := by cbv
  obtain ⟨ps, r, -, same, small⟩ := files _ _ file_read
  refine ⟨⟨comment_read, suffix (.item .gap) _ _ _ comment_read, (items .gap).1 _ _ _ comment_read⟩,
    ⟨call, (calls _ _ _ _ call).2 (by simp) (by simp)⟩, ⟨low, fun bottom => deep bottom _ _ _ low⟩,
    ⟨_, one, ?_⟩, ⟨_, file_read, ps, same, small⟩, condition_read, conditions _ _ condition_read⟩
  simpa using parts _ _ _ one

end RuleWatch.RuleText
