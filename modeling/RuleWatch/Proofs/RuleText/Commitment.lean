import Mathlib
import RuleWatch.Proofs.RuleText.Mistakes
import RuleWatch.Proofs.Text.Entry
/-!
  What has begun in a rule file is finished or the file is not read. A rule has begun
  with the word `rule`, a branch with `on`, an action with a name that is not reserved;
  an optional threshold and a parameter are never refused. Each place of a file at which
  one of them is looked for is reached by reading what stands in front of it (`LooksFor`),
  and there it is read or all reading ends, at the place where it stopped (`no_part_dropped`).
-/

namespace RuleWatch.RuleText

open Grammar
open RuleWatch.Parser (Begins Commits EnteredBy Many Reads Refuses)

/-! ## What stands in front of the lists -/

/-- A rule up to its branches. -/
def ruleHead : Parser (String × Option Nat × Condition) := do
  trivia; keyword "rule"; trivia
  let name ← Parser.wanting "rule name" (Parser.committed name)
  let history ← Parser.optional? historyNote
  trivia
  let _ ← Parser.committed (Parser.char ':')
  let condition ← Parser.wanting "rule condition" (Parser.committed condition)
  return (name, history, condition)

theorem rule_eq : rule = (do
    let (name, history, condition) ← ruleHead
    let branches ← Parser.many branch
    return { name, condition, onTrue := actionsOf true branches, onFalse := actionsOf false branches,
             history }) := by
  simp [rule, ruleHead]

/-- A branch up to its actions. -/
def branchHead : Parser Bool := do
  trivia; keyword "on"; trivia
  let outcome ← Parser.wanting "true or false" <| Parser.committed <|
    (do keyword "true"; return true) <|> (do keyword "false"; return false)
  trivia
  let _ ← Parser.committed (Parser.char ':')
  return outcome

theorem branch_eq : branch = (do
    let outcome ← branchHead
    let actions ← Parser.many action
    return (outcome, actions)) := by
  simp [branch, branchHead]

/-- The name of an action. -/
def actionName : Parser String := do
  trivia
  Parser.mapPartial (fun w => if isReserved w then none else some w) name

theorem action_eq : action = (do
    let name ← actionName
    let threshold ← threshold?
    let params ← params?
    return Action.ofParams name (threshold.getD 1) (params.getD [])) := by
  simp [action, actionName]

/-! ## Where something has begun -/

/-- The parts of a rule file that must be finished once they have begun. -/
inductive Part where
  | rule
  | branch
  | action
  | threshold
  | param

namespace Part

abbrev Content : Part → Type
  | .rule => Draft Condition
  | .branch => Bool × List Action
  | .action => Action
  | .threshold => Option Nat
  | .param => String × Value

def parser : (part : Part) → Parser part.Content
  | .rule => RuleText.rule
  | .branch => RuleText.branch
  | .action => RuleText.action
  | .threshold => threshold?
  | .param => RuleText.param

/-- A threshold may be left out, so that it has always begun; a parameter is looked for
only where it must stand. -/
def Begun : Part → List Char → Prop
  | .rule, s => Follows "rule" s
  | .branch, s => Follows "on" s
  | .action, s => Begins isWordStart (skipTrivia none s) ∧ ¬ Follows "rule" s ∧ ¬ Follows "on" s
  | .threshold, _ => True
  | .param, _ => True

theorem commits (part : Part) : part.parser.Commits part.Begun := by
  apply Commits.of_refuses
  intro s
  cases part with
  | rule => exact rule_refuses
  | branch => exact branch_refuses
  | action =>
    refine action_refuses.trans ?_
    simp only [Begun]
    tauto
  | threshold => simp [parser, threshold?, Begun]
  | param => simp [parser, param_refuses, Begun]

end Part

/-- Behind its word, what is read of a threshold is the count. -/
theorem threshold?_of_word {s t : List Char} (word : Word "after" (skipTrivia none s) t) {k : Option Nat}
    {r : List Char} :
    threshold? s = .ok k r ↔ ∃ n, k = some n ∧ count (skipTrivia none t) = .ok n r := by
  have reads : keyword "after" (skipTrivia none s) = .ok () t := keyword_ok.2 word
  have follows : Follows "after" s := ⟨_, t, trivia_skipTrivia s, word⟩
  have clause : (do
      trivia; keyword "after"; trivia
      Parser.wanting "consecutive hit count" (Parser.committed count)) s =
      Parser.wanting "consecutive hit count" (Parser.committed count) (skipTrivia none t) := by
    simp only [Parser.bind_apply, trivia, reads]
  rw [threshold?, Parser.optional_ok, clause_refuses isName_after (by simp), clause]
  simp [follows, and_comm]

/-! ## Where something is looked for -/

/-- The places of a text at which reading it as rules looks for a part. -/
inductive LooksFor (text : List Char) : Part → List Char → Prop where
  | rule {t : List Char} {ds : List (Draft Condition)} (before : Many (Reads rule) text ds t) :
      LooksFor text .rule t
  | branch {t u v : List Char} {head : String × Option Nat × Condition} {bs : List (Bool × List Action)}
      (outer : LooksFor text .rule t) (read : ruleHead t = .ok head u) (before : Many (Reads branch) u bs v) :
      LooksFor text .branch v
  | action {t u v : List Char} {outcome : Bool} {as : List Action} (outer : LooksFor text .branch t)
      (read : branchHead t = .ok outcome u) (before : Many (Reads action) u as v) : LooksFor text .action v
  | threshold {t u : List Char} {name : String} (outer : LooksFor text .action t)
      (read : actionName t = .ok name u) : LooksFor text .threshold u
  | firstParam {t u v v' w : List Char} {name : String} {n : Option Nat} (outer : LooksFor text .action t)
      (read : actionName t = .ok name u) (after : threshold? u = .ok n v) (gap : Trivia v v')
      (word : Word "with" v' w) : LooksFor text .param w
  | nextParam {t u v v' w x y z : List Char} {name : String} {n : Option Nat} {p : String × Value}
      {ps : List (String × Value)} (outer : LooksFor text .action t) (read : actionName t = .ok name u)
      (after : threshold? u = .ok n v) (gap : Trivia v v') (word : Word "with" v' w)
      (first : param w = .ok p x) (others : Many (Reads nextParam) x ps y)
      (comma : skipTrivia none y = ',' :: z) : LooksFor text .param z

theorem rule_entered {s t : List Char} {ds : List (Draft Condition)} (before : Many (Reads rule) s ds t) :
    rule.EnteredBy t rules s :=
  .first (.item rule_consumes before .self)

theorem branch_entered {s t u : List Char} {head : String × Option Nat × Condition}
    {bs : List (Bool × List Action)} (read : ruleHead s = .ok head t) (before : Many (Reads branch) t bs u) :
    branch.EnteredBy u rule s := by
  rw [rule_eq]
  exact .then_ read (.first (.item branch_consumes before .self))

theorem action_entered {s t u : List Char} {outcome : Bool} {as : List Action}
    (read : branchHead s = .ok outcome t) (before : Many (Reads action) t as u) :
    action.EnteredBy u branch s := by
  rw [branch_eq]
  exact .then_ read (.first (.item action_consumes before .self))

theorem threshold?_entered {s t : List Char} {name : String} (read : actionName s = .ok name t) :
    threshold?.EnteredBy t action s := by
  rw [action_eq]
  exact .then_ read (.first .self)

section
variable {s t u u' v : List Char} {name : String} {n : Option Nat} (read : actionName s = .ok name t)
  (after : threshold? t = .ok n u) (gap : Trivia u u') (word : Word "with" u' v)
include read after gap word

/-- What is entered in a list of parameters behind the word is entered by the action. -/
theorem entered_behind_with {β : Type} {q : Parser β} {w : List Char}
    (h : q.EnteredBy w (Parser.separated param (do trivia; let _ ← Parser.char ',')) v) :
    q.EnteredBy w action s := by
  have skips : trivia u = .ok () u' :=
    trivia_ok.2 (skipTrivia_eq gap (solid_of_begins (begins_of_word word isName_with))).symm
  have reads : keyword "with" u' = .ok () v := keyword_ok.2 word
  have clause : q.EnteredBy w params? u := .optional (.then_ skips (.then_ reads (.committed h)))
  rw [action_eq]
  exact .then_ read (.then_ after (.first clause))

theorem firstParam_entered : param.EnteredBy v action s :=
  entered_behind_with read after gap word (.first .self)

theorem nextParam_entered {w x y : List Char} {p : String × Value} {ps : List (String × Value)}
    (first : param v = .ok p w) (others : Many (Reads nextParam) w ps x)
    (comma : skipTrivia none x = ',' :: y) : param.EnteredBy y action s := by
  have separator : (do trivia; let _ ← Parser.char ',' : Parser Unit) x = .ok () y := by simp [comma]
  exact entered_behind_with read after gap word
    (.then_ first (.first (.item nextParam_consumes others (.then_ separator .self))))

end

/-- A part is entered, by way of the parts around it, wherever it is looked for. -/
theorem LooksFor.entered {text t : List Char} {part : Part} (h : LooksFor text part t) :
    part.parser.EnteredBy t rules text := by
  induction h with
  | rule before => exact rule_entered before
  | branch _ read before ih => exact (branch_entered read before).trans ih
  | action _ read before ih => exact (action_entered read before).trans ih
  | threshold _ read ih => exact (threshold?_entered read).trans ih
  | firstParam _ read after gap word ih => exact (firstParam_entered read after gap word).trans ih
  | nextParam _ read after gap word first others comma ih =>
    exact (nextParam_entered read after gap word first others comma).trans ih

/-! ## Nothing is dropped -/

/-- Where reading ends for good, it does so for the whole text. -/
theorem parse_of_breaksAt {α : Type} {p : Parser α} {text : String} {rest : List Char}
    (h : p.BreaksAt text.toList rest) : ∃ m, parse p text = .error m ∧ m.rest = rest := by
  obtain ⟨wanted, h⟩ := h
  exact ⟨⟨text.toList.take (text.toList.length - rest.length), rest, wanted⟩, by simp [parse, h], rfl⟩

/-- What has begun where it is looked for is read, or the whole text is not. -/
theorem LooksFor.settled {text : String} {t : List Char} {part : Part} (h : LooksFor text.toList part t)
    (begun : part.Begun t) : (∃ a r, part.parser t = .ok a r) ∨
      ∃ m, parseRules text = .error m ∧ part.parser.BreaksAt t m.rest := by
  refine (part.commits.finishes t begun).imp_right ?_
  intro broken
  obtain ⟨rest, broken⟩ := broken
  obtain ⟨m, failed, rfl⟩ := parse_of_breaksAt (h.entered.breaks broken)
  exact ⟨m, failed, broken⟩

/-- An action with the word for a threshold and no count behind it makes the text fail. -/
theorem LooksFor.count_missing {text : String} {t u : List Char} (h : LooksFor text.toList .threshold t)
    (word : Word "after" (skipTrivia none t) u) (missing : ∀ n r, count (skipTrivia none u) ≠ .ok n r) :
    ∃ m, parseRules text = .error m := by
  rcases h.settled trivial with ⟨k, r, read⟩ | ⟨m, failed, -⟩
  · obtain ⟨n, -, counted⟩ := (threshold?_of_word word).1 read
    exact absurd counted (missing n r)
  · exact ⟨m, failed⟩

theorem lists_end {part : Part} (listed : part ∈ [Part.rule, .branch, .action]) {s r : List Char}
    {as : List part.Content} (read : part.parser.many s = .ok as r) : ¬ part.Begun r := by
  refine part.commits.many_ends ?_ read
  simp only [List.mem_cons, List.not_mem_nil, or_false] at listed
  rcases listed with rfl | rfl | rfl
  · exact rule_consumes
  · exact branch_consumes
  · exact action_consumes

/-- **What has begun is not dropped.** A part is refused only where it has not begun, and
is read or ends all reading where it has. However parsers are put together, the whole
fails with the part; so wherever a text is looked through for a part that has begun
there, the part is read or the text is not, and a list ends only where no part of it
begins. -/
theorem no_part_dropped :
    (∀ part : Part, part.parser.Commits part.Begun) ∧
    (∀ (α β : Type) (p : Parser α) (q : Parser β) (s t rest : List Char),
      q.EnteredBy t p s → q.BreaksAt t rest → p.BreaksAt s rest) ∧
    (∀ (text : String) (part : Part) (t : List Char), LooksFor text.toList part t → part.Begun t →
      (∃ a r, part.parser t = .ok a r) ∨
        ∃ m, parseRules text = .error m ∧ part.parser.BreaksAt t m.rest) ∧
    (∀ (text : String) (t u : List Char), LooksFor text.toList .threshold t →
      Word "after" (skipTrivia none t) u → (∀ n r, count (skipTrivia none u) ≠ .ok n r) →
      ∃ m, parseRules text = .error m) ∧
    (∀ part ∈ [Part.rule, .branch, .action], ∀ s as r, part.parser.many s = .ok as r → ¬ part.Begun r) ∧
    ∀ s ps r, nextParam.many s = .ok ps r → ∀ t, skipTrivia none r ≠ ',' :: t := by
  refine ⟨Part.commits, ?_, ?_, ?_, ?_, ?_⟩
  · intro α β p q s t rest entered broken
    exact entered.breaks broken
  · intro text part t h begun
    exact h.settled begun
  · intro text t u h word missing
    exact h.count_missing word missing
  · intro part listed s as r read
    exact lists_end listed read
  · intro s ps r read
    exact nextParam_refuses.1 ((Parser.many_ok nextParam_consumes).1 read).2

/-- An action that waits for no number of outcomes does not end the actions of its branch. -/
theorem no_part_dropped_after :
    LooksFor "rule a: x on true: b after c".toList .threshold " after c".toList ∧
      ∃ m, parseRules "rule a: x on true: b after c" = .error m := by
  have head : ruleHead "rule a: x on true: b after c".toList =
      .ok ("a", none, .truthy "x") " on true: b after c".toList := by cbv
  have outcome : branchHead " on true: b after c".toList = .ok true " b after c".toList := by cbv
  have name : actionName " b after c".toList = .ok "b" " after c".toList := by cbv
  have place := LooksFor.threshold (.action (.branch (.rule (.nil _)) head (.nil _)) outcome (.nil _)) name
  refine ⟨place, no_part_dropped.2.2.2.1 _ _ " c".toList place ⟨by decide, apart_cons rfl _⟩ ?_⟩
  intro n r
  cbv
  simp

end RuleWatch.RuleText
