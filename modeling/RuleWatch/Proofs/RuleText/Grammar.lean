import RuleWatch.Proofs.Text.Replies
import RuleWatch.RuleText.RuleFile
/-!
  The grammar of rule texts, said without parsers. A phrase is a relation between
  a text, what the beginning of the text means, and the text behind that. Only
  where words could be cut short does it matter what stands behind: a name is
  taken to its end, a keyword is not the beginning of a longer name, and a clause
  is there if its keyword is. Nothing of the readers is taken over: which characters
  are blank or belong to a word, what escapes stand for, and how the actions of
  branches come together is said here as well.
-/

namespace RuleWatch.RuleText.Grammar

open RuleWatch.Parser (Begins Many)

/-! ## Characters -/

/-- White space. -/
def blanks : List Char := [' ', '\t', '\n', '\x0c', '\r']

/-- Whether a character may begin a word: a letter or an underscore. -/
def isWordStart (c : Char) : Bool := c.isAlpha || c == '_'

/-- Whether a character may go on a word: what may begin one, a digit or a point. -/
def isWordChar (c : Char) : Bool := isWordStart c || c.isDigit || c == '.'

/-! ## Blanks and comments -/

/-- A line ends here. -/
def LineEnd (s : List Char) : Prop := s = [] ∨ (∃ t, s = '\n' :: t) ∨ ∃ t, s = '\r' :: '\n' :: t

/-- Blanks and comments in any order, possibly none. -/
inductive Trivia : List Char → List Char → Prop where
  | none (s : List Char) : Trivia s s
  | blank {c : Char} {s r : List Char} (blank : c ∈ blanks) (rest : Trivia s r) :
      Trivia (c :: s) r
  | comment {body s r : List Char} (body_clean : ∀ c ∈ body, c ≠ '\n' ∧ c ≠ '\r')
      (ends : LineEnd s) (rest : Trivia s r) : Trivia ('#' :: (body ++ s)) r

/-! ## Names and keywords -/

/-- A letter or an underscore, and then letters, digits, underscores and points. -/
def IsName (n : String) : Prop :=
  ∃ c w, n.toList = c :: w ∧ isWordStart c = true ∧ ∀ d ∈ w, isWordChar d = true

instance (n : String) : Decidable (IsName n) :=
  decidable_of_iff ((n.toList.head?.any isWordStart && n.toList.tail.all isWordChar) = true) <| by
    unfold IsName
    cases n.toList <;> simp

/-- A name, to its end. -/
def Name (s : List Char) (n : String) (r : List Char) : Prop :=
  IsName n ∧ s = n.toList ++ r ∧ ¬ Begins isWordChar r

/-- A keyword that is not the beginning of a longer name. -/
def Word (w : String) (s r : List Char) : Prop := s = w.toList ++ r ∧ ¬ Begins isWordChar r

/-! ## Literals -/

/-- What a backslash and a character stand for: a quote, a backslash, a line feed or a tab, or
else both of them for themselves. -/
inductive Escape : Char → List Char → Prop where
  | quote : Escape '"' ['"']
  | backslash : Escape '\\' ['\\']
  | feed : Escape 'n' ['\n']
  | tab : Escape 't' ['\t']
  | other {c : Char} (plain : c ∉ ['"', '\\', 'n', 't']) : Escape c ['\\', c]

/-- The content of a string up to the first quote that is not escaped. -/
inductive StringBody : List Char → List Char → List Char → Prop where
  | close (r : List Char) : StringBody ('"' :: r) [] r
  | escape {c : Char} {w s b r : List Char} (stands : Escape c w) (rest : StringBody s b r) :
      StringBody ('\\' :: c :: s) (w ++ b) r
  | plain {c : Char} {s b r : List Char} (quote : c ≠ '"') (backslash : c ≠ '\\')
      (rest : StringBody s b r) : StringBody (c :: s) (c :: b) r

/-- Decimal digits, at least one. -/
def Digits (ds : List Char) : Prop := ds ≠ [] ∧ ∀ c ∈ ds, c.isDigit = true

/-- Decimal digits of which the first is not zero. -/
def Positive (ds : List Char) : Prop :=
  ∃ c t, ds = c :: t ∧ c.isDigit = true ∧ c ≠ '0' ∧ ∀ d ∈ t, d.isDigit = true

inductive Count : List Char → Nat → List Char → Prop where
  | zero (r : List Char) : Count ('0' :: r) 0 r
  | positive {ds : List Char} (r : List Char) (digits : Positive ds)
      (small : digitsValue ds < 2 ^ 64) : Count (ds ++ r) (digitsValue ds) r

/-- The minus sign of a negative number. -/
def minus (negative : Bool) : List Char := if negative then ['-'] else []

/-- A literal: a string, a truth value, a double with digits on both sides of its
point, or an integer of 64 bits. -/
inductive Literal : List Char → Value → List Char → Prop where
  | string {s b r : List Char} (body : StringBody s b r) :
      Literal ('"' :: s) (.string (String.ofList b)) r
  | true {s r : List Char} (word : Word "true" s r) : Literal s (.bool true) r
  | false {s r : List Char} (word : Word "false" s r) : Literal s (.bool false) r
  | float {whole places : List Char} (negative : Bool) (r : List Char) (whole_digits : Digits whole)
      (places_digits : Digits places) :
      Literal (minus negative ++ (whole ++ '.' :: (places ++ r)))
        (.float (Numeral.nearest ⟨negative, whole, places, none⟩)) r
  | zero (r : List Char) : Literal ('0' :: r) (.int 0) r
  | positive {ds : List Char} (plus r : List Char) (sign : plus = [] ∨ plus = ['+'])
      (digits : Positive ds) (small : digitsValue ds < 2 ^ 63) :
      Literal (plus ++ (ds ++ r)) (.int (Int64.ofInt (digitsValue ds))) r
  | negative {ds : List Char} (r : List Char) (digits : Positive ds)
      (small : digitsValue ds ≤ 2 ^ 63) :
      Literal ('-' :: (ds ++ r)) (.int (Int64.ofInt (-digitsValue ds))) r

def Operator (s : List Char) (op : Comparison) (r : List Char) : Prop := s = op.symbol.toList ++ r

/-! ## Conditions -/

/-- Names that begin no comparison. -/
def isWordOfConditions (n : String) : Bool := n == "true" || n == "false" || n == "NOT" || n == "not"

/-- How tightly the parts of a condition are bound. -/
inductive Layer where
  | disjunction
  | conjunction
  | operand
  | primary

/-- A condition of some layer. Chains of one operator group to the left. -/
inductive Phrase : Layer → List Char → Condition → List Char → Prop where
  | conjunction {s r : List Char} {c : Condition} (only : Phrase .conjunction s c r) :
      Phrase .disjunction s c r
  | or {s s₁ s₂ s₃ r : List Char} {c d : Condition} (left : Phrase .disjunction s c s₁)
      (gap : Trivia s₁ s₂) (word : Word "OR" s₂ s₃ ∨ Word "or" s₂ s₃)
      (right : Phrase .conjunction s₃ d r) : Phrase .disjunction s (.or c d) r
  | operand {s r : List Char} {c : Condition} (only : Phrase .operand s c r) :
      Phrase .conjunction s c r
  | and {s s₁ s₂ s₃ r : List Char} {c d : Condition} (left : Phrase .conjunction s c s₁)
      (gap : Trivia s₁ s₂) (word : Word "AND" s₂ s₃ ∨ Word "and" s₂ s₃)
      (right : Phrase .operand s₃ d r) : Phrase .conjunction s (.and c d) r
  | not {s s₁ s₂ r : List Char} {c : Condition} (gap : Trivia s s₁)
      (word : Word "NOT" s₁ s₂ ∨ Word "not" s₁ s₂) (inner : Phrase .operand s₂ c r) :
      Phrase .operand s (.not c) r
  | primary {s s₁ r : List Char} {c : Condition} (gap : Trivia s s₁) (only : Phrase .primary s₁ c r) :
      Phrase .operand s c r
  | parentheses {s s₁ r : List Char} {c : Condition} (inner : Phrase .disjunction s c s₁)
      (gap : Trivia s₁ (')' :: r)) : Phrase .primary ('(' :: s) c r
  | true {s r : List Char} (word : Word "true" s r) : Phrase .primary s (.const true) r
  | false {s r : List Char} (word : Word "false" s r) : Phrase .primary s (.const false) r
  | compare {s s₁ s₂ s₃ s₄ r : List Char} {field : String} {op : Comparison} {v : Value}
      (name : Name s field s₁) (free : isWordOfConditions field = false) (gap : Trivia s₁ s₂)
      (operator : Operator s₂ op s₃) (gap' : Trivia s₃ s₄) (literal : Literal s₄ v r) :
      Phrase .primary s (.compare field op v) r
  | truthy {s r : List Char} {field : String} (name : Name s field r)
      (free : isWordOfConditions field = false)
      (alone : ∀ s₁ op s₂, Trivia r s₁ → ¬ Operator s₁ op s₂) : Phrase .primary s (.truthy field) r

abbrev Expression : List Char → Condition → List Char → Prop := Phrase .disjunction

/-- A condition, and blanks and comments up to the end. -/
def LoneCondition (text : List Char) (c : Condition) : Prop := ∃ r, Expression text c r ∧ Trivia r []

/-! ## Rules -/

inductive Parameter : List Char → String × Value → List Char → Prop where
  | mk {s s₁ s₂ s₃ s₄ r : List Char} {key : String} {v : Value} (gap : Trivia s s₁)
      (name : Name s₁ key s₂) (sign : Trivia s₂ ('=' :: s₃)) (gap' : Trivia s₃ s₄)
      (literal : Literal s₄ v r) : Parameter s (key, v) r

inductive NextParameter : List Char → String × Value → List Char → Prop where
  | mk {s s₁ r : List Char} {p : String × Value} (comma : Trivia s (',' :: s₁))
      (parameter : Parameter s₁ p r) : NextParameter s p r

def Follows (w : String) (s : List Char) : Prop := ∃ s₁ s₂, Trivia s s₁ ∧ Word w s₁ s₂

/-- The clause that says how many outcomes an action waits for. -/
inductive AfterClause : List Char → Option Nat → List Char → Prop where
  | given {s s₁ s₂ s₃ r : List Char} {n : Nat} (gap : Trivia s s₁) (word : Word "after" s₁ s₂)
      (gap' : Trivia s₂ s₃) (count : Count s₃ n r) : AfterClause s (some n) r
  | absent {s : List Char} (h : ¬ Follows "after" s) : AfterClause s none s

/-- The clause that gives the parameters of an action. -/
inductive WithClause : List Char → Option (List (String × Value)) → List Char → Prop where
  | given {s s₁ s₂ s₃ r : List Char} {p : String × Value} {ps : List (String × Value)}
      (gap : Trivia s s₁) (word : Word "with" s₁ s₂) (first : Parameter s₂ p s₃)
      (others : Many NextParameter s₃ ps r) : WithClause s (some (p :: ps)) r
  | absent {s : List Char} (h : ¬ Follows "with" s) : WithClause s none s

/-- What parameters come to: of two values under one name the later counts. -/
def Told (given : List (String × Value)) (params : Fields) : Prop :=
  ∀ key, params[key]? = given.reverse.lookup key

/-- An action, which waits for one outcome unless it says otherwise. -/
inductive ActionItem : List Char → Action → List Char → Prop where
  | mk {s s₁ s₂ s₃ r : List Char} {name : String} {threshold : Option Nat}
      {given : Option (List (String × Value))} {params : Fields} (gap : Trivia s s₁)
      (is_name : Name s₁ name s₂) (free : name ∉ ["rule", "on"])
      (after : AfterClause s₂ threshold s₃) (clause : WithClause s₃ given r)
      (told : Told (given.getD []) params) : ActionItem s ⟨name, threshold.getD 1, params⟩ r

def Outcome (s : List Char) (outcome : Bool) (r : List Char) : Prop :=
  Word (if outcome then "true" else "false") s r

inductive Branch : List Char → Bool × List Action → List Char → Prop where
  | mk {s s₁ s₂ s₃ s₄ s₅ r : List Char} {outcome : Bool} {actions : List Action}
      (gap : Trivia s s₁) (word : Word "on" s₁ s₂) (gap' : Trivia s₂ s₃)
      (is_outcome : Outcome s₃ outcome s₄) (colon : Trivia s₄ (':' :: s₅))
      (items : Many ActionItem s₅ actions r) : Branch s (outcome, actions) r

/-- How many outcomes a rule retains. -/
inductive HistoryNote : List Char → Option Nat → List Char → Prop where
  | given {s s₁ s₂ s₃ s₄ s₅ r : List Char} {n : Nat} (opened : Trivia s ('(' :: s₁))
      (gap : Trivia s₁ s₂) (word : Word "history" s₂ s₃) (gap' : Trivia s₃ s₄) (count : Count s₄ n s₅)
      (closed : Trivia s₅ (')' :: r)) : HistoryNote s (some n) r
  | absent (s : List Char) : HistoryNote s none s

/-- The actions of branches, gathered by outcome: a branch puts its own in front of those that
the branches behind it list for the same outcome. -/
inductive Gathered : List (Bool × List Action) → List Action → List Action → Prop where
  | none : Gathered [] [] []
  | onTrue {branches : List (Bool × List Action)} {onTrue onFalse : List Action} (actions : List Action)
      (others : Gathered branches onTrue onFalse) :
      Gathered ((true, actions) :: branches) (actions ++ onTrue) onFalse
  | onFalse {branches : List (Bool × List Action)} {onTrue onFalse : List Action} (actions : List Action)
      (others : Gathered branches onTrue onFalse) :
      Gathered ((false, actions) :: branches) onTrue (actions ++ onFalse)

inductive RuleItem : List Char → Draft Condition → List Char → Prop where
  | mk {s s₁ s₂ s₃ s₄ s₅ s₆ s₇ r : List Char} {name : String} {history : Option Nat}
      {condition : Condition} {branches : List (Bool × List Action)} {onTrue onFalse : List Action}
      (gap : Trivia s s₁)
      (word : Word "rule" s₁ s₂) (gap' : Trivia s₂ s₃) (is_name : Name s₃ name s₄)
      (note : HistoryNote s₄ history s₅) (colon : Trivia s₅ (':' :: s₆))
      (expression : Expression s₆ condition s₇) (items : Many Branch s₇ branches r)
      (gathered : Gathered branches onTrue onFalse) :
      RuleItem s { name, condition, onTrue, onFalse, history } r

/-- A file: rules, and blanks and comments up to the end. -/
def File (text : List Char) (rules : List (Draft Condition)) : Prop :=
  ∃ r, Many RuleItem text rules r ∧ Trivia r []

end RuleWatch.RuleText.Grammar
