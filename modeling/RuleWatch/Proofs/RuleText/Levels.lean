import Mathlib.Order.WellFounded
import RuleWatch.Proofs.RuleText.Conditions
import RuleWatch.Proofs.Text.Entry
/-!
  The levels of a condition call one another: a condition begins with a disjunction, this
  with conjunctions, these with operands, and an operand is a NOT and an operand, or a
  primary, which may hold a condition in parentheses.

  A call is seen by what depends on it: one level calls another at a place if the answer of
  the other at that place makes a difference (`Calls`). Every call lowers a number that is
  made of the length of the text and of the level (`Calls.lower`), so that no chain of calls
  goes on for ever, and calls within calls up to that number are enough to read a text,
  whatever parsers stand below them (`unfolded_eq`).
-/

namespace RuleWatch.RuleText

open Grammar
open RuleWatch.Parser (EnteredBy)

inductive Level where
  | condition
  | disjunction
  | conjunction
  | operand
  | primary
deriving DecidableEq

namespace Level

/-- The parser of a level. -/
def parser : Level → Parser Condition
  | condition => RuleText.condition
  | disjunction => chain (RuleText.conjunction RuleText.operand) (either "OR" "or") .or
  | conjunction => RuleText.conjunction RuleText.operand
  | operand => RuleText.operand
  | primary => RuleText.primary RuleText.condition

/-- The parser of a level, given the parsers that it calls. -/
def body (call : Level → Parser Condition) : Level → Parser Condition
  | condition => do
    trivia
    call disjunction
  | disjunction => chain (call conjunction) (either "OR" "or") .or
  | conjunction => chain (call operand) (either "AND" "and") .and
  | operand => operandOf (call operand) (call primary)
  | primary => RuleText.primary (call condition)

theorem parser_eq (l : Level) : l.parser = body parser l := by
  cases l with
  | operand => exact operand_eq
  | condition => rfl
  | disjunction => rfl
  | conjunction => rfl
  | primary => rfl

/-! ## Each call is lower -/

/-- The levels in the order in which they call one another on one text. -/
def rank : Level → Nat
  | condition => 4
  | disjunction => 3
  | conjunction => 2
  | operand => 1
  | primary => 0

/-- What every call lowers: a level is lower on a shorter text, and on one text in the
order of the levels. -/
def height (l : Level) (s : List Char) : Nat := 5 * s.length + l.rank

theorem operand_consumes : RuleText.operand.Consumes := Parser.recursive_consumes nested_consumes

/-- A level is read alike if all that is lower is. -/
theorem body_congr {call : Level → Parser Condition} {l : Level} {s : List Char}
    (same : ∀ l' t, height l' t < height l s → parser l' t = call l' t) : parser l s = body call l s := by
  have skipped := trivia_length (trivia_skipTrivia s)
  rw [parser_eq]
  cases l with
  | condition =>
    refine Parser.bind_congr rfl fun _ t read => ?_
    obtain rfl := trivia_ok.1 read
    exact same disjunction _ (by simp only [height, rank]; omega)
  | disjunction =>
    refine chain_congr (conjunction_consumes operand_consumes) (fun t short => same conjunction t ?_)
      isName_or.1 isName_or.2 .or (Nat.le_refl s.length)
    simp only [height, rank]
    omega
  | conjunction =>
    refine chain_congr operand_consumes (fun t short => same operand t ?_)
      isName_and.1 isName_and.2 .and (Nat.le_refl s.length)
    simp only [height, rank]
    omega
  | operand =>
    refine operandOf_congr (fun t word => same operand t ?_) (same primary _ ?_)
    · obtain ⟨-, -, -, shorter⟩ := joined isName_not.1 isName_not.2 (trivia_skipTrivia s) word
      simp only [height, rank]
      omega
    · simp only [height, rank]
      omega
  | primary =>
    refine primary_congr fun t opened => same condition t ?_
    rw [opened, List.length_cons] at skipped
    simp only [height, rank]
    omega

/-! ## Calls within calls -/

/-- The levels with calls within calls up to a depth, and any parsers below that. -/
def unfolded (bottom : Level → Parser Condition) : Nat → Level → Parser Condition
  | 0 => bottom
  | n + 1 => body (unfolded bottom n)

/-- **The calls end.** A text is read by calls within calls that are no deeper than its
level is high. -/
theorem unfolded_eq (bottom : Level → Parser Condition) {n : Nat} {l : Level} {s : List Char}
    (deep : height l s < n) : unfolded bottom n l s = parser l s := by
  induction n generalizing l s with
  | zero => exact absurd deep (Nat.not_lt_zero _)
  | succ n ih =>
    symm
    apply body_congr
    intro l' t lower
    exact (ih (by omega)).symm

/-! ## Calls -/

/-- The parsers of the levels, but that one of them gives another answer at one place. -/
def answering (l : Level) (t : List Char) (reply : Reply Condition) : Level → Parser Condition :=
  fun l' t' => if l' = l ∧ t' = t then reply else parser l' t'

theorem answering_self (l : Level) (t : List Char) (reply : Reply Condition) :
    answering l t reply l t = reply := if_pos ⟨rfl, rfl⟩

theorem answering_other {l l' : Level} {t t' : List Char} {reply : Reply Condition}
    (h : ¬ (l' = l ∧ t' = t)) : answering l t reply l' t' = parser l' t' := if_neg h

/-- Reading a text as one level calls another at a place: it makes a difference what that
one answers there. -/
def Calls (l : Level) (s : List Char) (l' : Level) (t : List Char) : Prop :=
  ∃ reply, body (answering l' t reply) l s ≠ parser l s

section
variable {l l' : Level} {s t : List Char}

theorem Calls.lower (h : Calls l s l' t) : height l' t < height l s := by
  by_contra not_lower
  obtain ⟨reply, different⟩ := h
  refine different (body_congr fun l'' t' lower => (answering_other ?_).symm).symm
  intro same
  obtain ⟨rfl, rfl⟩ := same
  exact not_lower lower

/-- No call is on a longer text. -/
theorem Calls.length_le (h : Calls l s l' t) : t.length ≤ s.length := by
  have := h.lower
  simp only [height] at this
  cases l <;> cases l' <;> simp only [rank] at this <;> omega

/-- A level that is called by one not above it is called on a shorter text. -/
theorem Calls.length_lt (h : Calls l s l' t) (above : l.rank ≤ l'.rank) : t.length < s.length := by
  have := h.lower
  simp only [height] at this
  omega

theorem calls_wellFounded : WellFounded fun x y : Level × List Char => Calls y.1 y.2 x.1 x.2 :=
  Subrelation.wf (fun h => Calls.lower h) (measure fun x : Level × List Char => height x.1 x.2).wf

/-- Two final failures at different places are two answers. -/
theorem exists_other_failure (reply : Reply Condition) :
    ∃ rest : List Char, ∀ wanted, Reply.fail true rest wanted ≠ reply := by
  cases reply with
  | ok c r => exact ⟨[], by simp⟩
  | fail final rest wanted => exact ⟨' ' :: rest, by simp⟩

/-- A level is called where its parser is entered, whatever it answers there. -/
theorem calls_of_entered
    (h : ∀ reply, (answering l' t reply l').EnteredBy t (body (answering l' t reply) l) s) :
    Calls l s l' t := by
  -- a final failure is not taken back, and so is seen
  obtain ⟨rest, other⟩ := exists_other_failure (parser l s)
  have broken : (answering l' t (.fail true rest []) l').BreaksAt t rest := ⟨[], answering_self ..⟩
  obtain ⟨wanted, failed⟩ := (h (.fail true rest [])).breaks broken
  exact ⟨.fail true rest [], by rw [failed]; exact other wanted⟩

/-- A primary calls a condition behind a parenthesis, and nowhere else. -/
theorem calls_primary : Calls primary s condition t ↔ skipTrivia none s = '(' :: t := by
  refine ⟨?_, ?_⟩
  · intro h
    by_contra not_opened
    obtain ⟨reply, different⟩ := h
    refine different (primary_congr fun t' opened => answering_other ?_)
    intro same
    obtain ⟨-, rfl⟩ := same
    exact not_opened opened
  · intro opened
    have skipped : trivia s = .ok () (skipTrivia none s) := rfl
    refine calls_of_entered fun reply => .then_ skipped (.wanting (.either ?_))
    exact .then_ (Parser.char_ok.2 ⟨opened, rfl⟩) (.first .self)

/-- An operand calls an operand behind a NOT, and nowhere else. -/
theorem calls_operand :
    Calls operand s operand t ↔ Word "NOT" (skipTrivia none s) t ∨ Word "not" (skipTrivia none s) t := by
  refine ⟨?_, ?_⟩
  · intro h
    by_contra no_word
    obtain ⟨reply, different⟩ := h
    rw [parser_eq] at different
    refine different (operandOf_congr (fun t' word => answering_other ?_) (answering_other ?_))
    · intro same
      obtain ⟨-, rfl⟩ := same
      exact no_word word
    · intro same
      cases same.1
  · intro word
    have skipped : trivia s = .ok () (skipTrivia none s) := rfl
    have read : (either "NOT" "not").optional? (skipTrivia none s) = .ok (some ()) t :=
      Parser.optional_ok.2 (Or.inl ⟨(), (either_ok isName_not.1 isName_not.2).2 word, rfl⟩)
    exact calls_of_entered fun reply => .then_ skipped (.then_ read (.first (.committed .self)))

end

end Level

end RuleWatch.RuleText
