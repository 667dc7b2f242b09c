import RuleWatch.Proofs.RuleText.Tokens
import RuleWatch.RuleText.Mistake
/-!
  Conditions are read as the grammar has them. What is read follows the grammar
  however deep the parser may go; and what follows the grammar is read if the
  parser may go as deep as the text is long, provided that what stands behind does
  not carry the condition on.
-/

namespace RuleWatch

namespace Condition

/-- How many parts a condition has: constants, comparisons, fields and operators. -/
def nodes : Condition → Nat
  | const _ => 1
  | compare _ _ _ => 1
  | truthy _ => 1
  | and left right => left.nodes + right.nodes + 1
  | or left right => left.nodes + right.nodes + 1
  | not inner => inner.nodes + 1

theorem nodes_pos (c : Condition) : 0 < c.nodes := by cases c <;> simp [nodes]

end Condition

namespace RuleText

open Grammar
open RuleWatch.Parser (Begins Many Reads Refuses nested)

/-! ## Words in front -/

theorem trivia_trans {s t r : List Char} (h : Trivia s t) (k : Trivia t r) : Trivia s r := by
  induction h with
  | none s => exact k
  | blank blank _ ih => exact Trivia.blank blank (ih k)
  | comment clean ends _ ih => exact Trivia.comment clean ends (ih k)

theorem solid_skipTrivia (s : List Char) : skipTrivia none (skipTrivia none s) = skipTrivia none s :=
  (skipTrivia_of_trivia (trivia_skipTrivia s)).symm

theorem numberEnds_of_trivia {s r : List Char} (h : Trivia s r) (ends : NumberEnds r) : NumberEnds s := by
  cases h with
  | none s => exact ends
  | @blank c s r blank _ =>
    rw [numberEnds_cons]
    simp only [blanks, List.mem_cons, List.not_mem_nil, or_false] at blank
    rcases blank with rfl | rfl | rfl | rfl | rfl <;> exact ⟨rfl, by decide⟩
  | comment => exact numberEnds_cons.2 ⟨rfl, by decide⟩

theorem isWordStart_solid {c : Char} (h : isWordStart c = true) : isBlank c = false ∧ c ≠ '#' := by
  refine ⟨isBlank_eq_false rfl h, ?_⟩
  intro same
  subst same
  cases h

theorem numberEnds_of_isWordStart {c : Char} (h : isWordStart c = true) {s : List Char} :
    NumberEnds (c :: s) := by
  rw [numberEnds_cons]
  refine ⟨?_, ?_⟩
  · by_contra digit
    rw [Bool.not_eq_false, Char.isDigit_iff_toNat] at digit
    have small : c.toNat ≤ 57 := digit.2
    have start : (c.isUpper || c.isLower || c == '_') = true := h
    simp only [Bool.or_eq_true, beq_iff_eq] at start
    rcases start with (upper | lower) | rfl
    · have : 65 ≤ c.toNat := (of_decide_eq_true upper).1
      omega
    · have : 97 ≤ c.toNat := of_decide_eq_true (Bool.and_eq_true_iff.1 lower).1
      omega
    · exact absurd small (by decide)
  · intro same
    subst same
    cases h

theorem name_begins {s r : List Char} {n : String} (h : Name s n r) : Begins isWordStart s := by
  obtain ⟨⟨c, w, chars, start, -⟩, rfl, -⟩ := h
  exact ⟨c, w ++ r, by rw [chars, List.cons_append], start⟩

theorem solid_of_begins {s : List Char} (h : Begins isWordStart s) : Solid s := by
  obtain ⟨c, t, rfl, start⟩ := h
  exact solid_cons.2 (isWordStart_solid start)

theorem name_of_word {w : String} {s r : List Char} (h : Word w s r) (is_name : IsName w) : Name s w r :=
  ⟨is_name, h⟩

theorem name_unique {s r r' : List Char} {n n' : String} (h : Name s n r) (k : Name s n' r') :
    n = n' ∧ r = r' := by
  have same : Reply.ok n r = Reply.ok n' r' := (name_ok.2 h).symm.trans (name_ok.2 k)
  exact Reply.ok.inj same

theorem begins_of_word {w : String} {s r : List Char} (h : Word w s r) (is_name : IsName w) :
    Begins isWordStart s := name_begins (name_of_word h is_name)

theorem word_unique {w w' : String} (is_name : IsName w) (is_name' : IsName w') {s r r' : List Char}
    (h : Word w s r) (k : Word w' s r') : w = w' :=
  (name_unique (name_of_word h is_name) (name_of_word k is_name')).1

theorem no_word_of_begins {s : List Char} (h : ¬ Begins isWordStart s) {w : String} (is_name : IsName w) :
    ∀ r, ¬ Word w s r := by
  intro r word
  exact h (begins_of_word word is_name)

theorem not_begins_bracket (s : List Char) : ¬ Begins isWordStart ('(' :: s) := by
  rw [Parser.begins_cons]
  decide

theorem ne_bracket_of_begins {s : List Char} (h : Begins isWordStart s) : ∀ t, s ≠ '(' :: t := by
  intro t same
  rw [same] at h
  exact not_begins_bracket t h

/-- Whether a keyword follows is seen behind blanks and comments. -/
theorem follows_iff {w : String} (is_name : IsName w) {s : List Char} :
    Follows w s ↔ ∃ r, Word w (skipTrivia none s) r := by
  refine ⟨?_, ?_⟩
  · intro given
    obtain ⟨t, r, gap, word⟩ := given
    rw [skipTrivia_eq gap (solid_of_begins (begins_of_word word is_name))]
    exact ⟨r, word⟩
  · intro given
    obtain ⟨r, word⟩ := given
    exact ⟨_, r, trivia_skipTrivia s, word⟩

theorem not_follows_iff {w : String} (is_name : IsName w) {s : List Char} :
    ¬ Follows w s ↔ (keyword w).Refuses (skipTrivia none s) := by
  rw [follows_iff is_name, keyword_refuses, not_exists]

/-- No keyword follows where something else stands. -/
theorem not_follows_of_begins {w : String} (is_name : IsName w) {s t : List Char} (gap : Trivia s t)
    (solid : Solid t) (h : ¬ Begins isWordStart t) : ¬ Follows w s := by
  rw [follows_iff is_name, skipTrivia_eq gap solid]
  intro given
  obtain ⟨r, word⟩ := given
  exact h (begins_of_word word is_name)

/-- One keyword at most follows. -/
theorem follows_unique {w w' : String} (is_name : IsName w) (is_name' : IsName w') {s : List Char}
    (h : Follows w s) (k : Follows w' s) : w = w' := by
  obtain ⟨r, word⟩ := (follows_iff is_name).1 h
  obtain ⟨r', word'⟩ := (follows_iff is_name').1 k
  exact word_unique is_name is_name' word word'

/-! ## Conditions are what is read -/

/-- Blanks and comments may stand in front of a condition. -/
theorem phrase_gap {l : Layer} {s t r : List Char} {c : Condition} (gap : Trivia s t)
    (h : Phrase l t c r) (loose : l ≠ .primary) : Phrase l s c r := by
  -- the leftmost operand takes the blanks
  induction h generalizing s with
  | conjunction _ ih => exact Phrase.conjunction (ih gap (by simp))
  | or _ gap' word right ih _ => exact Phrase.or (ih gap (by simp)) gap' word right
  | operand _ ih => exact Phrase.operand (ih gap (by simp))
  | and _ gap' word right ih _ => exact Phrase.and (ih gap (by simp)) gap' word right
  | not gap' word inner _ => exact Phrase.not (trivia_trans gap gap') word inner
  | primary gap' only _ => exact Phrase.primary (trivia_trans gap gap') only
  | _ => exact absurd rfl loose

section
variable {item : Parser Condition} {sign : Parser Unit} {join : Condition → Condition → Condition}
  {Item Chain : List Char → Condition → List Char → Prop} {Sign : List Char → List Char → Prop}
  (single : ∀ s c r, Item s c r → Chain s c r)
  (more : ∀ s s₁ s₂ s₃ r c d, Chain s c s₁ → Trivia s₁ s₂ → Sign s₂ s₃ → Item s₃ d r → Chain s (join c d) r)
  (item_sound : item.Sound Item) (sign_sound : sign.Sound fun s _ r => Sign s r)
include more item_sound sign_sound

/-- A chain grows by one item at a time, and what has been read of it is a chain. -/
theorem chain_grows {s t r : List Char} {c : Condition} {others : List Condition} (front : Chain s c t)
    (items : Many (Reads do trivia; sign; Parser.committed item) t others r) :
    Chain s (others.foldl join c) r := by
  induction items generalizing c with
  | nil t => exact front
  | cons next _ ih =>
    simp only [Reads, Parser.bind_ok, trivia_ok, Parser.committed_ok] at next
    obtain ⟨-, -, rfl, u, t₂, signed, read⟩ := next
    exact ih (more _ _ _ _ _ _ _ front (trivia_skipTrivia _) (sign_sound _ _ _ signed) (item_sound _ _ _ read))

include single

theorem chain_sound : (chain item sign join).Sound Chain := by
  intro s c r h
  simp only [chain, Parser.bind_ok, Parser.pure_ok, Parser.many, Parser.upTo_ok] at h
  obtain ⟨first, t, read, others, t', ⟨items, -⟩, rfl, rfl⟩ := h
  exact chain_grows more item_sound sign_sound (single _ _ _ (item_sound _ _ _ read)) items

end

/-- A name that is none of the words of conditions begins a comparison. -/
theorem free_of_no_word {s t : List Char} {field : String} (is_name : Name s field t)
    (free : ∀ w ∈ ["true", "false", "NOT", "not"], ∀ r, ¬ Word w s r) :
    isWordOfConditions field = false := by
  -- a name that is one of the words would have been read as that word
  have other : ∀ w ∈ ["true", "false", "NOT", "not"], field ≠ w := by
    intro w hw same
    subst same
    exact free field hw t is_name.2
  simp only [isWordOfConditions, Bool.or_eq_false_iff, beq_eq_false_iff_ne]
  simpa [and_assoc] using other

/-- Where neither NOT nor a constant stands, a name begins a comparison. -/
theorem comparison_sound {s r : List Char} {c : Condition}
    (free : ∀ w ∈ ["true", "false", "NOT", "not"], ∀ r, ¬ Word w s r) (h : comparison s = .ok c r) :
    Phrase .primary s c r := by
  simp only [comparison, Parser.bind_ok, name_ok] at h
  obtain ⟨field, t, is_name, op, t', clause, h⟩ := h
  have free := free_of_no_word is_name free
  simp only [Parser.optional_ok, Parser.bind_ok, Parser.bind_refuses, trivia_ok, trivia_refuses, false_or,
    operator_refuses] at clause
  rcases clause with ⟨op, ⟨-, t₁, rfl, sign⟩, rfl⟩ | ⟨⟨-, t₁, rfl, none⟩, rfl, rfl⟩
  · simp only [Parser.bind_ok, Parser.committed_ok, Parser.pure_ok] at h
    obtain ⟨v, t₂, read, rfl, rfl⟩ := h
    obtain ⟨t₃, gap, literal⟩ := value_sound read
    exact Phrase.compare is_name free (trivia_skipTrivia t) (operator_sound sign) gap literal
  · obtain ⟨rfl, rfl⟩ := Parser.pure_ok.1 h
    apply Phrase.truthy is_name free
    intro s₁ op s₂ gap sign
    refine none op s₂ ?_
    rwa [skipTrivia_eq gap (solid_of_operator sign)]

section
variable {operand : Parser Condition} (operand_sound : operand.Sound (Phrase .operand))
include operand_sound

theorem conjunction_sound : (conjunction operand).Sound (Phrase .conjunction) := by
  apply chain_sound (fun _ _ _ => Phrase.operand) (fun _ _ _ _ _ _ _ => Phrase.and) operand_sound
  intro s u r h
  simp only [Parser.orElse_ok, keyword_ok] at h
  exact h.imp_right And.right

theorem disjunction_sound : (disjunction operand).Sound (Phrase .disjunction) := by
  intro s c r h
  simp only [disjunction, Parser.bind_ok, trivia_ok] at h
  obtain ⟨-, -, rfl, h⟩ := h
  refine phrase_gap (trivia_skipTrivia s) ?_ (by simp)
  refine chain_sound (fun _ _ _ => Phrase.conjunction) (fun _ _ _ _ _ _ _ => Phrase.or)
    (conjunction_sound operand_sound) ?_ _ _ _ h
  intro s u r h
  simp only [Parser.orElse_ok, keyword_ok] at h
  exact h.imp_right And.right

theorem primary_sound {s r : List Char} {c : Condition} (solid : skipTrivia none s = s)
    (free : ∀ w ∈ ["NOT", "not"], ∀ r, ¬ Word w s r)
    (h : primary (disjunction operand) s = .ok c r) : Phrase .primary s c r := by
  simp only [primary, Parser.bind_ok, trivia_ok, Parser.wanting_ok, Parser.orElse_ok, Parser.char_ok,
    Parser.committed_ok, Parser.pure_ok, Parser.bind_refuses, Parser.pure_refuses, keyword_ok,
    keyword_refuses, solid, and_false, exists_false, or_false] at h
  obtain ⟨-, s, rfl, h⟩ := h
  rcases h with ⟨-, t, ⟨rfl, -⟩, c, t', read, -, -, rfl, -, t'', ⟨closed, -⟩, rfl, rfl⟩ |
    ⟨-, ⟨-, t, word, rfl, rfl⟩ | ⟨yes, ⟨-, t, word, rfl, rfl⟩ | ⟨no, h⟩⟩⟩
  · apply Phrase.parentheses (disjunction_sound operand_sound _ _ _ read)
    rw [← closed]
    exact trivia_skipTrivia t'
  · exact Phrase.true word
  · exact Phrase.false word
  · refine comparison_sound ?_ h
    simpa [yes, no] using free

theorem operandStep_sound : (operandStep operand).Sound (Phrase .operand) := by
  intro s c r h
  simp only [operandStep, Parser.bind_ok, trivia_ok, Parser.optional_ok, Parser.orElse_ok,
    Parser.orElse_refuses, keyword_ok, keyword_refuses] at h
  obtain ⟨-, -, rfl, sign, t, (⟨u, word, rfl⟩ | ⟨free, rfl, rfl⟩), h⟩ := h
  · simp only [Parser.bind_ok, Parser.committed_ok, Parser.pure_ok] at h
    obtain ⟨inner, t', read, rfl, rfl⟩ := h
    exact Phrase.not (trivia_skipTrivia s) (word.imp_right And.right) (operand_sound _ _ _ read)
  · apply Phrase.primary (trivia_skipTrivia s)
    exact primary_sound operand_sound (solid_skipTrivia s) (by simpa using free) h

end

theorem nested_sound (n : Nat) : (nested operandStep n).Sound (Phrase .operand) := by
  induction n with
  | zero => intro s c r h; simp [nested] at h
  | succ n ih => exact operandStep_sound ih

theorem condition_sound : condition.Sound Expression := by
  apply disjunction_sound
  intro s c r h
  exact nested_sound _ s c r h

/-- Each part of a condition takes a character of its own. -/
theorem phrase_nodes {l : Layer} {s r : List Char} {c : Condition} (h : Phrase l s c r) :
    c.nodes + r.length ≤ s.length := by
  induction h with
  | conjunction _ ih => exact ih
  | or _ gap word _ ih ih' =>
    have := trivia_length gap
    rw [Condition.nodes]
    rcases word with word | word <;> have := name_length (name_of_word word (by decide)) <;> omega
  | operand _ ih => exact ih
  | and _ gap word _ ih ih' =>
    have := trivia_length gap
    rw [Condition.nodes]
    rcases word with word | word <;> have := name_length (name_of_word word (by decide)) <;> omega
  | not gap word _ ih =>
    have := trivia_length gap
    rw [Condition.nodes]
    rcases word with word | word <;> have := name_length (name_of_word word (by decide)) <;> omega
  | primary gap _ ih => have := trivia_length gap; omega
  | parentheses _ gap ih => have := trivia_length gap; simp only [List.length_cons] at *; omega
  | true word => rw [word_length word, Condition.nodes, show "true".toList.length = 4 from rfl]; omega
  | false word => rw [word_length word, Condition.nodes, show "false".toList.length = 5 from rfl]; omega
  | compare name _ gap sign gap' literal =>
    have := name_length name
    have := trivia_length gap
    have := trivia_length gap'
    have := literal_length literal
    have : _ ≤ _ := (congrArg List.length sign).ge
    rw [List.length_append] at this
    rw [Condition.nodes]
    omega
  | truthy name _ _ => rw [Condition.nodes, Nat.add_comm]; exact name_length name

theorem phrase_length {l : Layer} {s r : List Char} {c : Condition} (h : Phrase l s c r) :
    r.length < s.length := by
  have := phrase_nodes h
  have := c.nodes_pos
  omega

/-! ## What follows the grammar is read -/

/-- One of two keywords. -/
def either (w w' : String) : Parser Unit := keyword w <|> keyword w'

theorem either_ok {w w' : String} (is_name : IsName w) (is_name' : IsName w') {s r : List Char} {u : Unit} :
    either w w' s = .ok u r ↔ Word w s r ∨ Word w' s r := by
  simp only [either, Parser.orElse_ok, keyword_ok, keyword_refuses]
  refine ⟨?_, ?_⟩
  · exact fun h => h.imp_right And.right
  · intro given
    rcases given with word | word
    · exact Or.inl word
    · -- both keywords are names, and only one name begins the text
      by_cases first : ∃ t, Word w s t
      · obtain ⟨t, first⟩ := first
        obtain ⟨-, rfl⟩ := name_unique (name_of_word first is_name) (name_of_word word is_name')
        exact Or.inl first
      · exact Or.inr ⟨not_exists.1 first, word⟩

theorem either_refuses {w w' : String} {s : List Char} (h : ∀ r, ¬ Word w s r) (h' : ∀ r, ¬ Word w' s r) :
    (either w w').Refuses s :=
  Parser.orElse_refuses.2 ⟨keyword_refuses.2 h, keyword_refuses.2 h'⟩

/-- A further item of a chain. -/
def link (item : Parser Condition) (sign : Parser Unit) : Parser Condition := do
  trivia
  sign
  Parser.committed item

section
variable {item : Parser Condition} {w w' : String} (is_name : IsName w) (is_name' : IsName w')
include is_name is_name'

theorem link_ok {s r : List Char} {c : Condition} :
    link item (either w w') s = .ok c r ↔
      ∃ t, (Word w (skipTrivia none s) t ∨ Word w' (skipTrivia none s) t) ∧ item t = .ok c r := by
  simp only [link, Parser.bind_ok, trivia_ok, either_ok is_name is_name', Parser.committed_ok]
  simp

/-- The chain goes on if and only if its operator follows. -/
theorem link_refuses {s : List Char} :
    (link item (either w w')).Refuses s ↔ ¬ (Follows w s ∨ Follows w' s) := by
  rw [not_or, not_follows_iff is_name, not_follows_iff is_name', link, either]
  simp [keyword_refuses]

theorem link_consumes (shorter : item.Consumes) : (link item (either w w')).Consumes := by
  intro s c r h
  obtain ⟨t, word, read⟩ := (link_ok is_name is_name').1 h
  have := trivia_length (trivia_skipTrivia s)
  have := shorter t c r read
  rcases word with word | word <;> have := word_length word <;> omega

theorem chain_ok (shorter : item.Consumes) {join : Condition → Condition → Condition} {s r : List Char}
    {c : Condition} : chain item (either w w') join s = .ok c r ↔
      ∃ first t ds, item s = .ok first t ∧ Many (Reads (link item (either w w'))) t ds r ∧
        ¬ (Follows w r ∨ Follows w' r) ∧ c = ds.foldl join first := by
  have stops (r : List Char) : (link item (either w w')).Refuses r ↔ ¬ (Follows w r ∨ Follows w' r) :=
    link_refuses is_name is_name'
  have items (t : List Char) (ds : List Condition) (r : List Char) :
      (link item (either w w')).many t = .ok ds r ↔ _ :=
    Parser.many_ok (link_consumes is_name is_name' shorter)
  simp only [← stops, chain, Parser.bind_ok, Parser.pure_ok]
  refine ⟨?_, ?_⟩
  · intro given
    obtain ⟨first, t, read, ds, t', others, rfl, rfl⟩ := given
    obtain ⟨others, stop⟩ := (items t ds t').1 others
    exact ⟨first, t, ds, read, others, stop, rfl⟩
  · intro given
    obtain ⟨first, t, ds, read, others, stop, rfl⟩ := given
    exact ⟨first, t, read, ds, r, (items t ds r).2 ⟨others, stop⟩, rfl, rfl⟩

theorem chain_consumes (shorter : item.Consumes) (join : Condition → Condition → Condition) :
    (chain item (either w w') join).Consumes := by
  intro s c r h
  obtain ⟨first, t, ds, read, others, -, -⟩ := (chain_ok is_name is_name' shorter).1 h
  have := shorter s first t read
  have := others.length_le (link_consumes is_name is_name' shorter)
  omega

end

/-- An operand does not see blanks and comments in front of it. -/
theorem operandStep_gap (operand : Parser Condition) {s t : List Char} (gap : Trivia s t) :
    operandStep operand s = operandStep operand t := by
  show (trivia >>= _) s = (trivia >>= _) t
  rw [Parser.bind_apply, Parser.bind_apply, trivia, trivia, skipTrivia_of_trivia gap]

theorem nested_consumes (n : Nat) : (nested operandStep n).Consumes :=
  fun s c r h => phrase_length (nested_sound n s c r h)

theorem isName_and : IsName "AND" ∧ IsName "and" := by decide

theorem isName_or : IsName "OR" ∧ IsName "or" := by decide

theorem isName_not : IsName "NOT" ∧ IsName "not" := by decide

theorem conjunction_consumes {operand : Parser Condition} (consumes : operand.Consumes) :
    (conjunction operand).Consumes := chain_consumes isName_and.1 isName_and.2 consumes .and

/-- Blanks in front of a disjunction are skipped by its first operand as well. -/
theorem disjunction_eq (n : Nat) (s : List Char) :
    disjunction (nested operandStep (n + 1)) s =
      chain (conjunction (nested operandStep (n + 1))) (either "OR" "or") .or s := by
  have same : nested operandStep (n + 1) (skipTrivia none s) = nested operandStep (n + 1) s :=
    (operandStep_gap _ (trivia_skipTrivia s)).symm
  have same' : conjunction (nested operandStep (n + 1)) (skipTrivia none s) =
      conjunction (nested operandStep (n + 1)) s := by
    show (nested operandStep (n + 1) >>= _) _ = (nested operandStep (n + 1) >>= _) _
    rw [Parser.bind_apply, Parser.bind_apply, same]
  show (conjunction (nested operandStep (n + 1)) >>= _) _ = (conjunction (nested operandStep (n + 1)) >>= _) _
  rw [Parser.bind_apply, Parser.bind_apply, same']
  rfl

/-- How the parser reads a phrase, if it may go as deep as the text is long and no
number goes on behind. -/
def IsRead : Layer → List Char → Condition → List Char → Prop
  | .operand, s, c, r => ∀ n, s.length < n → NumberEnds r → nested operandStep n s = .ok c r
  | .conjunction, s, c, r => ∀ n, s.length < n → NumberEnds r →
    ∃ first t ds, nested operandStep n s = .ok first t ∧
      Many (Reads (link (nested operandStep n) (either "AND" "and"))) t ds r ∧ c = ds.foldl .and first
  | .disjunction, s, c, r => ∀ n, s.length < n → NumberEnds r → ¬ (Follows "AND" r ∨ Follows "and" r) →
    ∃ first t ds, conjunction (nested operandStep n) s = .ok first t ∧
      Many (Reads (link (conjunction (nested operandStep n)) (either "OR" "or"))) t ds r ∧
        c = ds.foldl .or first
  | .primary, s, c, r => ∀ n, s.length ≤ n → NumberEnds r →
    primary (disjunction (nested operandStep n)) s = .ok c r

theorem conjunction_complete {s r : List Char} {c : Condition} (h : IsRead .conjunction s c r) {n : Nat}
    (deep : s.length < n) (ends : NumberEnds r) (stop : ¬ (Follows "AND" r ∨ Follows "and" r)) :
    conjunction (nested operandStep n) s = .ok c r := by
  obtain ⟨first, t, ds, read, others, rfl⟩ := h n deep ends
  exact (chain_ok isName_and.1 isName_and.2 (nested_consumes n)).2 ⟨first, t, ds, read, others, stop, rfl⟩

theorem disjunction_complete {s r : List Char} {c : Condition} (h : IsRead .disjunction s c r) {n : Nat}
    (deep : s.length < n) (ends : NumberEnds r) (stop : ¬ (Follows "AND" r ∨ Follows "and" r))
    (stop' : ¬ (Follows "OR" r ∨ Follows "or" r)) : disjunction (nested operandStep n) s = .ok c r := by
  obtain ⟨first, t, ds, read, others, rfl⟩ := h n deep ends stop
  obtain ⟨m, rfl⟩ : ∃ m, n = m + 1 := ⟨n - 1, by omega⟩
  rw [disjunction_eq, chain_ok isName_or.1 isName_or.2 (conjunction_consumes (nested_consumes _))]
  exact ⟨first, t, ds, read, others, stop', rfl⟩

theorem isName_truth : IsName "true" ∧ IsName "false" := by decide

/-- A name that begins a comparison is no other word of conditions. -/
theorem no_word_of_free {s t : List Char} {field : String} (is_name : Name s field t)
    (free : isWordOfConditions field = false) {w : String} (hw : w ∈ ["true", "false", "NOT", "not"]) :
    ∀ r, ¬ Word w s r := by
  intro r word
  have named : IsName w := by
    simp only [List.mem_cons, List.not_mem_nil, or_false] at hw
    rcases hw with rfl | rfl | rfl | rfl <;> decide
  obtain ⟨rfl, -⟩ := name_unique is_name (name_of_word word named)
  simp only [List.mem_cons, List.not_mem_nil, or_false] at hw
  rcases hw with rfl | rfl | rfl | rfl <;> cases free

/-- A primary begins neither with a blank nor with a comment nor with NOT. -/
theorem primary_solid {s r : List Char} {c : Condition} (h : Phrase .primary s c r) :
    Solid s ∧ (either "NOT" "not").Refuses s := by
  cases h with
  | @parentheses s =>
    have other := not_begins_bracket s
    exact ⟨solid_cons.2 ⟨rfl, by decide⟩, either_refuses (no_word_of_begins other isName_not.1)
      (no_word_of_begins other isName_not.2)⟩
  | true word =>
    have other {w : String} (is_name : IsName w) (ne : "true" ≠ w) : ∀ r, ¬ Word w s r :=
      fun r word' => ne (word_unique isName_truth.1 is_name word word')
    exact ⟨solid_of_begins (begins_of_word word isName_truth.1),
      either_refuses (other isName_not.1 (by decide)) (other isName_not.2 (by decide))⟩
  | false word =>
    have other {w : String} (is_name : IsName w) (ne : "false" ≠ w) : ∀ r, ¬ Word w s r :=
      fun r word' => ne (word_unique isName_truth.2 is_name word word')
    exact ⟨solid_of_begins (begins_of_word word isName_truth.2),
      either_refuses (other isName_not.1 (by decide)) (other isName_not.2 (by decide))⟩
  | compare is_name free _ _ _ _ =>
    exact ⟨solid_of_begins (name_begins is_name),
      either_refuses (no_word_of_free is_name free (by simp)) (no_word_of_free is_name free (by simp))⟩
  | truthy is_name free _ =>
    exact ⟨solid_of_begins (name_begins is_name),
      either_refuses (no_word_of_free is_name free (by simp)) (no_word_of_free is_name free (by simp))⟩

/-- No literal begins with an equals sign. -/
theorem no_equals_of_literal {s t r : List Char} {v : Value} (gap : Trivia s t) (literal : Literal t v r) :
    ∀ u, s ≠ '=' :: u := by
  intro u same
  subst same
  have whole : skipTrivia none ('=' :: u) = t := skipTrivia_eq gap (literal_solid literal)
  rw [skipTrivia_of_solid (solid_cons.2 ⟨rfl, by decide⟩)] at whole
  obtain ⟨c, t', e, start⟩ := literal_begins literal
  rw [← whole] at e
  rw [← (List.cons.inj e).1] at start
  cases start

/-- An operator is one character, or another and an equals sign. -/
theorem symbol_cases (op : Comparison) :
    (∃ c, op.symbol.toList = [c]) ∨ ∃ c, op.symbol.toList = [c, '='] := by
  cases op <;> simp [Comparison.symbol]

/-- The operator in front of a literal is the longest that stands there. -/
theorem operator_longest {s s₁ s₂ r : List Char} {op : Comparison} {v : Value} (sign : Operator s op s₁)
    (gap : Trivia s₁ s₂) (literal : Literal s₂ v r) {op' : Comparison} {t : List Char}
    (other : Operator s op' t) : op'.symbol.length ≤ op.symbol.length := by
  rw [← String.length_toList, ← String.length_toList]
  rcases symbol_cases op' with ⟨d, one'⟩ | ⟨d, two'⟩
  · rcases symbol_cases op with ⟨c, one⟩ | ⟨c, two⟩
    · simp [one, one']
    · simp [two, one']
  · rcases symbol_cases op with ⟨c, one⟩ | ⟨c, two⟩
    · -- the literal would have to begin with the equals sign of the longer operator
      unfold Operator at sign other
      rw [sign, one, two'] at other
      exact absurd (List.cons.inj other).2 (no_equals_of_literal gap literal t)
    · simp [two, two']

theorem comparison_complete {s s₁ s₂ s₃ s₄ r : List Char} {field : String} {op : Comparison} {v : Value}
    (is_name : Name s field s₁) (gap : Trivia s₁ s₂) (sign : Operator s₂ op s₃) (gap' : Trivia s₃ s₄)
    (literal : Literal s₄ v r) (ends : NumberEnds r) : comparison s = .ok (.compare field op v) r := by
  have read := operator_behind gap sign (no_equals_of_literal gap' literal)
  refine Parser.bind_ok.2 ⟨field, s₁, name_ok.2 is_name, Parser.bind_ok.2 ⟨some op, s₃,
    Parser.optional_ok.2 (Or.inl ⟨op, read, rfl⟩), Parser.bind_ok.2 ⟨v, r, ?_, rfl⟩⟩⟩
  exact Parser.committed_ok.2 (value_complete gap' literal ends)

theorem truthy_complete {s r : List Char} {field : String} (is_name : Name s field r)
    (alone : ∀ s₁ op s₂, Trivia r s₁ → ¬ Operator s₁ op s₂) : comparison s = .ok (.truthy field) r := by
  have refused : Refuses (do trivia; operator : Parser Comparison) r :=
    Parser.bind_refuses.2 (Or.inr ⟨(), _, trivia_ok.2 rfl,
      operator_refuses.2 fun op t => alone _ op t (trivia_skipTrivia r)⟩)
  exact Parser.bind_ok.2 ⟨field, r, name_ok.2 is_name, Parser.bind_ok.2 ⟨none, r,
    Parser.optional_ok.2 (Or.inr ⟨refused, rfl, rfl⟩), rfl⟩⟩

section
variable {disjunction : Parser Condition} {s r : List Char} {c : Condition}

theorem primary_const {b : Bool} (word : Word (if b then "true" else "false") s r) :
    primary disjunction s = .ok (.const b) r := by
  have begins : Begins isWordStart s := begins_of_word word (by cases b <;> decide)
  have solid := skipTrivia_of_solid (solid_of_begins begins)
  have no_bracket := ne_bracket_of_begins begins
  simp only [primary, Parser.bind_ok, trivia_ok, Parser.wanting_ok, Parser.orElse_ok, Parser.bind_refuses,
    Parser.char_refuses, keyword_refuses, keyword_ok, Parser.pure_ok]
  refine ⟨(), s, solid.symm, Or.inr ⟨Or.inl no_bracket, ?_⟩⟩
  cases b with
  | true => exact Or.inl ⟨(), r, word, rfl, rfl⟩
  | false =>
    refine Or.inr ⟨Or.inl ?_, Or.inl ⟨(), r, word, rfl, rfl⟩⟩
    intro t word'
    exact absurd (word_unique isName_truth.2 isName_truth.1 word word') (by decide)

theorem primary_comparison {t : List Char} {field : String} (is_name : Name s field t)
    (free : isWordOfConditions field = false) (h : comparison s = .ok c r) :
    primary disjunction s = .ok c r := by
  have solid := skipTrivia_of_solid (solid_of_begins (name_begins is_name))
  have no_bracket := ne_bracket_of_begins (name_begins is_name)
  simp only [primary, Parser.bind_ok, trivia_ok, Parser.wanting_ok, Parser.orElse_ok, Parser.bind_refuses,
    Parser.char_refuses, keyword_refuses]
  exact ⟨(), s, solid.symm, Or.inr ⟨Or.inl no_bracket, Or.inr ⟨Or.inl (no_word_of_free is_name free (by simp)),
    Or.inr ⟨Or.inl (no_word_of_free is_name free (by simp)), h⟩⟩⟩⟩

end

/-- In front of anything but a name neither AND nor OR follows. -/
theorem no_link {s t : List Char} (gap : Trivia s t) (solid : Solid t) (h : ¬ Begins isWordStart t) :
    ¬ (Follows "AND" s ∨ Follows "and" s) ∧ ¬ (Follows "OR" s ∨ Follows "or" s) := by
  have none (w : String) (is_name : IsName w) : ¬ Follows w s := not_follows_of_begins is_name gap solid h
  exact ⟨not_or.2 ⟨none _ isName_and.1, none _ isName_and.2⟩, not_or.2 ⟨none _ isName_or.1, none _ isName_or.2⟩⟩

/-- In front of OR there is no AND. -/
theorem no_and_of_or {s : List Char} (h : Follows "OR" s ∨ Follows "or" s) :
    ¬ (Follows "AND" s ∨ Follows "and" s) := by
  have distinct {w w' : String} (is_name : IsName w) (is_name' : IsName w') (ne : w ≠ w')
      (h : Follows w s) (k : Follows w' s) : False := ne (follows_unique is_name is_name' h k)
  intro given
  rcases given with k | k <;> rcases h with h | h
  · exact distinct isName_or.1 isName_and.1 (by decide) h k
  · exact distinct isName_or.2 isName_and.1 (by decide) h k
  · exact distinct isName_or.1 isName_and.2 (by decide) h k
  · exact distinct isName_or.2 isName_and.2 (by decide) h k

/-- What holds in front of a keyword: it follows, and no number goes on. -/
theorem joined {w w' : String} (is_name : IsName w) (is_name' : IsName w') {s t r : List Char}
    (gap : Trivia s t) (word : Word w t r ∨ Word w' t r) :
    (Follows w s ∨ Follows w' s) ∧ NumberEnds s ∧ skipTrivia none s = t ∧ r.length < s.length := by
  have begins : Begins isWordStart t :=
    word.elim (fun h => begins_of_word h is_name) (fun h => begins_of_word h is_name')
  have ends : NumberEnds t := by
    obtain ⟨c, u, rfl, start⟩ := begins
    exact numberEnds_of_isWordStart start
  refine ⟨word.imp (fun h => ⟨t, r, gap, h⟩) (fun h => ⟨t, r, gap, h⟩), numberEnds_of_trivia gap ends,
    skipTrivia_eq gap (solid_of_begins begins), ?_⟩
  refine Nat.lt_of_lt_of_le ?_ (trivia_length gap)
  rcases word with word | word
  · exact name_length (name_of_word word is_name)
  · exact name_length (name_of_word word is_name')

/-- What follows the grammar is read. -/
theorem phrase_read {l : Layer} {s r : List Char} {c : Condition} (h : Phrase l s c r) : IsRead l s c r := by
  induction h with
  | @conjunction s r c _ ih =>
    intro n deep ends stop
    exact ⟨c, r, [], conjunction_complete ih deep ends stop, Many.nil r, rfl⟩
  -- the chain read for the left side goes on by one link
  | @or s s₁ s₂ s₃ r c d left gap word _ ih ih' =>
    intro n deep ends stop
    obtain ⟨follows, ends', skipped, length⟩ := joined isName_or.1 isName_or.2 gap word
    obtain ⟨first, t, ds, read, others, rfl⟩ := ih n deep ends' (no_and_of_or follows)
    have := phrase_length left
    have next := conjunction_complete ih' (n := n) (by omega) ends stop
    refine ⟨first, t, ds ++ [d], read, others.snoc ?_, by simp⟩
    exact (link_ok isName_or.1 isName_or.2).2 ⟨s₃, by rwa [skipped], next⟩
  | @operand s r c _ ih =>
    intro n deep ends
    exact ⟨c, r, [], ih n deep ends, Many.nil r, rfl⟩
  -- as for OR, one layer below
  | @and s s₁ s₂ s₃ r c d left gap word _ ih ih' =>
    intro n deep ends
    obtain ⟨-, ends', skipped, length⟩ := joined isName_and.1 isName_and.2 gap word
    obtain ⟨first, t, ds, read, others, rfl⟩ := ih n deep ends'
    have := phrase_length left
    have next := ih' n (by omega) ends
    refine ⟨first, t, ds ++ [d], read, others.snoc ?_, by simp⟩
    exact (link_ok isName_and.1 isName_and.2).2 ⟨s₃, by rwa [skipped], next⟩
  | @not s s₁ s₂ r c gap word inner ih =>
    intro n deep ends
    obtain ⟨m, rfl⟩ : ∃ m, n = m + 1 := ⟨n - 1, by omega⟩
    obtain ⟨-, -, skipped, length⟩ := joined isName_not.1 isName_not.2 gap word
    have read := ih m (by omega) ends
    exact Parser.bind_ok.2 ⟨(), s₁, trivia_ok.2 skipped.symm, Parser.bind_ok.2 ⟨some (), s₂,
      Parser.optional_ok.2 (Or.inl ⟨(), (either_ok isName_not.1 isName_not.2).2 word, rfl⟩),
      Parser.bind_ok.2 ⟨c, r, Parser.committed_ok.2 read, rfl⟩⟩⟩
  | @primary s s₁ r c gap only ih =>
    intro n deep ends
    obtain ⟨m, rfl⟩ : ∃ m, n = m + 1 := ⟨n - 1, by omega⟩
    obtain ⟨solid, free⟩ := primary_solid only
    have := trivia_length gap
    have read := ih m (by omega) ends
    refine Parser.bind_ok.2 ⟨(), s₁, trivia_ok.2 (skipTrivia_eq gap solid).symm, Parser.bind_ok.2 ⟨none, s₁,
      Parser.optional_ok.2 (Or.inr ⟨free, rfl, rfl⟩), read⟩⟩
  | @parentheses s s₁ r c inner gap ih =>
    intro n deep ends
    have solid : Solid (')' :: r) := solid_cons.2 ⟨rfl, by decide⟩
    -- nothing carries the condition on in front of a parenthesis
    obtain ⟨stop, stop'⟩ := no_link gap solid (by simp [isWordStart])
    have ends' : NumberEnds s₁ := numberEnds_of_trivia gap (numberEnds_cons.2 ⟨rfl, by decide⟩)
    have read := disjunction_complete ih (n := n) (Nat.lt_of_succ_le deep) ends' stop stop'
    simp only [primary, Parser.bind_ok, trivia_ok, Parser.wanting_ok, Parser.orElse_ok, Parser.char_ok,
      Parser.committed_ok, Parser.pure_ok]
    refine ⟨(), '(' :: s, rfl, Or.inl ⟨'(', s, ⟨rfl, rfl⟩, c, s₁, read, (), _, rfl, ')', r, ⟨?_, rfl⟩, rfl, rfl⟩⟩
    exact skipTrivia_eq gap solid
  | true word => exact fun n _ _ => primary_const (b := true) word
  | false word => exact fun n _ _ => primary_const (b := false) word
  | compare is_name free gap sign gap' literal =>
    exact fun n _ ends =>
      primary_comparison is_name free (comparison_complete is_name gap sign gap' literal ends)
  | truthy is_name free alone =>
    exact fun n _ _ => primary_comparison is_name free (truthy_complete is_name alone)

/-! ## The bound on the depth -/

section
variable {item item' : Parser Condition} {k : Nat} (consumes : item.Consumes)
  (same : ∀ t : List Char, t.length ≤ k → item t = item' t)
include consumes same

theorem chain_congr {w w' : String} (is_name : IsName w) (is_name' : IsName w')
    (join : Condition → Condition → Condition) {s : List Char} (short : s.length ≤ k) :
    chain item (either w w') join s = chain item' (either w w') join s := by
  apply Parser.bind_congr (same s short)
  intro first t read
  have := consumes s first t read
  refine Parser.bind_congr ?_ fun _ _ _ => rfl
  refine Parser.many_congr (link_consumes is_name is_name' consumes) ?_ (k := k) (by omega)
  intro t short
  refine Parser.bind_congr rfl fun _ t₁ skipped => Parser.bind_congr rfl fun _ t₂ signed => ?_
  refine Parser.committed_congr (same t₂ ?_)
  have := trivia_length (trivia_skipTrivia t)
  rw [← trivia_ok.1 skipped] at this
  rcases (either_ok is_name is_name').1 signed with word | word <;> have := word_length word <;> omega

end

theorem disjunction_congr {operand operand' : Parser Condition} {k : Nat} (consumes : operand.Consumes)
    (same : ∀ t : List Char, t.length ≤ k → operand t = operand' t) {s : List Char} (short : s.length ≤ k) :
    disjunction operand s = disjunction operand' s := by
  apply Parser.bind_congr rfl
  intro _ t skipped
  have := trivia_length (trivia_skipTrivia s)
  rw [← trivia_ok.1 skipped] at this
  refine chain_congr (conjunction_consumes consumes) ?_ isName_or.1 isName_or.2 _ (Nat.le_trans this short)
  intro t short
  exact chain_congr consumes same isName_and.1 isName_and.2 _ short

/-- What a primary holds within it stands behind a parenthesis. -/
theorem primary_congr {inner inner' : Parser Condition} {s : List Char}
    (same : ∀ t, skipTrivia none s = '(' :: t → inner t = inner' t) : primary inner s = primary inner' s := by
  refine Parser.bind_congr rfl fun _ t₁ skipped => Parser.wanting_congr (Parser.orElse_congr ?_ rfl)
  refine Parser.bind_congr rfl fun _ t₂ opened => Parser.bind_congr ?_ fun _ _ _ => rfl
  obtain ⟨rfl, -⟩ := Parser.char_ok.1 opened
  exact same t₂ (trivia_ok.1 skipped).symm

/-- An operand, given how to read what stands behind a NOT, and what stands there without one. -/
def operandOf (negated plain : Parser Condition) : Parser Condition := do
  trivia
  match ← Parser.optional? (keyword "NOT" <|> keyword "not") with
  | some _ => do
    let inner ← Parser.committed negated
    return .not inner
  | none => plain

theorem operandOf_congr {negated negated' plain plain' : Parser Condition} {s : List Char}
    (behind : ∀ t, Word "NOT" (skipTrivia none s) t ∨ Word "not" (skipTrivia none s) t → negated t = negated' t)
    (without : plain (skipTrivia none s) = plain' (skipTrivia none s)) :
    operandOf negated plain s = operandOf negated' plain' s := by
  apply Parser.bind_congr rfl
  intro _ t skipped
  obtain rfl := trivia_ok.1 skipped
  apply Parser.bind_congr rfl
  intro sign t' read
  rcases Parser.optional_ok.1 read with ⟨u, signed, rfl⟩ | ⟨-, rfl, rfl⟩
  · refine Parser.bind_congr (Parser.committed_congr (behind t' ?_)) fun _ _ _ => rfl
    exact (either_ok isName_not.1 isName_not.2).1 signed
  · exact without

/-- The parts within an operand stand behind a parenthesis or a NOT. -/
theorem operandStep_descends : Parser.Descends operandStep := by
  intro p q s consumes _ same
  show operandOf p (primary (disjunction p)) s = operandOf q (primary (disjunction q)) s
  apply operandOf_congr
  · intro t word
    obtain ⟨-, -, -, shorter⟩ := joined isName_not.1 isName_not.2 (trivia_skipTrivia s) word
    exact same t shorter
  · apply primary_congr
    intro t opened
    rw [solid_skipTrivia] at opened
    have := trivia_length (trivia_skipTrivia s)
    rw [opened, List.length_cons] at this
    exact disjunction_congr consumes (fun u short => same u (by omega)) (Nat.le_refl _)

theorem operand_eq : operand = operandStep operand :=
  Parser.recursive_eq operandStep_descends nested_consumes

theorem operand_eq_nested {n : Nat} {s : List Char} (deep : s.length < n) :
    operand s = nested operandStep n s :=
  Parser.nested_eq_nested operandStep_descends nested_consumes (Nat.lt_succ_self _) deep

/-- A condition is read as deep as its text is long. -/
theorem condition_eq (s : List Char) :
    condition s = disjunction (nested operandStep (s.length + 1)) s := by
  refine disjunction_congr (Parser.recursive_consumes nested_consumes) ?_ (Nat.le_refl _)
  intro t short
  exact operand_eq_nested (Nat.lt_succ_of_le short)

/-- A condition is read if nothing behind it carries it on. -/
theorem condition_complete {s r : List Char} {c : Condition} (h : Expression s c r) (ends : NumberEnds r)
    (stop : ¬ (Follows "AND" r ∨ Follows "and" r)) (stop' : ¬ (Follows "OR" r ∨ Follows "or" r)) :
    condition s = .ok c r := by
  rw [condition_eq]
  exact disjunction_complete (phrase_read h) (Nat.lt_succ_self _) ends stop stop'

/-- A text is read as a whole if nothing is left over. -/
theorem parse_ok {α : Type} {p : Parser α} {text : String} {a : α} :
    parse p text = .ok a ↔ p text.toList = .ok a [] := by
  unfold parse
  dsimp only
  split <;> simp_all

/-! ## Conditions that stand alone -/

/-- A condition that stands alone is read if nothing but blanks and comments is left. -/
theorem parseCondition_ok {text : String} {c : Condition} :
    parseCondition text = .ok c ↔ ∃ r, condition text.toList = .ok c r ∧ Trivia r [] := by
  rw [parseCondition, parse_ok, loneCondition]
  simp only [Parser.bind_ok, trivia_ok, Parser.pure_ok]
  refine ⟨?_, ?_⟩
  · intro h
    obtain ⟨c', r, read, -, t, skipped, rfl, rfl⟩ := h
    refine ⟨r, read, ?_⟩
    rw [skipped]
    exact trivia_skipTrivia r
  · intro h
    obtain ⟨r, read, gap⟩ := h
    exact ⟨c, r, read, (), [], (skipTrivia_eq gap solid_nil).symm, rfl, rfl⟩

/-- In front of blanks and comments up to the end nothing carries a condition on. -/
theorem condition_last {s r : List Char} {c : Condition} (h : Expression s c r) (gap : Trivia r []) :
    condition s = .ok c r := by
  obtain ⟨stop, stop'⟩ := no_link gap solid_nil Parser.not_begins_nil
  exact condition_complete h (numberEnds_of_trivia gap numberEnds_nil) stop stop'

theorem loneCondition_iff {text : String} {c : Condition} :
    parseCondition text = .ok c ↔ LoneCondition text.toList c := by
  rw [parseCondition_ok]
  refine ⟨?_, ?_⟩
  · intro given
    obtain ⟨r, read, gap⟩ := given
    exact ⟨r, condition_sound _ _ _ read, gap⟩
  · intro given
    obtain ⟨r, expression, gap⟩ := given
    exact ⟨r, condition_last expression gap, gap⟩

/-- **Conditions that stand alone.** A text is read as a condition if and only if the
grammar derives the condition from it, and every other text is refused. The operator
of a comparison is the longest that stands in front of its literal. -/
theorem parseCondition_iff (text : String) :
    (∀ c, parseCondition text = .ok c ↔ LoneCondition text.toList c) ∧
      ((∃ m, parseCondition text = .error m) ↔ ∀ c, ¬ LoneCondition text.toList c) ∧
      ∀ s op s₁ s₂ v r, Operator s op s₁ → Trivia s₁ s₂ → Literal s₂ v r →
        ∀ op' t, Operator s op' t → op'.symbol.length ≤ op.symbol.length := by
  refine ⟨fun c => loneCondition_iff, ?_, fun _ _ _ _ _ _ sign gap literal _ _ => operator_longest sign gap literal⟩
  simp only [← loneCondition_iff]
  cases parseCondition text <;> simp

end RuleText

end RuleWatch
