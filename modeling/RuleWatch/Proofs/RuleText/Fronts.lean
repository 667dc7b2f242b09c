import RuleWatch.Proofs.RuleText.RuleFiles
/-!
  Texts broken off and resumed. Where a text is broken off and goes on otherwise on
  a new line, all that had been read of it up to there is still read, with the same
  meaning: each relation of the grammar holds between the resumed texts if it holds
  between the texts. A line break ends an open comment and continues no name.

  Most of the grammar does not look ahead. A field that stands alone and a clause that
  is absent do: there the new text must not bring an operator or the keyword of a clause
  that the old one has not (`Calm`).
-/

namespace RuleWatch.RuleText

open Grammar
open RuleWatch.Parser (Begins Many)

/-- The second text is the first, broken off where `rest` begins and resumed on a
new line. -/
def Resumed (rest u s s' : List Char) : Prop := ∃ front, s = front ++ rest ∧ s' = front ++ '\n' :: u

section
variable {rest u s s' r r' : List Char}

namespace Resumed

theorem here (rest u : List Char) : Resumed rest u rest ('\n' :: u) := ⟨[], rfl, rfl⟩

theorem append (t : Resumed rest u r r') (w : List Char) : Resumed rest u (w ++ r) (w ++ r') := by
  obtain ⟨front, rfl, rfl⟩ := t
  exact ⟨w ++ front, by rw [List.append_assoc], by rw [List.append_assoc]⟩

theorem cons (t : Resumed rest u r r') (c : Char) : Resumed rest u (c :: r) (c :: r') := t.append [c]

theorem lineEnd (t : Resumed rest u r r') (ends : LineEnd r) : LineEnd r' := by
  obtain ⟨front, rfl, rfl⟩ := t
  -- a line end is at most two characters long, and may itself be cut in the middle
  rcases front with _ | ⟨c, _ | ⟨d, front⟩⟩
  · exact Or.inr (Or.inl ⟨u, rfl⟩)
  · rcases ends with none | ⟨v, e⟩ | ⟨v, e⟩
    · cases none
    · rw [(List.cons.inj e).1]
      exact Or.inr (Or.inl ⟨_, rfl⟩)
    · rw [(List.cons.inj e).1]
      exact Or.inr (Or.inr ⟨u, rfl⟩)
  · rcases ends with none | ⟨v, e⟩ | ⟨v, e⟩
    · cases none
    · rw [(List.cons.inj e).1]
      exact Or.inr (Or.inl ⟨_, rfl⟩)
    · rw [(List.cons.inj e).1, (List.cons.inj (List.cons.inj e).2).1]
      exact Or.inr (Or.inr ⟨_, rfl⟩)

/-- A line break is no part of a name. -/
theorem ends (t : Resumed rest u r r') (stop : ¬ Begins isWordChar r) : ¬ Begins isWordChar r' := by
  obtain ⟨front, rfl, rfl⟩ := t
  cases front with
  | nil => exact fun given => absurd (Parser.begins_cons.1 given) (by decide)
  | cons c front => exact fun given => stop (Parser.begins_cons.2 (Parser.begins_cons.1 given))

end Resumed

/-! ## Tokens -/

theorem trivia_resumed (h : Trivia s r) (t : Resumed rest u r r') : ∃ s', Resumed rest u s s' ∧ Trivia s' r' := by
  induction h with
  | none => exact ⟨r', t, Trivia.none r'⟩
  | blank blank _ ih =>
    obtain ⟨s', t', gap⟩ := ih t
    exact ⟨_, t'.cons _, Trivia.blank blank gap⟩
  | @comment body s r clean ends _ ih =>
    obtain ⟨s', t', gap⟩ := ih t
    exact ⟨_, (t'.append body).cons '#', Trivia.comment clean (t'.lineEnd ends) gap⟩

theorem word_resumed {w : String} (h : Word w s r) (t : Resumed rest u r r') :
    ∃ s', Resumed rest u s s' ∧ Word w s' r' := by
  obtain ⟨rfl, stop⟩ := h
  exact ⟨_, t.append _, rfl, t.ends stop⟩

theorem name_resumed {n : String} (h : Name s n r) (t : Resumed rest u r r') :
    ∃ s', Resumed rest u s s' ∧ Name s' n r' := by
  obtain ⟨is_name, rfl, stop⟩ := h
  exact ⟨_, t.append _, is_name, rfl, t.ends stop⟩

theorem stringBody_resumed {b : List Char} (h : StringBody s b r) (t : Resumed rest u r r') :
    ∃ s', Resumed rest u s s' ∧ StringBody s' b r' := by
  induction h with
  | close r => exact ⟨_, t.cons '"', StringBody.close r'⟩
  | escape stands _ ih =>
    obtain ⟨s', t', body⟩ := ih t
    exact ⟨_, (t'.cons _).cons '\\', StringBody.escape stands body⟩
  | plain quote backslash _ ih =>
    obtain ⟨s', t', body⟩ := ih t
    exact ⟨_, t'.cons _, StringBody.plain quote backslash body⟩

theorem count_resumed {n : Nat} (h : Count s n r) (t : Resumed rest u r r') :
    ∃ s', Resumed rest u s s' ∧ Count s' n r' := by
  cases h with
  | zero => exact ⟨_, t.cons '0', Count.zero r'⟩
  | positive r digits small => exact ⟨_, t.append _, Count.positive r' digits small⟩

theorem literal_resumed {v : Value} (h : Literal s v r) (t : Resumed rest u r r') :
    ∃ s', Resumed rest u s s' ∧ Literal s' v r' := by
  cases h with
  | string body =>
    obtain ⟨s', t', body'⟩ := stringBody_resumed body t
    exact ⟨_, t'.cons '"', Literal.string body'⟩
  | true word =>
    obtain ⟨s', t', word'⟩ := word_resumed word t
    exact ⟨s', t', Literal.true word'⟩
  | false word =>
    obtain ⟨s', t', word'⟩ := word_resumed word t
    exact ⟨s', t', Literal.false word'⟩
  | @float whole places negative r whole_digits places_digits =>
    exact ⟨_, (((t.append places).cons '.').append whole).append (minus negative),
      Literal.float negative r' whole_digits places_digits⟩
  | zero => exact ⟨_, t.cons '0', Literal.zero r'⟩
  | @positive ds plus r sign digits small =>
    exact ⟨_, (t.append ds).append plus, Literal.positive plus r' sign digits small⟩
  | @negative ds r digits small => exact ⟨_, (t.append ds).cons '-', Literal.negative r' digits small⟩

theorem operator_resumed {op : Comparison} (h : Operator s op r) (t : Resumed rest u r r') :
    ∃ s', Resumed rest u s s' ∧ Operator s' op r' := by
  unfold Operator at h
  subst h
  exact ⟨_, t.append _, rfl⟩

/-! ## What follows -/

/-- An operator follows, perhaps behind blanks and comments. -/
def Compares (s : List Char) : Prop := ∃ s₁ op s₂, Trivia s s₁ ∧ Operator s₁ op s₂

/-- A keyword that begins a clause of an action. -/
def IsClauseWord (w : String) : Prop := w = "after" ∨ w = "with"

theorem IsClauseWord.isName {w : String} (h : IsClauseWord w) : IsName w := by
  rcases h with rfl | rfl
  · exact isName_after
  · exact isName_with

/-- No operator and no clause of an action follows in the second text that does not
follow in the first. -/
structure Calm (r r' : List Char) : Prop where
  words : ∀ w, IsClauseWord w → Follows w r' → Follows w r
  operators : Compares r' → Compares r

theorem not_compares_of_follows {w : String} (is_name : IsName w) (h : Follows w s) : ¬ Compares s := by
  intro given
  obtain ⟨s₁, op, s₂, gap, sign⟩ := given
  obtain ⟨t, word⟩ := (follows_iff is_name).1 h
  rw [skipTrivia_eq gap (solid_of_operator sign)] at word
  obtain ⟨c, v, e, start⟩ := begins_of_word word is_name
  rw [show s₁ = _ from sign] at e
  cases op <;> (rw [← (List.cons.inj e).1] at start; cases start)

/-- One word follows in both texts. -/
theorem calm_of_follows {w : String} (is_name : IsName w) (h : Follows w r) (h' : Follows w r') : Calm r r' where
  words _ clause other := follows_unique is_name clause.isName h' other ▸ h
  operators given := absurd given (not_compares_of_follows is_name h')

/-- A rule begins in the second text, whatever follows in the first. -/
theorem calm_of_rule (h : Follows "rule" r') : Calm r r' where
  words v clause other := by
    have same : "rule" = v := follows_unique isName_rule clause.isName h other
    rcases clause with rfl | rfl <;> exact absurd same (by decide)
  operators given := absurd given (not_compares_of_follows isName_rule h)

/-- Neither a word nor an operator follows in the second text. -/
theorem calm_of_solid {t : List Char} (gap : Trivia r' t) (solid : Solid t) (no_word : ¬ Begins isWordStart t)
    (no_sign : ∀ op v, ¬ Operator t op v) : Calm r r' where
  words _ clause follows := absurd follows (not_follows_of_begins clause.isName gap solid no_word)
  operators given := by
    obtain ⟨s₁, op, s₂, gap', sign⟩ := given
    rw [← skipTrivia_eq gap' (solid_of_operator sign), skipTrivia_eq gap solid] at sign
    exact absurd sign (no_sign op s₂)

theorem calm_of_end (gap : Trivia r' []) : Calm r r' := by
  refine calm_of_solid gap solid_nil Parser.not_begins_nil ?_
  intro op v sign
  cases op <;> cases sign

theorem calm_of_mark {c : Char} (mark : c = ')' ∨ c = ',') {t : List Char} (gap : Trivia r' (c :: t)) :
    Calm r r' := by
  refine calm_of_solid gap ?_ ?_ ?_
  · rcases mark with rfl | rfl <;> exact solid_cons.2 ⟨rfl, by decide⟩
  · rcases mark with rfl | rfl <;> (rw [Parser.begins_cons]; decide)
  · intro op v sign
    rcases mark with rfl | rfl <;> cases op <;> cases (List.cons.inj sign).1

/-- What begins with a keyword follows in both texts. -/
theorem clause_resumed {w : String} (is_name : IsName w) {s₁ s₂ s₂' : List Char} (gap : Trivia s s₁)
    (word : Word w s₁ s₂) (t : Resumed rest u s₂ s₂') :
    ∃ s' s₁', Resumed rest u s s' ∧ Calm s s' ∧ Trivia s' s₁' ∧ Word w s₁' s₂' := by
  obtain ⟨s₁', t₁, word'⟩ := word_resumed word t
  obtain ⟨s', t', gap'⟩ := trivia_resumed gap t₁
  exact ⟨s', s₁', t', calm_of_follows is_name ⟨s₁, s₂, gap, word⟩ ⟨s₁', s₂', gap', word'⟩, gap', word'⟩

theorem link_resumed {w w' : String} (is_name : IsName w) (is_name' : IsName w') {s₁ s₂ s₂' : List Char}
    (gap : Trivia s s₁) (word : Word w s₁ s₂ ∨ Word w' s₁ s₂) (t : Resumed rest u s₂ s₂') :
    ∃ s' s₁', Resumed rest u s s' ∧ Calm s s' ∧ Trivia s' s₁' ∧ (Word w s₁' s₂' ∨ Word w' s₁' s₂') := by
  rcases word with word | word
  · obtain ⟨s', s₁', t', calm, gap', word'⟩ := clause_resumed is_name gap word t
    exact ⟨s', s₁', t', calm, gap', Or.inl word'⟩
  · obtain ⟨s', s₁', t', calm, gap', word'⟩ := clause_resumed is_name' gap word t
    exact ⟨s', s₁', t', calm, gap', Or.inr word'⟩

/-! ## Conditions -/

/-- Only a field at the end of the condition depends on what follows. -/
theorem phrase_resumed {l : Layer} {c : Condition} (h : Phrase l s c r) (t : Resumed rest u r r')
    (calm : Calm r r') : ∃ s', Resumed rest u s s' ∧ Phrase l s' c r' := by
  -- from the last part back to the first: each is read again in front of what has become of the next
  induction h generalizing r' with
  | conjunction _ ih =>
    obtain ⟨s', t', only⟩ := ih t calm
    exact ⟨s', t', Phrase.conjunction only⟩
  | or _ gap word _ ih ih' =>
    obtain ⟨s₃', t₃, right⟩ := ih' t calm
    obtain ⟨s₁', s₂', t₁, calm₁, gap', word'⟩ := link_resumed isName_or.1 isName_or.2 gap word t₃
    obtain ⟨s', t', left⟩ := ih t₁ calm₁
    exact ⟨s', t', Phrase.or left gap' word' right⟩
  | operand _ ih =>
    obtain ⟨s', t', only⟩ := ih t calm
    exact ⟨s', t', Phrase.operand only⟩
  | and _ gap word _ ih ih' =>
    obtain ⟨s₃', t₃, right⟩ := ih' t calm
    obtain ⟨s₁', s₂', t₁, calm₁, gap', word'⟩ := link_resumed isName_and.1 isName_and.2 gap word t₃
    obtain ⟨s', t', left⟩ := ih t₁ calm₁
    exact ⟨s', t', Phrase.and left gap' word' right⟩
  | not gap word _ ih =>
    obtain ⟨s₂', t₂, inner⟩ := ih t calm
    obtain ⟨s', s₁', t', -, gap', word'⟩ := link_resumed isName_not.1 isName_not.2 gap word t₂
    exact ⟨s', t', Phrase.not gap' word' inner⟩
  | primary gap _ ih =>
    obtain ⟨s₁', t₁, only⟩ := ih t calm
    obtain ⟨s', t', gap'⟩ := trivia_resumed gap t₁
    exact ⟨s', t', Phrase.primary gap' only⟩
  -- what stands behind the parenthesis is of no concern to the condition within
  | parentheses _ gap ih =>
    obtain ⟨s₁', t₁, gap'⟩ := trivia_resumed gap (t.cons ')')
    obtain ⟨s', t', inner⟩ := ih t₁ (calm_of_mark (Or.inl rfl) gap')
    exact ⟨_, t'.cons '(', Phrase.parentheses inner gap'⟩
  | true word =>
    obtain ⟨s', t', word'⟩ := word_resumed word t
    exact ⟨s', t', Phrase.true word'⟩
  | false word =>
    obtain ⟨s', t', word'⟩ := word_resumed word t
    exact ⟨s', t', Phrase.false word'⟩
  | compare is_name free gap sign gap' literal =>
    obtain ⟨s₄', t₄, literal'⟩ := literal_resumed literal t
    obtain ⟨s₃', t₃, gap₃⟩ := trivia_resumed gap' t₄
    obtain ⟨s₂', t₂, sign'⟩ := operator_resumed sign t₃
    obtain ⟨s₁', t₁, gap₁⟩ := trivia_resumed gap t₂
    obtain ⟨s', t', named⟩ := name_resumed is_name t₁
    exact ⟨s', t', Phrase.compare named free gap₁ sign' gap₃ literal'⟩
  | truthy is_name free alone =>
    obtain ⟨s', t', named⟩ := name_resumed is_name t
    refine ⟨s', t', Phrase.truthy named free ?_⟩
    intro s₁ op s₂ gap sign
    obtain ⟨t₁, op', t₂, gap', sign'⟩ := calm.operators ⟨s₁, op, s₂, gap, sign⟩
    exact alone t₁ op' t₂ gap' sign'

/-! ## Clauses, items and lists -/

/-- What is read in front of a text is read again in front of a resumed text in which
nothing else follows, and nothing else follows in front of it either. -/
def Resumes {α : Type} (R : List Char → α → List Char → Prop) : Prop :=
  ∀ ⦃rest u s r r' : List Char⦄ ⦃a : α⦄, R s a r → Resumed rest u r r' → Calm r r' →
    ∃ s', Resumed rest u s s' ∧ Calm s s' ∧ R s' a r'

theorem parameter_resumed {p : String × Value} (h : Parameter s p r) (t : Resumed rest u r r') :
    ∃ s', Resumed rest u s s' ∧ Parameter s' p r' := by
  obtain ⟨gap, is_name, sign, gap', literal⟩ := h
  obtain ⟨s₄', t₄, literal'⟩ := literal_resumed literal t
  obtain ⟨s₃', t₃, gap₃⟩ := trivia_resumed gap' t₄
  obtain ⟨s₂', t₂, sign'⟩ := trivia_resumed sign (t₃.cons '=')
  obtain ⟨s₁', t₁, named⟩ := name_resumed is_name t₂
  obtain ⟨s', t', gap₀⟩ := trivia_resumed gap t₁
  exact ⟨s', t', Parameter.mk gap₀ named sign' gap₃ literal'⟩

theorem nextParameter_resumes : Resumes NextParameter := by
  intro rest u s r r' p h t _
  obtain ⟨comma, parameter⟩ := h
  obtain ⟨s₁', t₁, parameter'⟩ := parameter_resumed parameter t
  obtain ⟨s', t', comma'⟩ := trivia_resumed comma (t₁.cons ',')
  exact ⟨s', t', calm_of_mark (Or.inr rfl) comma', NextParameter.mk comma' parameter'⟩

/-- A list is read again if its items are, each in front of what follows it. -/
theorem many_resumes {α : Type} {R : List Char → α → List Char → Prop} (each : Resumes R) :
    Resumes (Many R) := by
  intro rest u s r r' as h t calm
  induction h with
  | nil r => exact ⟨r', t, calm, Many.nil r'⟩
  | cons first _ ih =>
    obtain ⟨s₁', t₁, calm₁, others⟩ := ih t calm
    obtain ⟨s', t', calm', first'⟩ := each first t₁ calm₁
    exact ⟨s', t', calm', Many.cons first' others⟩

theorem afterClause_resumed {n : Option Nat} (h : AfterClause s n r) (t : Resumed rest u r r')
    (calm : Calm r r') : ∃ s', Resumed rest u s s' ∧ AfterClause s' n r' := by
  cases h with
  | given gap word gap' is_count =>
    obtain ⟨s₃', t₃, is_count'⟩ := count_resumed is_count t
    obtain ⟨s₂', t₂, gap₂⟩ := trivia_resumed gap' t₃
    obtain ⟨s', s₁', t', -, gap₀, word'⟩ := clause_resumed isName_after gap word t₂
    exact ⟨s', t', AfterClause.given gap₀ word' gap₂ is_count'⟩
  | absent absent => exact ⟨r', t, AfterClause.absent fun follows => absent (calm.words _ (Or.inl rfl) follows)⟩

theorem withClause_resumes : Resumes WithClause := by
  intro rest u s r r' ps h t calm
  cases h with
  | given gap word first others =>
    obtain ⟨s₃', t₃, -, others'⟩ := many_resumes nextParameter_resumes others t calm
    obtain ⟨s₂', t₂, first'⟩ := parameter_resumed first t₃
    obtain ⟨s', s₁', t', calm', gap', word'⟩ := clause_resumed isName_with gap word t₂
    exact ⟨s', t', calm', WithClause.given gap' word' first' others'⟩
  | absent absent =>
    exact ⟨r', t, calm, WithClause.absent fun follows => absent (calm.words _ (Or.inr rfl) follows)⟩

theorem action_resumes : Resumes ActionItem := by
  intro rest u s r r' a h t calm
  obtain ⟨gap, is_name, free, after, clause, told⟩ := h
  obtain ⟨s₃', t₃, calm₃, clause'⟩ := withClause_resumes clause t calm
  obtain ⟨s₂', t₂, after'⟩ := afterClause_resumed after t₃ calm₃
  obtain ⟨s', s₁', t', calm', gap', word'⟩ := clause_resumed is_name.1 gap is_name.2 t₂
  exact ⟨s', t', calm', ActionItem.mk gap' (name_of_word word' is_name.1) free after' clause' told⟩

theorem branch_resumes : Resumes Branch := by
  intro rest u s r r' b h t calm
  obtain ⟨gap, word, gap', is_outcome, colon, items⟩ := h
  obtain ⟨s₅', t₅, -, items'⟩ := many_resumes action_resumes items t calm
  obtain ⟨s₄', t₄, colon'⟩ := trivia_resumed colon (t₅.cons ':')
  obtain ⟨s₃', t₃, is_outcome'⟩ := word_resumed is_outcome t₄
  obtain ⟨s₂', t₂, gap₂⟩ := trivia_resumed gap' t₃
  obtain ⟨s', s₁', t', calm', gap₀, word'⟩ := clause_resumed isName_on gap word t₂
  exact ⟨s', t', calm', Branch.mk gap₀ word' gap₂ is_outcome' colon' items'⟩

theorem historyNote_resumed {n : Option Nat} (h : HistoryNote s n r) (t : Resumed rest u r r') :
    ∃ s', Resumed rest u s s' ∧ HistoryNote s' n r' := by
  cases h with
  | given opened gap word gap' is_count closed =>
    obtain ⟨s₅', t₅, closed'⟩ := trivia_resumed closed (t.cons ')')
    obtain ⟨s₄', t₄, is_count'⟩ := count_resumed is_count t₅
    obtain ⟨s₃', t₃, gap₃⟩ := trivia_resumed gap' t₄
    obtain ⟨s₁', s₂', t₁, -, gap₁, word'⟩ := clause_resumed isName_history gap word t₃
    obtain ⟨s', t', opened'⟩ := trivia_resumed opened (t₁.cons '(')
    exact ⟨s', t', HistoryNote.given opened' gap₁ word' gap₃ is_count' closed'⟩
  | absent => exact ⟨r', t, HistoryNote.absent r'⟩

theorem rule_resumes : Resumes RuleItem := by
  intro rest u s r r' d h t calm
  obtain ⟨gap, word, gap', is_name, note, colon, expression, items, gathered⟩ := h
  obtain ⟨s₇', t₇, calm₇, items'⟩ := many_resumes branch_resumes items t calm
  obtain ⟨s₆', t₆, expression'⟩ := phrase_resumed expression t₇ calm₇
  obtain ⟨s₅', t₅, colon'⟩ := trivia_resumed colon (t₆.cons ':')
  obtain ⟨s₄', t₄, note'⟩ := historyNote_resumed note t₅
  obtain ⟨s₃', t₃, named⟩ := name_resumed is_name t₄
  obtain ⟨s₂', t₂, gap₂⟩ := trivia_resumed gap' t₃
  obtain ⟨s', s₁', t', calm', gap₀, word'⟩ := clause_resumed isName_rule gap word t₂
  exact ⟨s', t', calm', RuleItem.mk gap₀ word' gap₂ named note' colon' expression' items' gathered⟩

end

end RuleWatch.RuleText
