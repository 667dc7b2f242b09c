import RuleWatch.Proofs.RuleText.Fronts
import RuleWatch.Proofs.Text.Stops
/-!
  Where reading stops, it could have gone on. For each parser: if it stops somewhere,
  the text up to there can be resumed so that the parser's part of the grammar stands
  in it. A value or a count is finished by a zero, a condition by a constant, an open
  string by a quote, and everything else by what comes next in the grammar.

  The proofs follow the parsers. What a parser has read before the place where it stops
  is read again by the lemmas on resumed texts, from the place back to the front.
-/

namespace RuleWatch.RuleText

open Grammar
open RuleWatch.Parser (Begins Many Reads StopsAt BreaksAt nested)

/-- The text, broken off where `rest` begins, can be resumed so that something of the
given kind stands in front of `r`. -/
def Completes {α : Type} (R : List Char → α → List Char → Prop) (s rest r : List Char) : Prop :=
  ∃ u s' a, Resumed rest u s s' ∧ R s' a r

/-- The same, and nothing else follows in front of it than in the text itself. -/
def CompletesCalmly {α : Type} (R : List Char → α → List Char → Prop) (s rest r : List Char) : Prop :=
  ∃ u s' a, Resumed rest u s s' ∧ Calm s s' ∧ R s' a r

variable {s rest : List Char}

/-! ## Tokens -/

@[simp] theorem trivia_stopsAt : ¬ trivia.StopsAt s rest := by simp [trivia, StopsAt]

@[simp] theorem trivia_breaksAt : ¬ trivia.BreaksAt s rest := by simp [trivia, BreaksAt]

/-- Behind blanks and comments anything may stand on a new line. -/
theorem gap_completes (gap : Trivia s rest) (u : List Char) : ∃ s', Resumed rest u s s' ∧ Trivia s' u := by
  obtain ⟨s', t', gap'⟩ := trivia_resumed gap (Resumed.here rest u)
  exact ⟨s', t', trivia_trans gap' (Trivia.blank (by decide) (Trivia.none u))⟩

theorem name_stopsAt (h : name.StopsAt s rest) : rest = s := by
  simp only [name, Parser.bind_stopsAt, Parser.oneOf_stopsAt, Parser.run_stopsAt, Parser.pure_stopsAt, and_false,
    exists_false, or_false] at h
  exact h.1

@[simp] theorem name_breaksAt : ¬ name.BreaksAt s rest := by simp [name]

/-- A keyword stops where it should begin, or behind it where a longer name goes on. -/
theorem keyword_stopsAt {w : String} (h : (keyword w).StopsAt s rest) :
    rest = s ∨ s = w.toList ++ rest := by
  simp only [keyword, Parser.bind_stopsAt, Parser.word_stopsAt, Parser.word_ok, Parser.noneOf_stopsAt] at h
  rcases h with ⟨rfl, -⟩ | ⟨-, t, rfl, rfl, -⟩
  · exact Or.inl rfl
  · exact Or.inr rfl

@[simp] theorem keyword_breaksAt {w : String} : ¬ (keyword w).BreaksAt s rest := by simp [keyword]

@[simp] theorem operator_breaksAt : ¬ operator.BreaksAt s rest := by simp [operator]

@[simp] theorem double_breaksAt : ¬ double.BreaksAt s rest := by simp [double]

theorem naturalDigits_stopsAt {sign : Parser Bool} (unbroken : ∀ rest, ¬ sign.BreaksAt s rest)
    (h : (naturalDigits sign).StopsAt s rest) : rest = s := by
  simp only [naturalDigits, Parser.orElse_stopsAt, Parser.bind_breaksAt, Parser.bind_stopsAt, unbroken,
    Parser.oneOf_breaksAt, Parser.run_breaksAt, Parser.pure_breaksAt, Parser.char_stopsAt, Parser.pure_stopsAt,
    and_false, exists_false, or_false, false_or] at h
  exact h.2.1

theorem count_stopsAt (h : count.StopsAt s rest) : rest = s := by
  rw [count, Parser.mapPartial_stopsAt] at h
  rcases h with stopped | ⟨here, -⟩
  · exact naturalDigits_stopsAt (by simp) stopped
  · exact here

theorem int_stopsAt (h : int.StopsAt s rest) : rest = s := by
  rw [int, Parser.mapPartial_stopsAt] at h
  rcases h with stopped | ⟨here, -⟩
  · exact naturalDigits_stopsAt (by simp) stopped
  · exact here

/-- A string that is not closed is closed by a quote on the next line. -/
theorem stringBody_closed {s : List Char} (h : stringBody? s = none) (r : List Char) :
    ∃ b, StringBody (s ++ '\n' :: '"' :: r) b r := by
  have closed : StringBody ('\n' :: '"' :: r) ['\n'] r :=
    StringBody.plain (by decide) (by decide) (StringBody.close r)
  fun_induction stringBody? s with
  | case1 => exact ⟨_, closed⟩
  | case2 => simp at h
  | case3 => exact ⟨_, StringBody.escape (escape_unescape '\n') (StringBody.close r)⟩
  | case4 c rest ih =>
    simp only [Option.map_eq_none_iff] at h
    obtain ⟨b, body⟩ := ih h
    exact ⟨_, StringBody.escape (escape_unescape c) body⟩
  | case5 c t quote single escaped ih =>
    simp only [Option.map_eq_none_iff] at h
    obtain ⟨b, body⟩ := ih h
    refine ⟨_, StringBody.plain quote ?_ body⟩
    intro same
    subst same
    cases t with
    | nil => exact single rfl rfl
    | cons d t => exact escaped d t rfl rfl

theorem string_breaksAt (h : string.BreaksAt s rest) :
    rest = [] ∧ ∃ t, s = '"' :: t ∧ stringBody? t = none := by
  obtain ⟨t, rfl⟩ : ∃ t, s = '"' :: t := by
    by_contra none
    exact h.not_refuses (string_other fun t e => none ⟨t, e⟩)
  obtain ⟨wanted, h⟩ := h
  rw [string_quote] at h
  cases body : stringBody? t with
  | none =>
    simp only [body, Reply.fail.injEq] at h
    exact ⟨h.2.1.symm, t, rfl, body⟩
  | some read => simp [body] at h

/-- A value stops where it should begin, or at the end of the text within a string. -/
theorem value_stopsAt (h : value.StopsAt s rest) : rest = skipTrivia none s ∨
    rest = [] ∧ ∃ t, skipTrivia none s = '"' :: t ∧ stringBody? t = none := by
  simp only [value, Parser.bind_stopsAt, trivia_stopsAt, trivia_ok, Parser.wanting_stopsAt, Parser.orElse_stopsAt,
    Parser.map_breaksAt, Parser.map_stopsAt, Parser.bind_breaksAt, keyword_breaksAt, Parser.pure_breaksAt,
    double_breaksAt, and_false, exists_false, or_false, false_or] at h
  obtain ⟨-, t, rfl, broken | ⟨-, -, -, -, stopped⟩⟩ := h
  · exact Or.inr (string_breaksAt broken)
  · exact Or.inl (int_stopsAt stopped)

theorem value_completes (h : value.StopsAt s rest) (r : List Char) :
    ∃ u s' s₁ v, Resumed rest u s s' ∧ Trivia s' s₁ ∧ Literal s₁ v r := by
  have gap := trivia_skipTrivia s
  rcases value_stopsAt h with rfl | ⟨rfl, t, opened, unclosed⟩
  · obtain ⟨s', t', gap'⟩ := gap_completes gap ('0' :: r)
    exact ⟨_, s', _, _, t', gap', Literal.zero r⟩
  · obtain ⟨b, body⟩ := stringBody_closed unclosed r
    have resumed : Resumed [] ('"' :: r) ('"' :: t) ('"' :: (t ++ '\n' :: '"' :: r)) :=
      ⟨'"' :: t, by simp, rfl⟩
    rw [opened] at gap
    obtain ⟨s', t', gap'⟩ := trivia_resumed gap resumed
    exact ⟨_, s', _, _, t', gap', Literal.string body⟩

/-! ## Parameters -/

/-- A name of one letter. -/
theorem name_letter {r : List Char} (stop : ¬ Begins isWordChar r) : Name ('a' :: r) "a" r :=
  ⟨by decide, rfl, stop⟩

theorem param_completes (h : param.StopsAt s rest) (r : List Char) : Completes Parameter s rest r := by
  simp only [param, Parser.bind_stopsAt, trivia_stopsAt, trivia_ok, Parser.wanting_stopsAt, Parser.wanting_ok,
    Parser.committed_stopsAt, Parser.committed_ok, name_ok, Parser.char_stopsAt, Parser.char_ok, Parser.pure_stopsAt,
    and_false, exists_false, or_false, false_or] at h
  -- the name, the equals sign or the value is wanted
  obtain ⟨-, s₁, rfl, stopped | ⟨key, s₂, is_name, -, s₂', rfl, stopped | ⟨-, s₃, ⟨sign, -⟩, stopped⟩⟩⟩ := h
  · obtain rfl := name_stopsAt stopped
    obtain ⟨s', t', gap⟩ := gap_completes (trivia_skipTrivia s) ('a' :: '=' :: '0' :: r)
    exact ⟨_, s', _, t', Parameter.mk gap (name_letter (apart_cons rfl _)) (Trivia.none _)
      (Trivia.none _)
      (Literal.zero r)⟩
  · obtain ⟨rfl, -⟩ := stopped
    obtain ⟨s₂', t₂, sign⟩ := gap_completes (trivia_skipTrivia s₂) ('=' :: '0' :: r)
    obtain ⟨s₁', t₁, named⟩ := name_resumed is_name t₂
    obtain ⟨s', t', gap⟩ := trivia_resumed (trivia_skipTrivia s) t₁
    exact ⟨_, s', _, t', Parameter.mk gap named sign (Trivia.none _) (Literal.zero r)⟩
  · obtain ⟨u, s₃', s₄', v, t₃, gap', literal⟩ := value_completes stopped r
    have signed := trivia_skipTrivia s₂
    rw [sign] at signed
    obtain ⟨s₂', t₂, sign'⟩ := trivia_resumed signed (t₃.cons '=')
    obtain ⟨s₁', t₁, named⟩ := name_resumed is_name t₂
    obtain ⟨s', t', gap⟩ := trivia_resumed (trivia_skipTrivia s) t₁
    exact ⟨u, s', _, t', Parameter.mk gap named sign' gap' literal⟩

theorem nextParam_completes (h : nextParam.BreaksAt s rest) (r : List Char) :
    CompletesCalmly NextParameter s rest r := by
  simp only [nextParam, Parser.bind_breaksAt, trivia_breaksAt, trivia_ok, Parser.char_breaksAt, Parser.bind_ok,
    Parser.char_ok, Parser.pure_breaksAt, Parser.pure_ok, and_false, exists_false, or_false, false_or] at h
  obtain ⟨-, s₁, ⟨-, s₀, rfl, -, s₁', ⟨comma, -⟩, -, rfl⟩, broken⟩ := h
  obtain ⟨u, s₁', p, t₁, parameter⟩ := param_completes broken.stopsAt r
  have gap := trivia_skipTrivia s
  rw [comma] at gap
  obtain ⟨s', t', gap'⟩ := trivia_resumed gap (t₁.cons ',')
  exact ⟨u, s', p, t', calm_of_mark (Or.inr rfl) gap', NextParameter.mk gap' parameter⟩

/-- A list is completed by completing the item that breaks. -/
theorem many_completes {α : Type} {p : Parser α} {R : List Char → α → List Char → Prop} (sound : p.Sound R)
    (resumes : Resumes R) {r : List Char} (item : ∀ {s}, p.BreaksAt s rest → CompletesCalmly R s rest r)
    (h : p.many.StopsAt s rest) : CompletesCalmly (Many R) s rest r := by
  obtain ⟨as, t, items, broken⟩ := Parser.many_stopsAt h
  obtain ⟨u, t', a, resumed, calm, last⟩ := item broken
  obtain ⟨s', resumed', calm', items'⟩ := many_resumes resumes (items.imp sound) resumed calm
  exact ⟨u, s', as ++ [a], resumed', calm', items'.snoc last⟩

/-! ## Actions -/

theorem clause_breaksAt {α : Type} {w : String} {p : Parser α} (h : BreaksAt (do trivia; keyword w; p) s rest) :
    ∃ s₁ s₂, Trivia s s₁ ∧ Word w s₁ s₂ ∧ p.BreaksAt s₂ rest := by
  simp only [Parser.bind_breaksAt, trivia_breaksAt, trivia_ok, keyword_breaksAt, keyword_ok, false_or] at h
  obtain ⟨-, s₁, rfl, -, s₂, word, broken⟩ := h
  exact ⟨_, s₂, trivia_skipTrivia s, word, broken⟩

theorem threshold?_completes (h : threshold?.StopsAt s rest) (r : List Char) :
    Completes AfterClause s rest r := by
  rw [threshold?, Parser.optional_stopsAt] at h
  obtain ⟨s₁, s₂, gap, word, broken⟩ := clause_breaksAt h
  simp only [Parser.bind_breaksAt, trivia_breaksAt, trivia_ok, Parser.wanting_breaksAt, Parser.committed_breaksAt,
    false_or] at broken
  obtain ⟨-, s₃, rfl, stopped⟩ := broken
  obtain rfl := count_stopsAt stopped
  obtain ⟨s₂', t₂, gap'⟩ := gap_completes (trivia_skipTrivia s₂) ('0' :: r)
  obtain ⟨s', s₁', t', -, gap₀, word'⟩ := clause_resumed isName_after gap word t₂
  exact ⟨_, s', _, t', AfterClause.given gap₀ word' gap' (Count.zero r)⟩

theorem params?_completes (h : params?.StopsAt s rest) (r : List Char) :
    CompletesCalmly WithClause s rest r := by
  rw [params?, Parser.optional_stopsAt] at h
  obtain ⟨s₁, s₂, gap, word, broken⟩ := clause_breaksAt h
  simp only [Parser.committed_breaksAt, Parser.separated, Parser.bind_stopsAt, Parser.pure_stopsAt, and_false,
    exists_false, or_false] at broken
  -- the first parameter breaks, or one behind a comma
  rcases broken with stopped | ⟨first, s₃, read, stopped⟩
  · obtain ⟨u, s₂', p, t₂, parameter⟩ := param_completes stopped r
    obtain ⟨s', s₁', t', calm, gap', word'⟩ := clause_resumed isName_with gap word t₂
    exact ⟨u, s', _, t', calm, WithClause.given gap' word' parameter (Many.nil r)⟩
  · obtain ⟨u, s₃', ps, t₃, -, others⟩ :=
      many_completes nextParam_sound nextParameter_resumes (fun h => nextParam_completes h r) stopped
    obtain ⟨s₂', t₂, parameter⟩ := parameter_resumed (param_sound _ _ _ read) t₃
    obtain ⟨s', s₁', t', calm, gap', word'⟩ := clause_resumed isName_with gap word t₂
    exact ⟨u, s', _, t', calm, WithClause.given gap' word' parameter others⟩

theorem not_follows_nil {w : String} (is_name : IsName w) : ¬ Follows w [] :=
  not_follows_of_begins is_name (Trivia.none []) solid_nil Parser.not_begins_nil

theorem action_completes (h : action.BreaksAt s rest) : CompletesCalmly ActionItem s rest [] := by
  simp only [action, Parser.bind_breaksAt, trivia_breaksAt, trivia_ok, Parser.mapPartial_breaksAt, name_breaksAt,
    Parser.mapPartial_ok, Option.ite_none_left_eq_some, Option.some.injEq, name_ok, Parser.pure_breaksAt, and_false,
    exists_false, or_false, false_or] at h
  obtain ⟨-, s₁, rfl, name, s₂, ⟨name, is_name, free, rfl⟩, broken | ⟨threshold, s₃, after, broken⟩⟩ := h
  · obtain ⟨u, s₂', n, t₂, after⟩ := threshold?_completes broken.stopsAt []
    obtain ⟨s', s₁', t', calm, gap, word⟩ := clause_resumed is_name.1 (trivia_skipTrivia s) is_name.2 t₂
    exact ⟨u, s', _, t', calm, ActionItem.mk gap (name_of_word word is_name.1) (mt isReserved_iff.2 free) after
      (WithClause.absent (not_follows_nil isName_with)) (told_ofList _)⟩
  · obtain ⟨u, s₃', ps, t₃, calm₃, clause⟩ := params?_completes broken.stopsAt []
    obtain ⟨s₂', t₂, after'⟩ := afterClause_resumed (threshold?_sound _ _ _ after) t₃ calm₃
    obtain ⟨s', s₁', t', calm, gap, word⟩ := clause_resumed is_name.1 (trivia_skipTrivia s) is_name.2 t₂
    exact ⟨u, s', _, t', calm, ActionItem.mk gap (name_of_word word is_name.1) (mt isReserved_iff.2 free) after'
      clause (told_ofList _)⟩

/-! ## Branches -/

/-- An outcome stops where it should begin, or behind `false` where a longer name goes on. -/
theorem outcome_completes {s₁ : List Char} (gap : Trivia s s₁)
    (h : ((do keyword "true"; return true) <|> (do keyword "false"; return false) : Parser Bool).StopsAt s₁ rest)
    {r : List Char} (stop : ¬ Begins isWordChar r) :
    ∃ u s' s₁' b r', Resumed rest u s s' ∧ Trivia s' s₁' ∧ Outcome s₁' b r' ∧ Trivia r' r := by
  simp only [Parser.orElse_stopsAt, Parser.bind_breaksAt, keyword_breaksAt, Parser.pure_breaksAt,
    Parser.bind_stopsAt, Parser.pure_stopsAt, and_false, exists_false, or_false, false_or] at h
  rcases keyword_stopsAt h.2 with rfl | cut
  · obtain ⟨s', t', gap'⟩ := gap_completes gap ("true".toList ++ r)
    exact ⟨_, s', _, true, r, t', gap', ⟨rfl, stop⟩, Trivia.none r⟩
  · have resumed : Resumed rest r s₁ ("false".toList ++ '\n' :: r) := ⟨_, cut, rfl⟩
    obtain ⟨s', t', gap'⟩ := trivia_resumed gap resumed
    exact ⟨r, s', _, false, '\n' :: r, t', gap', ⟨rfl, apart_cons rfl r⟩,
      Trivia.blank (by decide) (Trivia.none r)⟩

theorem branch_completes (h : branch.BreaksAt s rest) : CompletesCalmly Branch s rest [] := by
  obtain ⟨s₁, s₂, gap, word, broken⟩ := clause_breaksAt h
  simp only [Parser.bind_breaksAt, trivia_breaksAt, trivia_ok, Parser.wanting_breaksAt, Parser.wanting_ok,
    Parser.committed_breaksAt, Parser.committed_ok, outcome_ok, Parser.char_stopsAt, Parser.char_ok,
    Parser.pure_breaksAt, and_false, exists_false, or_false, false_or] at broken
  -- the outcome is wanted, or the colon, or an action breaks
  obtain ⟨-, s₃, rfl, stopped | ⟨b, s₄, outcome, -, s₄', rfl, stopped | ⟨-, s₅, ⟨colon, -⟩, broken⟩⟩⟩ := broken
  · obtain ⟨u, s₂', s₃', b, r, t₂, gap', outcome, colon⟩ :=
      outcome_completes (trivia_skipTrivia s₂) stopped (r := [':']) (apart_cons rfl _)
    obtain ⟨s', s₁', t', calm, gap₀, word'⟩ := clause_resumed isName_on gap word t₂
    exact ⟨u, s', _, t', calm, Branch.mk gap₀ word' gap' outcome colon (Many.nil [])⟩
  · obtain ⟨rfl, -⟩ := stopped
    obtain ⟨s₄', t₄, colon⟩ := gap_completes (trivia_skipTrivia s₄) [':']
    obtain ⟨s₃', t₃, outcome'⟩ := word_resumed outcome t₄
    obtain ⟨s₂', t₂, gap'⟩ := trivia_resumed (trivia_skipTrivia s₂) t₃
    obtain ⟨s', s₁', t', calm, gap₀, word'⟩ := clause_resumed isName_on gap word t₂
    exact ⟨_, s', _, t', calm, Branch.mk gap₀ word' gap' outcome' colon (Many.nil [])⟩
  · obtain ⟨u, s₅', actions, t₅, -, items⟩ := many_completes action_sound action_resumes action_completes broken.stopsAt
    have mark := trivia_skipTrivia s₄
    rw [colon] at mark
    obtain ⟨s₄', t₄, mark'⟩ := trivia_resumed mark (t₅.cons ':')
    obtain ⟨s₃', t₃, outcome'⟩ := word_resumed outcome t₄
    obtain ⟨s₂', t₂, gap'⟩ := trivia_resumed (trivia_skipTrivia s₂) t₃
    obtain ⟨s', s₁', t', calm, gap₀, word'⟩ := clause_resumed isName_on gap word t₂
    exact ⟨u, s', _, t', calm, Branch.mk gap₀ word' gap' outcome' mark' items⟩

/-! ## Conditions -/

theorem either_breaksAt {w w' : String} : ¬ (either w w').BreaksAt s rest := by simp [either]

section
variable {item : Parser Condition} {l l' : Layer} {w w' : String} (is_name : IsName w) (is_name' : IsName w')
  {join : Condition → Condition → Condition} {r : List Char}
include is_name is_name'

/-- A chain stops in its first item, or in an item behind the operator. -/
theorem chain_completes (single : ∀ s c r, Phrase l s c r → Phrase l' s c r)
    (more : ∀ s s₁ s₂ s₃ r c d, Phrase l' s c s₁ → Trivia s₁ s₂ → Word w s₂ s₃ ∨ Word w' s₂ s₃ →
      Phrase l s₃ d r → Phrase l' s (join c d) r)
    (sound : item.Sound (Phrase l)) (complete : ∀ {s}, item.StopsAt s rest → Completes (Phrase l) s rest r)
    (h : (chain item (either w w') join).StopsAt s rest) : Completes (Phrase l') s rest r := by
  simp only [chain, Parser.bind_stopsAt, Parser.pure_stopsAt, and_false, exists_false, or_false] at h
  rcases h with stopped | ⟨first, t, read, stopped⟩
  · obtain ⟨u, s', c, t', only⟩ := complete stopped
    exact ⟨u, s', c, t', single _ _ _ only⟩
  · have either_sound : (either w w').Sound fun s _ r => Word w s r ∨ Word w' s r :=
      fun s _ r h => (either_ok is_name is_name').1 h
    obtain ⟨ds, t₁, links, broken⟩ := Parser.many_stopsAt stopped
    have front : Phrase l' s (ds.foldl join first) t₁ :=
      chain_grows more sound either_sound (single _ _ _ (sound _ _ _ read)) links
    simp only [Parser.bind_breaksAt, trivia_breaksAt, trivia_ok, either_breaksAt, either_ok is_name is_name',
      Parser.committed_breaksAt, false_or] at broken
    obtain ⟨-, t₂, rfl, -, t₃, word, stopped⟩ := broken
    obtain ⟨u, t₃', d, resumed, last⟩ := complete stopped
    obtain ⟨t₁', t₂', resumed', calm, gap, word'⟩ := link_resumed is_name is_name' (trivia_skipTrivia t₁) word resumed
    obtain ⟨s', t', front'⟩ := phrase_resumed front resumed' calm
    exact ⟨u, s', _, t', more _ _ _ _ _ _ _ front' gap word' last⟩

end

/-- A constant may stand wherever a condition is wanted. -/
theorem constant_completes (gap : Trivia s rest) {r : List Char} (stop : ¬ Begins isWordChar r) :
    Completes (Phrase .operand) s rest r := by
  obtain ⟨s', t', gap'⟩ := gap_completes gap ("true".toList ++ r)
  exact ⟨_, s', _, t', Phrase.primary gap' (Phrase.true ⟨rfl, stop⟩)⟩

theorem comparison_completes {s₁ : List Char} (gap : Trivia s s₁)
    (free : ∀ w ∈ ["true", "false", "NOT", "not"], ∀ r, ¬ Word w s₁ r) (h : comparison.StopsAt s₁ rest)
    {r : List Char} (stop : ¬ Begins isWordChar r) : Completes (Phrase .operand) s rest r := by
  simp only [comparison, Parser.bind_stopsAt, name_ok, Parser.optional_stopsAt, Parser.bind_breaksAt,
    trivia_breaksAt, operator_breaksAt, and_false, exists_false, or_false, false_or] at h
  rcases h with stopped | ⟨field, s₂, is_name, op, s₃, clause, stopped⟩
  · obtain rfl := name_stopsAt stopped
    exact constant_completes gap stop
  · cases op with
    | none => exact absurd stopped Parser.pure_stopsAt
    | some op =>
      simp only [Parser.optional_ok, Parser.bind_ok, trivia_ok] at clause
      simp only [Parser.bind_stopsAt, Parser.committed_stopsAt, Parser.pure_stopsAt, and_false, exists_false,
        or_false] at stopped
      obtain ⟨_, ⟨-, t, rfl, sign⟩, ⟨⟩⟩ | ⟨-, ⟨⟩, -⟩ := clause
      obtain ⟨u, s₃', s₄', v, t₃, gap₃, literal⟩ := value_completes stopped r
      obtain ⟨s₂', t₂, sign'⟩ := operator_resumed (operator_sound sign) t₃
      obtain ⟨s₂', t₂, gap₂⟩ := trivia_resumed (trivia_skipTrivia s₂) t₂
      obtain ⟨s₁', t₁, named⟩ := name_resumed is_name t₂
      obtain ⟨s', t', gap'⟩ := trivia_resumed gap t₁
      exact ⟨u, s', _, t', Phrase.primary gap'
        (Phrase.compare named (free_of_no_word is_name free) gap₂ sign' gap₃ literal)⟩

section
variable {operand : Parser Condition} (sound : operand.Sound (Phrase .operand))
  (complete : ∀ {s rest r}, operand.StopsAt s rest → ¬ Begins isWordChar r → Completes (Phrase .operand) s rest r)
include sound complete

theorem disjunction_completes (h : (disjunction operand).StopsAt s rest) {r : List Char}
    (stop : ¬ Begins isWordChar r) : Completes Expression s rest r := by
  simp only [disjunction, Parser.bind_stopsAt, trivia_stopsAt, trivia_ok, false_or] at h
  obtain ⟨-, s₁, rfl, stopped⟩ := h
  have lower : ∀ {s}, (conjunction operand).StopsAt s rest → Completes (Phrase .conjunction) s rest r := by
    intro s stopped
    exact chain_completes isName_and.1 isName_and.2 (fun _ _ _ => Phrase.operand)
      (fun _ _ _ _ _ _ _ => Phrase.and) sound (fun h => complete h stop) stopped
  obtain ⟨u, s₁', c, t₁, only⟩ := chain_completes isName_or.1 isName_or.2 (fun _ _ _ => Phrase.conjunction)
    (fun _ _ _ _ _ _ _ => Phrase.or) (conjunction_sound sound) lower stopped
  obtain ⟨s', t', gap⟩ := trivia_resumed (trivia_skipTrivia s) t₁
  exact ⟨u, s', c, t', phrase_gap gap only (by simp)⟩

/-- A parenthesis that is refused plainly is given up, and a constant may stand for it. -/
theorem primary_completes {s₁ : List Char} (gap : Trivia s s₁) (solid : skipTrivia none s₁ = s₁)
    (free : ∀ w ∈ ["NOT", "not"], ∀ r, ¬ Word w s₁ r) (h : (primary (disjunction operand)).StopsAt s₁ rest)
    {r : List Char} (stop : ¬ Begins isWordChar r) : Completes (Phrase .operand) s rest r := by
  simp only [primary, Parser.bind_stopsAt, trivia_stopsAt, trivia_ok, Parser.wanting_stopsAt, Parser.orElse_stopsAt,
    Parser.bind_breaksAt, Parser.char_breaksAt, Parser.char_ok, trivia_breaksAt, Parser.committed_breaksAt,
    Parser.char_stopsAt, keyword_breaksAt, Parser.pure_breaksAt, Parser.bind_refuses, keyword_refuses,
    Parser.pure_refuses, solid, and_false, exists_false, or_false, false_or] at h
  -- within a parenthesis, at its end, or in a comparison
  obtain ⟨-, s₁, rfl, ⟨-, s₂, ⟨rfl, -⟩, broken | ⟨c, s₃, read, -, s₃', rfl, rfl, -⟩⟩ | ⟨-, yes, no, stopped⟩⟩ := h
  · have close : ¬ Begins isWordChar (')' :: r) := apart_cons rfl r
    obtain ⟨u, s₂', c, t₂, inner⟩ := disjunction_completes sound complete broken.stopsAt close
    obtain ⟨s', t', gap'⟩ := trivia_resumed gap (t₂.cons '(')
    exact ⟨u, s', c, t', Phrase.primary gap' (Phrase.parentheses inner (Trivia.none _))⟩
  · obtain ⟨s₃', t₃, closed⟩ := gap_completes (trivia_skipTrivia s₃) (')' :: r)
    obtain ⟨s₂', t₂, inner⟩ := phrase_resumed (disjunction_sound sound _ _ _ read) t₃
      (calm_of_mark (Or.inl rfl) closed)
    obtain ⟨s', t', gap'⟩ := trivia_resumed gap (t₂.cons '(')
    exact ⟨_, s', c, t', Phrase.primary gap' (Phrase.parentheses inner closed)⟩
  · refine comparison_completes gap ?_ stopped stop
    simpa [yes, no] using free

theorem operandStep_completes (h : (operandStep operand).StopsAt s rest) {r : List Char}
    (stop : ¬ Begins isWordChar r) : Completes (Phrase .operand) s rest r := by
  simp only [operandStep, Parser.bind_stopsAt, trivia_stopsAt, trivia_ok, Parser.optional_stopsAt,
    Parser.optional_ok, Parser.orElse_breaksAt, keyword_breaksAt, and_false, or_false, false_or] at h
  obtain ⟨-, s₁, rfl, sign, s₂, given, stopped⟩ := h
  rcases given with ⟨u, word, rfl⟩ | ⟨refused, rfl, rfl⟩
  · simp only [Parser.bind_stopsAt, Parser.committed_stopsAt, Parser.pure_stopsAt, and_false, exists_false,
      or_false] at stopped
    obtain ⟨u, s₂', c, t₂, inner⟩ := complete stopped stop
    obtain ⟨s', s₁', t', -, gap, word'⟩ := link_resumed isName_not.1 isName_not.2 (trivia_skipTrivia s)
      ((either_ok isName_not.1 isName_not.2).1 word) t₂
    exact ⟨u, s', _, t', Phrase.not gap word' inner⟩
  · simp only [Parser.orElse_refuses, keyword_refuses] at refused
    exact primary_completes sound complete (trivia_skipTrivia s) (solid_skipTrivia s) (by simpa using refused)
      stopped stop

end

theorem nested_completes (n : Nat) {s rest r : List Char} (h : (nested operandStep n).StopsAt s rest)
    (stop : ¬ Begins isWordChar r) : Completes (Phrase .operand) s rest r := by
  induction n generalizing s rest r with
  | zero =>
    -- where no further operand may be entered, one is wanted
    obtain ⟨final, wanted, h⟩ := h
    simp only [nested, Reply.fail.injEq] at h
    rw [← h.2.1]
    exact constant_completes (Trivia.none s) stop
  | succ n ih => exact operandStep_completes (nested_sound n) ih h stop

theorem condition_completes (h : condition.StopsAt s rest) {r : List Char} (stop : ¬ Begins isWordChar r) :
    Completes Expression s rest r := by
  refine disjunction_completes ?_ ?_ h stop
  · exact fun s c r h => nested_sound _ s c r h
  · exact fun h stop => nested_completes _ h stop

/-! ## Rules -/

theorem historyNote_completes (h : historyNote.BreaksAt s rest) (r : List Char) :
    Completes HistoryNote s rest r := by
  simp only [historyNote, Parser.bind_breaksAt, trivia_breaksAt, trivia_ok, Parser.char_breaksAt, Parser.char_ok,
    keyword_breaksAt, keyword_ok, Parser.wanting_breaksAt, Parser.wanting_ok, Parser.committed_breaksAt,
    Parser.committed_ok, Parser.char_stopsAt, Parser.pure_breaksAt, and_false, exists_false, or_false,
    false_or] at h
  obtain ⟨-, s₀, rfl, -, s₁, ⟨mark, -⟩, -, s₂, rfl, -, s₃, word, -, s₄, rfl, broken⟩ := h
  have opened := trivia_skipTrivia s
  rw [mark] at opened
  rcases broken with stopped | ⟨n, s₅, read, -, s₅', rfl, rfl, -⟩
  · obtain rfl := count_stopsAt stopped
    obtain ⟨s₃', t₃, gap⟩ := gap_completes (trivia_skipTrivia s₃) ('0' :: ')' :: r)
    obtain ⟨s₁', s₂', t₁, -, gap₁, word'⟩ := clause_resumed isName_history (trivia_skipTrivia s₁) word t₃
    obtain ⟨s', t', opened'⟩ := trivia_resumed opened (t₁.cons '(')
    exact ⟨_, s', _, t', HistoryNote.given opened' gap₁ word' gap (Count.zero _) (Trivia.none _)⟩
  · obtain ⟨s₅', t₅, closed⟩ := gap_completes (trivia_skipTrivia s₅) (')' :: r)
    obtain ⟨s₄', t₄, is_count⟩ := count_resumed (count_sound read) t₅
    obtain ⟨s₃', t₃, gap⟩ := trivia_resumed (trivia_skipTrivia s₃) t₄
    obtain ⟨s₁', s₂', t₁, -, gap₁, word'⟩ := clause_resumed isName_history (trivia_skipTrivia s₁) word t₃
    obtain ⟨s', t', opened'⟩ := trivia_resumed opened (t₁.cons '(')
    exact ⟨_, s', _, t', HistoryNote.given opened' gap₁ word' gap is_count closed⟩

/-- A constant stands alone at the end of a text. -/
theorem expression_constant : Expression "true".toList (.const true) [] :=
  Phrase.conjunction (Phrase.operand (Phrase.primary (Trivia.none _) (Phrase.true ⟨rfl, Parser.not_begins_nil⟩)))

theorem rule_completes (h : rule.BreaksAt s rest) : CompletesCalmly RuleItem s rest [] := by
  obtain ⟨s₁, s₂, gap, word, broken⟩ := clause_breaksAt h
  simp only [Parser.bind_breaksAt, trivia_breaksAt, trivia_ok, Parser.wanting_breaksAt, Parser.wanting_ok,
    Parser.committed_breaksAt, Parser.committed_ok, name_ok, Parser.optional_breaksAt, Parser.char_stopsAt,
    Parser.char_ok, Parser.pure_breaksAt, and_false, exists_false, or_false, false_or] at broken
  obtain ⟨-, s₃, rfl, broken⟩ := broken
  -- whatever stands behind the keyword, what stands in front of it is read again
  suffices body : ∃ u s₂' d, Resumed rest u s₂ s₂' ∧ ∀ s s₁, Trivia s s₁ → Word "rule" s₁ s₂' → RuleItem s d [] by
    obtain ⟨u, s₂', d, t₂, build⟩ := body
    obtain ⟨s', s₁', t', calm, gap', word'⟩ := clause_resumed isName_rule gap word t₂
    exact ⟨u, s', d, t', calm, build s' s₁' gap' word'⟩
  have name_gap := trivia_skipTrivia s₂
  rcases broken with stopped | ⟨name, s₄, is_name, broken | ⟨n, s₅, note, -, s₅', rfl, broken⟩⟩
  · obtain rfl := name_stopsAt stopped
    obtain ⟨s₂', t₂, gap'⟩ := gap_completes name_gap ('a' :: ':' :: "true".toList)
    have named := name_letter (r := ':' :: "true".toList) (apart_cons rfl _)
    exact ⟨_, s₂', _, t₂, fun s s₁ gap word => RuleItem.mk gap word gap' named (HistoryNote.absent _) (Trivia.none _)
      expression_constant (Many.nil []) Gathered.none⟩
  · obtain ⟨u, s₄', n, t₄, note⟩ := historyNote_completes broken (':' :: "true".toList)
    obtain ⟨s₃', t₃, named⟩ := name_resumed is_name t₄
    obtain ⟨s₂', t₂, gap'⟩ := trivia_resumed name_gap t₃
    exact ⟨u, s₂', _, t₂, fun s s₁ gap word => RuleItem.mk gap word gap' named note (Trivia.none _)
      expression_constant (Many.nil []) Gathered.none⟩
  -- from the colon on, what stands in front of it is read again as well
  suffices tail : ∃ u s₅' c bs s₆ s₇, Resumed rest u s₅ s₅' ∧ Trivia s₅' (':' :: s₆) ∧ Expression s₆ c s₇ ∧
      Many Branch s₇ bs [] by
    obtain ⟨u, s₅', c, bs, s₆, s₇, t₅, colon, expression, items⟩ := tail
    obtain ⟨s₄', t₄, note'⟩ := historyNote_resumed (historyNote_sound note) t₅
    obtain ⟨s₃', t₃, named⟩ := name_resumed is_name t₄
    obtain ⟨s₂', t₂, gap'⟩ := trivia_resumed name_gap t₃
    exact ⟨u, s₂', _, t₂, fun s s₁ gap word => RuleItem.mk gap word gap' named note' colon expression items
      (gathered_actionsOf bs)⟩
  rcases broken with ⟨rfl, -⟩ | ⟨-, s₆, ⟨mark, -⟩, broken⟩
  · obtain ⟨s₅', t₅, colon⟩ := gap_completes (trivia_skipTrivia s₅) (':' :: "true".toList)
    exact ⟨_, s₅', _, _, _, _, t₅, colon, expression_constant, Many.nil []⟩
  have colon := trivia_skipTrivia s₅
  rw [mark] at colon
  rcases broken with stopped | ⟨c, s₇, read, broken⟩
  · obtain ⟨u, s₆', c, t₆, expression⟩ := condition_completes stopped Parser.not_begins_nil
    obtain ⟨s₅', t₅, colon'⟩ := trivia_resumed colon (t₆.cons ':')
    exact ⟨u, s₅', c, _, _, _, t₅, colon', expression, Many.nil []⟩
  · obtain ⟨u, s₇', bs, t₇, calm, items⟩ := many_completes branch_sound branch_resumes branch_completes broken.stopsAt
    obtain ⟨s₆', t₆, expression⟩ := phrase_resumed (condition_sound _ _ _ read) t₇ calm
    obtain ⟨s₅', t₅, colon'⟩ := trivia_resumed colon (t₆.cons ':')
    exact ⟨u, s₅', c, bs, _, _, t₅, colon', expression, items⟩

/-! ## Whole texts -/

/-- Where reading a file stops, it could have gone on to another file. -/
theorem file_completes (h : rules.StopsAt s rest) : ∃ u s' ds, Resumed rest u s s' ∧ File s' ds := by
  simp only [rules, Parser.bind_stopsAt, trivia_stopsAt, Parser.pure_stopsAt, and_false, exists_false,
    or_false] at h
  obtain ⟨u, s', ds, t', -, items⟩ := many_completes rule_sound rule_resumes rule_completes h
  exact ⟨u, s', ds, t', [], items, Trivia.none []⟩

/-- What has been read of a file, up to text that is left over, is a file. -/
theorem file_of_front {ds : List (Draft Condition)} (h : rules s = .ok ds rest) :
    ∃ s', Resumed rest [] s s' ∧ File s' ds := by
  simp only [rules, Parser.bind_ok, trivia_ok, Parser.pure_ok] at h
  obtain ⟨ds, r, read, -, t, rfl, rfl, rfl⟩ := h
  obtain ⟨items, -⟩ := (Parser.many_ok rule_consumes).1 read
  obtain ⟨r', t', gap⟩ := gap_completes (trivia_skipTrivia r) []
  obtain ⟨s', resumed, -, items'⟩ := many_resumes rule_resumes (items.imp rule_sound) t' (calm_of_end gap)
  exact ⟨s', resumed, r', items', gap⟩

theorem loneCondition_completes (h : loneCondition.StopsAt s rest) :
    ∃ u s' c, Resumed rest u s s' ∧ LoneCondition s' c := by
  simp only [loneCondition, Parser.bind_stopsAt, trivia_stopsAt, Parser.pure_stopsAt, and_false, exists_false,
    or_false] at h
  obtain ⟨u, s', c, t', expression⟩ := condition_completes h Parser.not_begins_nil
  exact ⟨u, s', c, t', [], expression, Trivia.none []⟩

theorem loneCondition_of_front {c : Condition} (h : loneCondition s = .ok c rest) :
    ∃ s', Resumed rest [] s s' ∧ LoneCondition s' c := by
  simp only [loneCondition, Parser.bind_ok, trivia_ok, Parser.pure_ok] at h
  obtain ⟨c, r, read, -, t, rfl, rfl, rfl⟩ := h
  obtain ⟨r', t', gap⟩ := gap_completes (trivia_skipTrivia r) []
  obtain ⟨s', resumed, expression⟩ := phrase_resumed (condition_sound _ _ _ read) t' (calm_of_end gap)
  exact ⟨s', resumed, r', expression, gap⟩

end RuleWatch.RuleText
