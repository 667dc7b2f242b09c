import RuleWatch.Proofs.Condition.Literals
import RuleWatch.Proofs.RuleText.Conditions
import RuleWatch.Proofs.RuleText.LiteralTexts
/-!
  The texts of conditions. The text of a condition over fields that can be named is
  read to its end, or reading ends for good at the first literal that is refused.
  The first happens exactly if the text can be put together by the grammar, and then
  only literals can have changed.
-/

namespace RuleWatch

namespace Condition

theorem fields_of_equals {c d : Condition} (h : d.equals c = true) : d.fields = c.fields := by
  induction d generalizing c with
  | const _ => cases c <;> simp_all [equals, fields]
  | compare _ _ _ => cases c <;> simp_all [equals, fields]
  | truthy _ => cases c <;> simp_all [equals, fields]
  | not d ih =>
    cases c with
    | not c =>
      rw [fields, fields]
      exact ih h
    | _ => simp [equals] at h
  | and d e ih ih' =>
    cases c with
    | and a b =>
      obtain ⟨left, right⟩ := Bool.and_eq_true_iff.1 h
      rw [fields, fields, ih left, ih' right]
    | _ => simp [equals] at h
  | or d e ih ih' =>
    cases c with
    | or a b =>
      obtain ⟨left, right⟩ := Bool.and_eq_true_iff.1 h
      rw [fields, fields, ih left, ih' right]
    | _ => simp [equals] at h

end Condition

namespace RuleText

open Grammar
open RuleWatch.Parser (Begins Breaks nested)

/-- A name that can stand in a condition for a field. -/
def IsField (n : String) : Prop := IsName n ∧ isWordOfConditions n = false

theorem phrase_fields {l : Layer} {s r : List Char} {c : Condition} (h : Phrase l s c r) :
    ∀ f ∈ c.fields, IsField f := by
  induction h with
  | conjunction _ ih => exact ih
  | operand _ ih => exact ih
  | primary _ _ ih => exact ih
  | parentheses _ _ ih => exact ih
  | not _ _ _ ih => exact ih
  | or _ _ _ _ ih ih' => exact fun f hf => (List.mem_append.1 hf).elim (ih f) (ih' f)
  | and _ _ _ _ ih ih' => exact fun f hf => (List.mem_append.1 hf).elim (ih f) (ih' f)
  | true => exact fun f hf => absurd hf List.not_mem_nil
  | false => exact fun f hf => absurd hf List.not_mem_nil
  | compare name free =>
    intro f hf
    rw [List.mem_singleton.1 hf]
    exact ⟨name.1, free⟩
  | truthy name free =>
    intro f hf
    rw [List.mem_singleton.1 hf]
    exact ⟨name.1, free⟩

/-! ## What stands behind a part -/

/-- What may stand behind a part of a condition's text: nothing, a parenthesis, or
an operator. -/
inductive Closed : List Char → Prop where
  | nothing : Closed []
  | parenthesis (r : List Char) : Closed (')' :: r)
  | operator {w : String} (r : List Char) (h : w = "AND" ∨ w = "OR") :
      Closed (' ' :: (w.toList ++ ' ' :: r))

theorem Closed.apart {r : List Char} (h : Closed r) : ¬ Begins isWordChar r := by
  cases h with
  | nothing => exact Parser.not_begins_nil
  | parenthesis r => exact apart_cons rfl r
  | operator r h => exact apart_cons rfl _

theorem Closed.ends {r : List Char} (h : Closed r) : NumberEnds r := by
  cases h with
  | nothing => exact numberEnds_nil
  | parenthesis r => exact numberEnds_cons.2 ⟨rfl, by decide⟩
  | operator r h => exact numberEnds_cons.2 ⟨rfl, by decide⟩

/-- No comparison follows. -/
theorem Closed.alone {r : List Char} (h : Closed r) : ∀ s op t, Trivia r s → ¬ Operator s op t := by
  intro s op t gap sign
  -- the first character behind the blanks would have to begin an operator
  have front := skipTrivia_eq gap (solid_of_operator sign)
  rw [show s = _ from sign] at front
  cases h with
  | nothing => cases op <;> cases front
  | parenthesis r => cases op <;> cases front
  | operator r h =>
    rcases h with rfl | rfl
    · cases op <;> cases front
    · cases op <;> cases front

/-! ## Where reading ends -/

/-- Reading an operand ends for good, however deep it may go. -/
def Fails (s : List Char) : Prop := ∀ n, s.length < n → (nested operandStep n).Breaks s

/-- Reading a chain ends for good, however deep it may go. -/
def ChainFails (s : List Char) : Prop := ∀ n, s.length < n → (disjunction (nested operandStep n)).Breaks s

theorem fails_of_step {s : List Char}
    (h : ∀ n, s.length ≤ n → (operandStep (nested operandStep n)).Breaks s) : Fails s := by
  intro n deep
  obtain ⟨m, rfl⟩ : ∃ m, n = m + 1 := ⟨n - 1, by omega⟩
  exact h m (by omega)

theorem fails_gap {s t : List Char} (gap : Trivia s t) (h : Fails t) : Fails s := by
  apply fails_of_step
  intro n deep
  have := trivia_length gap
  have broken := h (n + 1) (by omega)
  unfold Breaks at broken ⊢
  rwa [operandStep_gap _ gap]

theorem fails_not {s t : List Char} (word : Word "NOT" s t) (h : Fails t) : Fails s := by
  apply fails_of_step
  intro n deep
  have solid := solid_of_begins (begins_of_word word isName_not.1)
  have shorter := name_length (name_of_word word isName_not.1)
  have sign : either "NOT" "not" s = .ok () t := (either_ok isName_not.1 isName_not.2).2 (Or.inl word)
  have negated : (either "NOT" "not").optional? s = .ok (some ()) t :=
    Parser.optional_ok.2 (Or.inl ⟨(), sign, rfl⟩)
  refine Parser.bind_breaks.2 (Or.inr ⟨(), s, trivia_ok.2 (skipTrivia_of_solid solid).symm, ?_⟩)
  refine Parser.bind_breaks.2 (Or.inr ⟨some (), t, negated, ?_⟩)
  refine Parser.bind_breaks.2 (Or.inl (Parser.committed_breaks.2 (Or.inl ?_)))
  exact h n (by omega)

/-- An operand that begins with a solid character ends where its primary does. -/
theorem fails_primary {s : List Char} (solid : Solid s) (free : (either "NOT" "not").Refuses s)
    (h : ∀ n, s.length ≤ n → (primary (disjunction (nested operandStep n))).Breaks s) : Fails s := by
  apply fails_of_step
  intro n deep
  have plain : (either "NOT" "not").optional? s = .ok none s :=
    Parser.optional_ok.2 (Or.inr ⟨free, rfl, rfl⟩)
  refine Parser.bind_breaks.2 (Or.inr ⟨(), s, trivia_ok.2 (skipTrivia_of_solid solid).symm, ?_⟩)
  exact Parser.bind_breaks.2 (Or.inr ⟨none, s, plain, h n deep⟩)

theorem fails_parentheses {s : List Char} (h : ChainFails s) : Fails ('(' :: s) := by
  have other := not_begins_bracket s
  apply fails_primary (solid_cons.2 ⟨rfl, by decide⟩)
  · exact either_refuses (no_word_of_begins other isName_not.1) (no_word_of_begins other isName_not.2)
  · intro n deep
    refine Parser.bind_breaks.2 (Or.inr ⟨(), '(' :: s, trivia_ok.2 rfl, ?_⟩)
    rw [Parser.wanting_breaks, Parser.orElse_breaks]
    apply Or.inl
    refine Parser.bind_breaks.2 (Or.inr ⟨'(', s, Parser.char_ok.2 ⟨rfl, rfl⟩, ?_⟩)
    exact Parser.bind_breaks.2 (Or.inl (h n (Nat.lt_of_succ_le deep)))

theorem fails_comparison {s s₁ s₂ s₃ : List Char} {field : String} {op : Comparison}
    (name : Name s field s₁) (free : isWordOfConditions field = false) (gap : Trivia s₁ s₂)
    (sign : Operator s₂ op s₃) (stop : ∀ t, s₃ ≠ '=' :: t) (refused : value.Refuses s₃) : Fails s := by
  have no_word {w : String} (hw : w ∈ ["true", "false", "NOT", "not"]) : ∀ r, ¬ Word w s r :=
    no_word_of_free name free hw
  have solid := solid_of_begins (name_begins name)
  have no_bracket := ne_bracket_of_begins (name_begins name)
  have read := operator_behind gap sign stop
  apply fails_primary solid
  · exact either_refuses (no_word (by simp)) (no_word (by simp))
  · intro n _
    refine Parser.bind_breaks.2 (Or.inr ⟨(), s, trivia_ok.2 (skipTrivia_of_solid solid).symm, ?_⟩)
    simp only [Parser.wanting_breaks, Parser.orElse_breaks, Parser.bind_refuses, Parser.char_refuses]
    refine Or.inr ⟨Or.inl no_bracket, Or.inr ⟨Or.inl (keyword_refuses.2 (no_word (by simp))),
      Or.inr ⟨Or.inl (keyword_refuses.2 (no_word (by simp))), ?_⟩⟩⟩
    refine Parser.bind_breaks.2 (Or.inr ⟨field, s₁, name_ok.2 name, ?_⟩)
    refine Parser.bind_breaks.2 (Or.inr ⟨some op, s₃, Parser.optional_ok.2 (Or.inl ⟨op, read, rfl⟩), ?_⟩)
    exact Parser.bind_breaks.2 (Or.inl (Parser.committed_breaks.2 (Or.inr refused)))

/-! ## Where chains end -/

section
variable {item : Parser Condition} {w w' : String} {join : Condition → Condition → Condition}

theorem chain_breaks {sign : Parser Unit} {s : List Char} (h : item.Breaks s) :
    (chain item sign join).Breaks s := Parser.bind_breaks.2 (Or.inl h)

theorem chain_breaks_behind (is_name : IsName w) (is_name' : IsName w') {s s₁ s₂ s₃ : List Char}
    {c : Condition} (first : item s = .ok c s₁) (gap : Trivia s₁ s₂)
    (word : Word w s₂ s₃ ∨ Word w' s₂ s₃) (h : item.Breaks s₃) :
    (chain item (either w w') join).Breaks s := by
  -- the sign has been read, and so the item behind it must be there
  obtain ⟨-, -, skipped, -⟩ := joined is_name is_name' gap word
  have next : (link item (either w w')).Breaks s₁ := by
    refine Parser.bind_breaks.2 (Or.inr ⟨(), s₂, trivia_ok.2 skipped.symm, ?_⟩)
    refine Parser.bind_breaks.2 (Or.inr ⟨(), s₃, (either_ok is_name is_name').2 word, ?_⟩)
    exact Parser.committed_breaks.2 (Or.inl h)
  refine Parser.bind_breaks.2 (Or.inr ⟨c, s₁, first, ?_⟩)
  exact Parser.bind_breaks.2 (Or.inl (Parser.many_breaks next))

end

theorem chainFails_of_chain {s : List Char}
    (h : ∀ n, s.length < n → (chain (conjunction (nested operandStep n)) (either "OR" "or") .or).Breaks s) :
    ChainFails s := by
  intro n deep
  obtain ⟨m, rfl⟩ : ∃ m, n = m + 1 := ⟨n - 1, by omega⟩
  have broken := h (m + 1) deep
  unfold Breaks at broken ⊢
  rwa [disjunction_eq]

theorem chainFails_first {s : List Char} (h : Fails s) : ChainFails s :=
  chainFails_of_chain fun n deep => chain_breaks (chain_breaks (h n deep))

theorem chainFails_and {s s₁ s₂ s₃ : List Char} {c : Condition} (left : Phrase .operand s c s₁)
    (gap : Trivia s₁ s₂) (word : Word "AND" s₂ s₃) (h : Fails s₃) : ChainFails s := by
  obtain ⟨-, ends, -, length⟩ := joined isName_and.1 isName_and.2 gap (Or.inl word)
  have shorter := phrase_length left
  apply chainFails_of_chain
  intro n deep
  apply chain_breaks
  exact chain_breaks_behind isName_and.1 isName_and.2 (phrase_read left n deep ends) gap (Or.inl word)
    (h n (by omega))

theorem chainFails_or {s s₁ s₂ s₃ : List Char} {c : Condition} (left : Phrase .operand s c s₁)
    (gap : Trivia s₁ s₂) (word : Word "OR" s₂ s₃) (h : Fails s₃) : ChainFails s := by
  obtain ⟨follows, ends, -, length⟩ := joined isName_or.1 isName_or.2 gap (Or.inl word)
  have shorter := phrase_length left
  apply chainFails_of_chain
  intro n deep
  have read := conjunction_complete (phrase_read (Phrase.operand left)) deep ends (no_and_of_or follows)
  exact chain_breaks_behind isName_or.1 isName_or.2 read gap (Or.inl word) (chain_breaks (h n (by omega)))

/-! ## Texts of conditions -/

theorem trivia_space (s : List Char) : Trivia (' ' :: s) s := Trivia.blank (by decide) (Trivia.none s)

/-- The text of a condition, with more behind it, is read as an operand that is
equal to the condition if and only if all literals come back; or reading ends for
good, and not all come back. -/
def IsReread (c : Condition) (r : List Char) : Prop :=
  (∃ d, Phrase .operand (c.text.toList ++ r) d r ∧ (d.equals c = true ↔ ∀ v ∈ c.literals, v.Readable)) ∨
    Fails (c.text.toList ++ r) ∧ ¬ ∀ v ∈ c.literals, v.Readable

theorem isReread_pair {join : Condition → Condition → Condition} {w : String} {a b : Condition}
    {r : List Char} (operator : w = "AND" ∨ w = "OR")
    (text : (join a b).text.toList ++ r =
      '(' :: (a.text.toList ++ ' ' :: (w.toList ++ ' ' :: (b.text.toList ++ ')' :: r))))
    (literals : (join a b).literals = a.literals ++ b.literals)
    (equals : ∀ d e, (join d e).equals (join a b) = (d.equals a && e.equals b))
    (derived : ∀ {s s₁ s₂ s₃ t d e}, Phrase .operand s d s₁ → Trivia s₁ s₂ → Word w s₂ s₃ →
      Phrase .operand s₃ e t → Expression s (join d e) t)
    (fails : ∀ {s s₁ s₂ s₃ d}, Phrase .operand s d s₁ → Trivia s₁ s₂ → Word w s₂ s₃ → Fails s₃ →
      ChainFails s)
    (left : ∀ {r}, Closed r → IsReread a r) (right : ∀ {r}, Closed r → IsReread b r) :
    IsReread (join a b) r := by
  have all : (∀ v ∈ (join a b).literals, v.Readable) ↔
      (∀ v ∈ a.literals, v.Readable) ∧ ∀ v ∈ b.literals, v.Readable := by
    rw [literals, List.forall_mem_append]
  have word (s : List Char) : Word w (w.toList ++ ' ' :: s) (' ' :: s) := ⟨rfl, apart_cons rfl _⟩
  unfold IsReread
  rw [text, all]
  -- the left side is read first: if it ends for good, nothing behind it matters
  rcases left (Closed.operator (b.text.toList ++ ')' :: r) operator) with ⟨d, first, same⟩ | ⟨broken, unreadable⟩
  · rcases right (Closed.parenthesis r) with ⟨e, second, same'⟩ | ⟨broken, unreadable⟩
    · have inner := derived first (trivia_space _) (word _) (phrase_gap (trivia_space _) second (by simp))
      refine Or.inl ⟨join d e, ?_, ?_⟩
      · exact Phrase.primary (Trivia.none _) (Phrase.parentheses inner (Trivia.none _))
      · rw [equals, Bool.and_eq_true, same, same']
    · refine Or.inr ⟨?_, fun h => unreadable h.2⟩
      exact fails_parentheses (fails first (trivia_space _) (word _) (fails_gap (trivia_space _) broken))
  · refine Or.inr ⟨?_, fun h => unreadable h.1⟩
    exact fails_parentheses (chainFails_first broken)

theorem isReread_compare {field : String} {op : Comparison} {v : Value} (valid : IsField field)
    {r : List Char} (closed : Closed r) : IsReread (.compare field op v) r := by
  obtain ⟨is_name, free⟩ := valid
  have text : (Condition.compare field op v).text.toList ++ r =
      field.toList ++ (' ' :: (op.symbol.toList ++ ' ' :: (v.text.toList ++ r))) := by
    simp [Condition.text]
  have name : Name (field.toList ++ (' ' :: (op.symbol.toList ++ ' ' :: (v.text.toList ++ r)))) field
      (' ' :: (op.symbol.toList ++ ' ' :: (v.text.toList ++ r))) := ⟨is_name, rfl, apart_cons rfl _⟩
  have all : (∀ w ∈ (Condition.compare field op v).literals, w.Readable) ↔ v.Readable := by
    simp [Condition.literals]
  unfold IsReread
  rw [text, all]
  rcases text_read v closed.ends closed.apart with ⟨w, literal, same⟩ | ⟨refused, unreadable⟩
  · refine Or.inl ⟨.compare field op w, ?_, ?_⟩
    · exact Phrase.primary (Trivia.none _) (Phrase.compare name free (trivia_space _) rfl (trivia_space _) literal)
    · rw [← same]
      simp [Condition.equals]
  · refine Or.inr ⟨fails_comparison name free (trivia_space _) rfl (by simp) ?_, unreadable⟩
    obtain ⟨t, wanted, refused⟩ := refused
    exact ⟨t, wanted, (value_gap (trivia_space _)).trans refused⟩

/-- Every condition over fields that can be named is reread. -/
theorem isReread {c : Condition} (valid : ∀ f ∈ c.fields, IsField f) {r : List Char} (closed : Closed r) :
    IsReread c r := by
  induction c generalizing r with
  | const outcome =>
    refine Or.inl ⟨.const outcome, ?_, by simp [Condition.equals, Condition.literals]⟩
    cases outcome with
    | true => exact Phrase.primary (Trivia.none _) (Phrase.true ⟨rfl, closed.apart⟩)
    | false => exact Phrase.primary (Trivia.none _) (Phrase.false ⟨rfl, closed.apart⟩)
  | compare field op v => exact isReread_compare (valid field (by simp [Condition.fields])) closed
  | truthy field =>
    obtain ⟨is_name, free⟩ := valid field (by simp [Condition.fields])
    refine Or.inl ⟨.truthy field, ?_, by simp [Condition.equals, Condition.literals]⟩
    exact Phrase.primary (Trivia.none _) (Phrase.truthy ⟨is_name, rfl, closed.apart⟩ free closed.alone)
  | and a b left right =>
    obtain ⟨in_left, in_right⟩ := List.forall_mem_append.1 valid
    apply isReread_pair (Or.inl rfl) (by simp [Condition.text]) rfl _ _ chainFails_and (left in_left) (right in_right)
    · intro d e
      rfl
    · intro s s₁ s₂ s₃ t d e first gap word second
      exact Phrase.conjunction (Phrase.and (Phrase.operand first) gap (Or.inl word) second)
  | or a b left right =>
    obtain ⟨in_left, in_right⟩ := List.forall_mem_append.1 valid
    apply isReread_pair (Or.inr rfl) (by simp [Condition.text]) rfl _ _ chainFails_or (left in_left) (right in_right)
    · intro d e
      rfl
    · intro s s₁ s₂ s₃ t d e first gap word second
      exact Phrase.or (Phrase.conjunction (Phrase.operand first)) gap (Or.inl word) (Phrase.operand second)
  | not inner ih =>
    have text : (Condition.not inner).text.toList ++ r =
        "NOT".toList ++ ' ' :: (inner.text.toList ++ r) := by
      simp [Condition.text]
    have word : Word "NOT" ("NOT".toList ++ ' ' :: (inner.text.toList ++ r))
        (' ' :: (inner.text.toList ++ r)) := ⟨rfl, apart_cons rfl _⟩
    unfold IsReread
    rw [text]
    rcases ih valid closed with ⟨d, phrase, same⟩ | ⟨broken, unreadable⟩
    · refine Or.inl ⟨.not d, ?_, same⟩
      exact Phrase.not (Trivia.none _) (Or.inl word) (phrase_gap (trivia_space _) phrase (by simp))
    · exact Or.inr ⟨fails_not word (fails_gap (trivia_space _) broken), unreadable⟩

/-- The text of a condition is read as an equal condition if and only if its fields
can be named and its literals are readable. -/
theorem parseCondition_text_iff (c : Condition) :
    (∃ d, parseCondition c.text = .ok d ∧ d.equals c = true) ↔
      (∀ f ∈ c.fields, IsField f) ∧ ∀ v ∈ c.literals, v.Readable := by
  have none_follows (w : String) (is_name : IsName w) : ¬ Follows w [] :=
    not_follows_of_begins is_name (Trivia.none []) solid_nil Parser.not_begins_nil
  have complete {d : Condition} (phrase : Phrase .operand (c.text.toList ++ []) d []) :
      condition c.text.toList = .ok d [] := by
    rw [List.append_nil] at phrase
    apply condition_complete (Phrase.conjunction (Phrase.operand phrase)) numberEnds_nil
    · exact not_or.2 ⟨none_follows _ isName_and.1, none_follows _ isName_and.2⟩
    · exact not_or.2 ⟨none_follows _ isName_or.1, none_follows _ isName_or.2⟩
  refine ⟨?_, ?_⟩
  · intro h
    obtain ⟨d, read, equal⟩ := h
    obtain ⟨r, read, gap⟩ := parseCondition_ok.1 read
    have valid : ∀ f ∈ c.fields, IsField f := by
      rw [← Condition.fields_of_equals equal]
      exact phrase_fields (condition_sound _ _ _ read)
    -- the fields are settled; the literals follow from what can be read at all
    refine ⟨valid, ?_⟩
    rcases isReread valid Closed.nothing with ⟨d', phrase, same⟩ | ⟨broken, _⟩
    · -- the grammar leaves no choice: what is read is what was put together
      rw [complete phrase] at read
      obtain ⟨rfl, _⟩ := Reply.ok.inj read
      exact same.1 equal
    · have ended := chainFails_first broken _ (Nat.lt_succ_self _)
      rw [List.append_nil] at ended
      rw [condition_eq] at read
      exact absurd read (Parser.not_ok_of_breaks ended d r)
  · intro h
    obtain ⟨valid, readable⟩ := h
    rcases isReread valid Closed.nothing with ⟨d, phrase, same⟩ | ⟨_, unreadable⟩
    · exact ⟨d, parseCondition_ok.2 ⟨[], complete phrase, Trivia.none []⟩, same.2 readable⟩
    · exact absurd readable unreadable

end RuleText

end RuleWatch
