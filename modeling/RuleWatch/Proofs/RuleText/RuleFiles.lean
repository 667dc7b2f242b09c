import Mathlib.Data.List.Induction
import RuleWatch.Proofs.RuleText.Conditions
/-!
  Rule files are read exactly as the grammar has them. A list of actions or of
  branches ends where a keyword or the end of the text stands, and there each part
  of a rule stops as well: no number, no chain and no clause goes on.
-/

namespace RuleWatch.RuleText

open Grammar
open RuleWatch.Parser (Begins Many Reads Refuses)

/-! ## Clauses behind a keyword -/

section
variable {α : Type} {w : String} (is_name : IsName w) {p : Parser α}
include is_name

/-- What stands behind a keyword and blanks and comments in front of it. -/
theorem clause_ok {s r : List Char} {a : α} :
    (do trivia; keyword w; p) s = .ok a r ↔ ∃ s₁ s₂, Trivia s s₁ ∧ Word w s₁ s₂ ∧ p s₂ = .ok a r := by
  simp only [Parser.bind_ok, trivia_ok, keyword_ok]
  refine ⟨?_, ?_⟩
  · intro given
    obtain ⟨-, -, rfl, -, t, word, read⟩ := given
    exact ⟨_, t, trivia_skipTrivia s, word, read⟩
  · intro given
    obtain ⟨s₁, s₂, gap, word, read⟩ := given
    exact ⟨(), s₁, (skipTrivia_eq gap (solid_of_begins (begins_of_word word is_name))).symm, (), s₂, word, read⟩

/-- What must be finished once its keyword stands there is refused if and only if
the keyword does not follow. -/
theorem clause_refuses (finished : ∀ s, ¬ p.Refuses s) {s : List Char} :
    Refuses (do trivia; keyword w; p) s ↔ ¬ Follows w s := by
  rw [not_follows_iff is_name]
  simp [finished]

end

theorem isName_after : IsName "after" := by decide

theorem isName_with : IsName "with" := by decide

theorem isName_on : IsName "on" := by decide

theorem isName_rule : IsName "rule" := by decide

theorem isName_history : IsName "history" := by decide

/-! ## Parameters -/

theorem param_sound : param.Sound Parameter := by
  intro s p r h
  simp only [param, Parser.bind_ok, trivia_ok, Parser.wanting_ok, Parser.committed_ok, name_ok, Parser.char_ok,
    Parser.pure_ok] at h
  obtain ⟨-, -, rfl, key, s₂, is_name, -, -, rfl, -, s₃, ⟨sign, -⟩, v, r, read, rfl, rfl⟩ := h
  obtain ⟨s₄, gap', literal⟩ := value_sound read
  exact Parameter.mk (trivia_skipTrivia s) is_name (sign ▸ trivia_skipTrivia s₂) gap' literal

theorem param_complete {s r : List Char} {p : String × Value} (h : Parameter s p r) (ends : NumberEnds r) :
    param s = .ok p r := by
  obtain ⟨gap, is_name, sign, gap', literal⟩ := h
  simp only [param, Parser.bind_ok, trivia_ok, Parser.wanting_ok, Parser.committed_ok, name_ok, Parser.char_ok,
    Parser.pure_ok]
  exact ⟨(), _, (skipTrivia_eq gap (solid_of_begins (name_begins is_name))).symm, _, _, is_name, (), _,
    (skipTrivia_eq sign (solid_cons.2 ⟨rfl, by decide⟩)).symm, '=', _, ⟨rfl, rfl⟩, _, r,
    value_complete gap' literal ends, rfl, rfl⟩

theorem param_refuses {s : List Char} : ¬ param.Refuses s := by simp [param]

theorem parameter_length {s r : List Char} {p : String × Value} (h : Parameter s p r) :
    r.length < s.length := by
  obtain ⟨gap, is_name, sign, gap', literal⟩ := h
  have := trivia_length gap
  have := name_length is_name
  have := trivia_length sign
  have := trivia_length gap'
  have := literal_length literal
  simp only [List.length_cons] at *
  omega

def nextParam : Parser (String × Value) := do
  (do trivia; let _ ← Parser.char ',')
  param

theorem nextParam_ok {s r : List Char} {p : String × Value} :
    nextParam s = .ok p r ↔ ∃ t, skipTrivia none s = ',' :: t ∧ param t = .ok p r := by
  simp [nextParam]

theorem nextParam_refuses {s : List Char} : nextParam.Refuses s ↔ ∀ t, skipTrivia none s ≠ ',' :: t := by
  simp [nextParam, param_refuses]

theorem nextParam_sound : nextParam.Sound NextParameter := by
  intro s p r h
  obtain ⟨t, comma, read⟩ := nextParam_ok.1 h
  exact NextParameter.mk (comma ▸ trivia_skipTrivia s) (param_sound _ _ _ read)

theorem nextParameter_length {s r : List Char} {p : String × Value} (h : NextParameter s p r) :
    r.length < s.length := by
  obtain ⟨comma, parameter⟩ := h
  have := trivia_length comma
  have := parameter_length parameter
  simp only [List.length_cons] at *
  omega

theorem nextParam_consumes : nextParam.Consumes :=
  fun s p r h => nextParameter_length (nextParam_sound s p r h)

theorem nextParameters_complete {s r : List Char} {ps : List (String × Value)}
    (h : Many NextParameter s ps r) (ends : NumberEnds r) :
    Many (Reads nextParam) s ps r ∧ NumberEnds s := by
  induction h with
  | nil r => exact ⟨Many.nil r, ends⟩
  | cons first _ ih =>
    obtain ⟨others, ends'⟩ := ih ends
    obtain ⟨comma, parameter⟩ := first
    have skipped := skipTrivia_eq comma (solid_cons.2 ⟨rfl, by decide⟩)
    refine ⟨Many.cons (nextParam_ok.2 ⟨_, skipped, param_complete parameter ends'⟩) others, ?_⟩
    exact numberEnds_of_trivia comma (numberEnds_cons.2 ⟨rfl, by decide⟩)

/-! ## Actions -/

theorem threshold?_sound : threshold?.Sound AfterClause := by
  intro s n r h
  rw [threshold?, Parser.optional_ok, clause_refuses isName_after (by simp)] at h
  rcases h with ⟨k, h, rfl⟩ | ⟨absent, rfl, rfl⟩
  · obtain ⟨s₁, s₂, gap, word, read⟩ := (clause_ok isName_after).1 h
    simp only [Parser.bind_ok, trivia_ok, Parser.wanting_ok, Parser.committed_ok] at read
    obtain ⟨-, -, rfl, read⟩ := read
    exact AfterClause.given gap word (trivia_skipTrivia s₂) (count_sound read)
  · exact AfterClause.absent absent

theorem threshold?_complete {s r : List Char} {n : Option Nat} (h : AfterClause s n r) (ends : NumberEnds r) :
    threshold? s = .ok n r := by
  rw [threshold?, Parser.optional_ok, clause_refuses isName_after (by simp)]
  cases h with
  | given gap word gap' is_count =>
    refine Or.inl ⟨_, (clause_ok isName_after).2 ⟨_, _, gap, word, ?_⟩, rfl⟩
    simp only [Parser.bind_ok, trivia_ok, Parser.wanting_ok, Parser.committed_ok]
    exact ⟨(), _, (skipTrivia_eq gap' (count_solid is_count)).symm,
      count_complete is_count (no_digit_of_numberEnds ends)⟩
  | absent absent => exact Or.inr ⟨absent, rfl, rfl⟩

theorem params?_sound : params?.Sound WithClause := by
  intro s ps r h
  rw [params?, Parser.optional_ok, clause_refuses isName_with (by simp)] at h
  rcases h with ⟨ps, h, rfl⟩ | ⟨absent, rfl, rfl⟩
  · obtain ⟨s₁, s₂, gap, word, read⟩ := (clause_ok isName_with).1 h
    simp only [Parser.committed_ok, Parser.separated, Parser.bind_ok, Parser.pure_ok] at read
    obtain ⟨first, s₃, read, others, r, more, rfl, rfl⟩ := read
    obtain ⟨more, -⟩ := (Parser.many_ok nextParam_consumes).1 more
    exact WithClause.given gap word (param_sound _ _ _ read) (more.imp nextParam_sound)
  · exact WithClause.absent absent

theorem params?_complete {s r : List Char} {ps : Option (List (String × Value))} (h : WithClause s ps r)
    (ends : NumberEnds r) (stop : ∀ t, skipTrivia none r ≠ ',' :: t) : params? s = .ok ps r := by
  rw [params?, Parser.optional_ok, clause_refuses isName_with (by simp)]
  cases h with
  | given gap word first others =>
    refine Or.inl ⟨_, (clause_ok isName_with).2 ⟨_, _, gap, word, ?_⟩, rfl⟩
    obtain ⟨others, ends'⟩ := nextParameters_complete others ends
    simp only [Parser.committed_ok, Parser.separated, Parser.bind_ok, Parser.pure_ok]
    exact ⟨_, _, param_complete first ends', _, r,
      (Parser.many_ok nextParam_consumes).2 ⟨others, nextParam_refuses.2 stop⟩, rfl, rfl⟩
  | absent absent => exact Or.inr ⟨absent, rfl, rfl⟩

theorem told_ofList (given : List (String × Value)) : Told given (Std.ExtTreeMap.ofList given) := by
  intro key
  rw [Std.ExtTreeMap.ofList_eq_foldl]
  induction given using List.reverseRecOn with
  | nil => simp
  | append_singleton given p ih =>
    rw [List.foldl_append, List.foldl_cons, List.foldl_nil, Std.ExtTreeMap.getElem?_insert, ih,
      List.reverse_append, List.reverse_singleton, List.singleton_append, List.lookup_cons]
    by_cases same : key = p.1
    · simp [same]
    · simp [beq_false_of_ne same, Ne.symm same]

/-- There is one way only to be told what is given. -/
theorem told_iff {given : List (String × Value)} {params : Fields} :
    Told given params ↔ Std.ExtTreeMap.ofList given = params := by
  refine ⟨?_, ?_⟩
  · intro told
    exact Std.ExtTreeMap.ext_getElem? fun {key} => (told_ofList given key).trans (told key).symm
  · intro same
    subst same
    exact told_ofList given

theorem isReserved_iff {w : String} : isReserved w = true ↔ w ∈ ["rule", "on"] := by simp [isReserved]

theorem action_sound : action.Sound ActionItem := by
  intro s a r h
  simp only [action, Parser.bind_ok, trivia_ok, Parser.mapPartial_ok, Option.ite_none_left_eq_some,
    Option.some.injEq, name_ok, Parser.pure_ok] at h
  obtain ⟨-, -, rfl, name, s₂, ⟨name, is_name, free, rfl⟩, threshold, s₃, after, ps, r, given, rfl, rfl⟩ := h
  exact ActionItem.mk (trivia_skipTrivia s) is_name (mt isReserved_iff.2 free) (threshold?_sound _ _ _ after)
    (params?_sound _ _ _ given) (told_ofList _)

theorem withClause_ends {s r : List Char} {ps : Option (List (String × Value))} (h : WithClause s ps r)
    (ends : NumberEnds r) : NumberEnds s := by
  cases h with
  | given gap word first others =>
    obtain ⟨c, t, rfl, start⟩ := begins_of_word word isName_with
    exact numberEnds_of_trivia gap (numberEnds_of_isWordStart start)
  | absent absent => exact ends

theorem action_complete {s r : List Char} {a : Action} (h : ActionItem s a r) (ends : NumberEnds r)
    (stop : ∀ t, skipTrivia none r ≠ ',' :: t) : action s = .ok a r := by
  obtain ⟨gap, is_name, free, after, given, told⟩ := h
  simp only [action, Parser.bind_ok, trivia_ok, Parser.mapPartial_ok, Option.ite_none_left_eq_some,
    Option.some.injEq, name_ok, Parser.pure_ok]
  exact ⟨(), _, (skipTrivia_eq gap (solid_of_begins (name_begins is_name))).symm, _, _,
    ⟨_, is_name, mt isReserved_iff.1 free, rfl⟩, _, _, threshold?_complete after (withClause_ends given ends), _, r,
    params?_complete given ends stop, congrArg _ (told_iff.1 told), rfl⟩

theorem actionName_refuses {s : List Char} :
    (Parser.mapPartial (fun w => if isReserved w then none else some w) name).Refuses s ↔
      ¬ Begins isWordStart s ∨ (∃ r, Word "rule" s r) ∨ ∃ r, Word "on" s r := by
  simp only [Parser.mapPartial_refuses, name_refuses, name_ok, ite_eq_left_iff, reduceCtorEq, imp_false,
    not_not, isReserved, Bool.or_eq_true, beq_iff_eq]
  apply or_congr_right
  refine ⟨?_, ?_⟩
  · intro given
    rcases given with ⟨n, t, is_name, rfl | rfl⟩
    · exact Or.inl ⟨t, is_name.2⟩
    · exact Or.inr ⟨t, is_name.2⟩
  · intro given
    rcases given with ⟨t, word⟩ | ⟨t, word⟩
    · exact ⟨"rule", t, name_of_word word isName_rule, Or.inl rfl⟩
    · exact ⟨"on", t, name_of_word word isName_on, Or.inr rfl⟩

/-- A list of actions ends where no name stands or a reserved one. -/
theorem action_refuses {s : List Char} : action.Refuses s ↔
    ¬ Begins isWordStart (skipTrivia none s) ∨ Follows "rule" s ∨ Follows "on" s := by
  rw [follows_iff isName_rule, follows_iff isName_on, ← actionName_refuses]
  unfold action
  simp only [Parser.bind_refuses, trivia_refuses, false_or, trivia_ok]
  simp [threshold?, params?]

theorem afterClause_length {s r : List Char} {n : Option Nat} (h : AfterClause s n r) :
    r.length ≤ s.length := by
  cases h with
  | given gap word gap' is_count =>
    have := trivia_length gap
    have := word_length word
    have := trivia_length gap'
    have := count_length is_count
    omega
  | absent => exact Nat.le_refl _

theorem withClause_length {s r : List Char} {ps : Option (List (String × Value))} (h : WithClause s ps r) :
    r.length ≤ s.length := by
  cases h with
  | given gap word first others =>
    have := trivia_length gap
    have := word_length word
    have := parameter_length first
    have := others.length_le fun _ _ _ => nextParameter_length
    omega
  | absent => exact Nat.le_refl _

theorem actionItem_length {s r : List Char} {a : Action} (h : ActionItem s a r) : r.length < s.length := by
  obtain ⟨gap, is_name, free, after, given, -⟩ := h
  have := trivia_length gap
  have := name_length is_name
  have := afterClause_length after
  have := withClause_length given
  omega

theorem action_consumes : action.Consumes := fun s a r h => actionItem_length (action_sound s a r h)

/-! ## Where lists end -/

/-- Nothing but one of some keywords follows, if anything. -/
def Stops (words : List String) (s : List Char) : Prop :=
  skipTrivia none s = [] ∨ ∃ w ∈ words, IsName w ∧ Follows w s

/-- Nothing but a name follows, if anything. -/
def NameNext (s : List Char) : Prop :=
  skipTrivia none s = [] ∨ Begins isWordStart (skipTrivia none s)

theorem nameNext_of_stops {words : List String} {s : List Char} (h : Stops words s) : NameNext s := by
  apply h.imp_right
  intro given
  obtain ⟨w, -, is_name, follows⟩ := given
  obtain ⟨r, word⟩ := (follows_iff is_name).1 follows
  exact begins_of_word word is_name

theorem numberEnds_of_nameNext {s : List Char} (h : NameNext s) : NumberEnds s := by
  apply numberEnds_of_trivia (trivia_skipTrivia s)
  rcases h with none | ⟨c, t, next, start⟩
  · rw [none]; exact numberEnds_nil
  · rw [next]; exact numberEnds_of_isWordStart start

theorem no_comma_of_nameNext {s : List Char} (h : NameNext s) : ∀ t, skipTrivia none s ≠ ',' :: t := by
  intro t comma
  rw [NameNext, comma] at h
  rcases h with h | h
  · cases h
  · rw [Parser.begins_cons] at h
    cases h

theorem not_follows_of_stops {words : List String} {s : List Char} (h : Stops words s) {w : String}
    (is_name : IsName w) (other : w ∉ words) : ¬ Follows w s := by
  intro follows
  rcases h with none | ⟨w', hw', is_name', follows'⟩
  · obtain ⟨r, word⟩ := (follows_iff is_name).1 follows
    obtain ⟨c, t, e, -⟩ := begins_of_word word is_name
    rw [none] at e
    cases e
  · exact other (follows_unique is_name is_name' follows follows' ▸ hw')

theorem nameNext_of_action {s r : List Char} {a : Action} (h : ActionItem s a r) : NameNext s := by
  obtain ⟨gap, is_name, -, -, -, -⟩ := h
  have begins := name_begins is_name
  exact Or.inr (by rwa [skipTrivia_eq gap (solid_of_begins begins)])

theorem actions_complete {s r : List Char} {as : List Action} (h : Many ActionItem s as r)
    (stops : Stops ["on", "rule"] r) : action.many s = .ok as r := by
  have refused : action.Refuses r := by
    rw [action_refuses]
    rcases stops with none | ⟨w, hw, -, follows⟩
    · rw [none]; exact Or.inl Parser.not_begins_nil
    · simp only [List.mem_cons, List.not_mem_nil, or_false] at hw
      rcases hw with rfl | rfl
      · exact Or.inr (Or.inr follows)
      · exact Or.inr (Or.inl follows)
  refine (Parser.many_ok action_consumes).2 ⟨?_, refused⟩
  -- in front of each action, and of what ends the list, a name stands or nothing
  suffices main : Many (Reads action) s as r ∧ NameNext s from main.1
  clear refused
  induction h with
  | nil r => exact ⟨Many.nil r, nameNext_of_stops stops⟩
  | cons first _ ih =>
    obtain ⟨others, next⟩ := ih stops
    have read := action_complete first (numberEnds_of_nameNext next) (no_comma_of_nameNext next)
    exact ⟨Many.cons read others, nameNext_of_action first⟩

/-! ## Branches -/

theorem outcome_ok {s r : List Char} {b : Bool} :
    ((do keyword "true"; return true) <|> (do keyword "false"; return false)) s = .ok b r ↔ Outcome s b r := by
  simp only [Parser.orElse_ok, Parser.bind_ok, keyword_ok, Parser.pure_ok, Parser.bind_refuses,
    keyword_refuses, Parser.pure_refuses, and_false, exists_false, or_false, Outcome]
  refine ⟨?_, ?_⟩
  · intro given
    rcases given with ⟨-, t, word, rfl, rfl⟩ | ⟨-, -, t, word, rfl, rfl⟩ <;> exact word
  · intro word
    cases b with
    | true => exact Or.inl ⟨(), r, word, rfl, rfl⟩
    | false =>
      refine Or.inr ⟨?_, (), r, word, rfl, rfl⟩
      intro t given
      obtain ⟨e, -⟩ := given
      rw [word.1] at e
      cases e

theorem outcome_begins {s r : List Char} {b : Bool} (h : Outcome s b r) : Begins isWordStart s :=
  begins_of_word h (by cases b <;> decide)

theorem branch_sound : branch.Sound Branch := by
  intro s b r h
  obtain ⟨s₁, s₂, gap, word, h⟩ := (clause_ok isName_on).1 h
  simp only [Parser.bind_ok, trivia_ok, Parser.wanting_ok, Parser.committed_ok, outcome_ok, Parser.char_ok,
    Parser.pure_ok] at h
  obtain ⟨-, -, rfl, outcome, s₄, is_outcome, -, -, rfl, -, s₅, ⟨colon, -⟩, actions, r, items, rfl, rfl⟩ := h
  obtain ⟨items, -⟩ := (Parser.many_ok action_consumes).1 items
  exact Branch.mk gap word (trivia_skipTrivia s₂) is_outcome (colon ▸ trivia_skipTrivia s₄)
    (items.imp action_sound)

theorem branch_complete {s r : List Char} {b : Bool × List Action} (h : Branch s b r)
    (stops : Stops ["on", "rule"] r) : branch s = .ok b r := by
  obtain ⟨gap, word, gap', is_outcome, colon, items⟩ := h
  refine (clause_ok isName_on).2 ⟨_, _, gap, word, ?_⟩
  simp only [Parser.bind_ok, trivia_ok, Parser.wanting_ok, Parser.committed_ok, outcome_ok, Parser.char_ok,
    Parser.pure_ok]
  exact ⟨(), _, (skipTrivia_eq gap' (solid_of_begins (outcome_begins is_outcome))).symm, _, _, is_outcome, (), _,
    (skipTrivia_eq colon (solid_cons.2 ⟨rfl, by decide⟩)).symm, ':', _, ⟨rfl, rfl⟩, _, r,
    actions_complete items stops, rfl, rfl⟩

theorem branch_refuses {s : List Char} : branch.Refuses s ↔ ¬ Follows "on" s :=
  clause_refuses isName_on (by simp)

/-- A branch takes a character besides those of its actions. -/
theorem branch_weight {s r : List Char} {b : Bool × List Action} (h : Branch s b r) :
    b.2.length + 1 + r.length ≤ s.length := by
  obtain ⟨gap, word, gap', is_outcome, colon, items⟩ := h
  have := trivia_length gap
  have := word_length word
  have := trivia_length gap'
  have := word_length is_outcome
  have := trivia_length colon
  have := items.length_le fun _ _ _ => actionItem_length
  simp only [List.length_cons] at *
  omega

theorem branch_length {s r : List Char} {b : Bool × List Action} (h : Branch s b r) : r.length < s.length := by
  have := branch_weight h
  omega

theorem branch_consumes : branch.Consumes := fun s b r h => branch_length (branch_sound s b r h)

theorem follows_of_branch {s r : List Char} {b : Bool × List Action} (h : Branch s b r) : Follows "on" s := by
  obtain ⟨gap, word, -, -, -, -⟩ := h
  exact ⟨_, _, gap, word⟩

theorem branches_complete {s r : List Char} {bs : List (Bool × List Action)} (h : Many Branch s bs r)
    (stops : Stops ["rule"] r) : branch.many s = .ok bs r ∧ Stops ["on", "rule"] s := by
  have refused : branch.Refuses r := branch_refuses.2 (not_follows_of_stops stops isName_on (by decide))
  have stops' : Stops ["on", "rule"] r := stops.imp_right fun ⟨w, hw, h⟩ => ⟨w, List.mem_cons_of_mem _ hw, h⟩
  rw [Parser.many_ok branch_consumes, and_assoc, and_left_comm]
  refine ⟨refused, ?_⟩
  clear refused
  induction h with
  | nil r => exact ⟨Many.nil r, stops'⟩
  | cons first _ ih =>
    obtain ⟨others, next⟩ := ih stops stops'
    exact ⟨Many.cons (branch_complete first next) others,
      Or.inr ⟨"on", by simp, isName_on, follows_of_branch first⟩⟩

/-! ## Rules -/

theorem historyNote_sound {s r : List Char} {n : Option Nat}
    (h : Parser.optional? historyNote s = .ok n r) : HistoryNote s n r := by
  rcases Parser.optional_ok.1 h with ⟨k, read, rfl⟩ | ⟨-, rfl, rfl⟩
  · simp only [historyNote, Parser.bind_ok, trivia_ok, Parser.wanting_ok, Parser.committed_ok, Parser.char_ok,
      keyword_ok, Parser.pure_ok] at read
    obtain ⟨-, -, rfl, -, s₁, ⟨opened, -⟩, -, -, rfl, -, s₃, word, -, -, rfl, k, s₅, is_count, -, -, rfl, -, r,
      ⟨closed, -⟩, rfl, rfl⟩ := read
    exact HistoryNote.given (opened ▸ trivia_skipTrivia s) (trivia_skipTrivia s₁) word (trivia_skipTrivia s₃)
      (count_sound is_count) (closed ▸ trivia_skipTrivia s₅)
  · exact HistoryNote.absent _

theorem historyNote_length {s r : List Char} {n : Option Nat} (h : HistoryNote s n r) :
    r.length ≤ s.length := by
  cases h with
  | given opened gap word gap' is_count closed =>
    have := trivia_length opened
    have := trivia_length gap
    have := word_length word
    have := trivia_length gap'
    have := count_length is_count
    have := trivia_length closed
    simp only [List.length_cons] at *
    omega
  | absent => exact Nat.le_refl _

/-- A note is read where it stands, and where none does a colon is enough. -/
theorem historyNote_complete {s r t : List Char} {n : Option Nat} (h : HistoryNote s n r)
    (colon : Trivia r (':' :: t)) : Parser.optional? historyNote s = .ok n r := by
  rw [Parser.optional_ok]
  cases h with
  | given opened gap word gap' is_count closed =>
    refine Or.inl ⟨_, ?_, rfl⟩
    have ends := numberEnds_of_trivia closed (numberEnds_cons.2 ⟨rfl, by decide⟩)
    simp only [historyNote, Parser.bind_ok, trivia_ok, Parser.wanting_ok, Parser.committed_ok, Parser.char_ok,
      keyword_ok, Parser.pure_ok]
    exact ⟨(), _, (skipTrivia_eq opened (solid_cons.2 ⟨rfl, by decide⟩)).symm, '(', _, ⟨rfl, rfl⟩, (), _,
      (skipTrivia_eq gap (solid_of_begins (begins_of_word word isName_history))).symm, (), _, word, (), _,
      (skipTrivia_eq gap' (count_solid is_count)).symm, _, _,
      count_complete is_count (no_digit_of_numberEnds ends), (), _,
      (skipTrivia_eq closed (solid_cons.2 ⟨rfl, by decide⟩)).symm, ')', r, ⟨rfl, rfl⟩, rfl, rfl⟩
  | absent =>
    refine Or.inr ⟨?_, rfl, rfl⟩
    have skipped := skipTrivia_eq colon (solid_cons.2 ⟨rfl, by decide⟩)
    simp [historyNote, skipped]

theorem actionsOf_cons (outcome : Bool) (b : Bool × List Action) (branches : List (Bool × List Action)) :
    actionsOf outcome (b :: branches) =
      if b.1 = outcome then b.2 ++ actionsOf outcome branches else actionsOf outcome branches := by
  by_cases same : b.1 = outcome <;> simp [actionsOf, same]

/-- The lists that a rule gets are the actions of its branches, gathered. -/
theorem gathered_actionsOf (branches : List (Bool × List Action)) :
    Gathered branches (actionsOf true branches) (actionsOf false branches) := by
  induction branches with
  | nil => exact Gathered.none
  | cons b branches ih =>
    obtain ⟨outcome, actions⟩ := b
    rw [actionsOf_cons, actionsOf_cons]
    cases outcome with
    | true => exact Gathered.onTrue actions ih
    | false => exact Gathered.onFalse actions ih

/-- There is one way only to gather actions. -/
theorem gathered_iff {branches : List (Bool × List Action)} {onTrue onFalse : List Action} :
    Gathered branches onTrue onFalse ↔ actionsOf true branches = onTrue ∧ actionsOf false branches = onFalse := by
  refine ⟨?_, ?_⟩
  · intro gathered
    induction gathered with
    | none => exact ⟨rfl, rfl⟩
    | onTrue actions _ ih =>
      rw [actionsOf_cons, actionsOf_cons, ih.1, ih.2]
      exact ⟨rfl, rfl⟩
    | onFalse actions _ ih =>
      rw [actionsOf_cons, actionsOf_cons, ih.1, ih.2]
      exact ⟨rfl, rfl⟩
  · intro same
    obtain ⟨rfl, rfl⟩ := same
    exact gathered_actionsOf branches

theorem rule_sound : rule.Sound RuleItem := by
  intro s d r h
  obtain ⟨s₁, s₂, gap, word, h⟩ := (clause_ok isName_rule).1 h
  simp only [Parser.bind_ok, trivia_ok, Parser.wanting_ok, Parser.committed_ok, name_ok, Parser.char_ok,
    Parser.pure_ok] at h
  obtain ⟨-, -, rfl, name, s₄, is_name, n, s₅, note, -, -, rfl, -, s₆, ⟨colon, -⟩, c, s₇, read, bs, r, items, rfl,
    rfl⟩ := h
  obtain ⟨items, -⟩ := (Parser.many_ok branch_consumes).1 items
  exact RuleItem.mk gap word (trivia_skipTrivia s₂) is_name (historyNote_sound note)
    (colon ▸ trivia_skipTrivia s₅) (condition_sound _ _ _ read) (items.imp branch_sound) (gathered_actionsOf bs)

theorem rule_complete {s r : List Char} {d : Draft Condition} (h : RuleItem s d r)
    (stops : Stops ["rule"] r) : rule s = .ok d r := by
  obtain ⟨gap, word, gap', is_name, note, colon, expression, items, gathered⟩ := h
  obtain ⟨rfl, rfl⟩ := gathered_iff.1 gathered
  obtain ⟨branches, next⟩ := branches_complete items stops
  have none (w : String) (is_name : IsName w) (other : w ∉ ["on", "rule"]) := not_follows_of_stops next is_name other
  have read := condition_complete expression (numberEnds_of_nameNext (nameNext_of_stops next))
    (not_or.2 ⟨none "AND" (by decide) (by decide), none "and" (by decide) (by decide)⟩)
    (not_or.2 ⟨none "OR" (by decide) (by decide), none "or" (by decide) (by decide)⟩)
  refine (clause_ok isName_rule).2 ⟨_, _, gap, word, ?_⟩
  simp only [Parser.bind_ok, trivia_ok, Parser.wanting_ok, Parser.committed_ok, name_ok, Parser.char_ok,
    Parser.pure_ok]
  exact ⟨(), _, (skipTrivia_eq gap' (solid_of_begins (name_begins is_name))).symm, _, _, is_name, _, _,
    historyNote_complete note colon, (), _, (skipTrivia_eq colon (solid_cons.2 ⟨rfl, by decide⟩)).symm, ':', _,
    ⟨rfl, rfl⟩, _, _, read, _, r, branches, rfl, rfl⟩

theorem rule_refuses {s : List Char} : rule.Refuses s ↔ ¬ Follows "rule" s :=
  clause_refuses isName_rule (by simp)

theorem ruleItem_length {s r : List Char} {d : Draft Condition} (h : RuleItem s d r) : r.length < s.length := by
  obtain ⟨gap, word, gap', is_name, note, colon, expression, items, -⟩ := h
  have := trivia_length gap
  have := word_length word
  have := trivia_length gap'
  have := name_length is_name
  have := historyNote_length note
  have := trivia_length colon
  have := phrase_length expression
  have := items.length_le fun _ _ _ => branch_length
  simp only [List.length_cons] at *
  omega

theorem rule_consumes : rule.Consumes := fun s d r h => ruleItem_length (rule_sound s d r h)

theorem follows_of_rule {s r : List Char} {d : Draft Condition} (h : RuleItem s d r) : Follows "rule" s := by
  obtain ⟨gap, word, -, -, -, -, -, -, -⟩ := h
  exact ⟨_, _, gap, word⟩

/-! ## Files -/

theorem items_complete {s r : List Char} {ds : List (Draft Condition)} (h : Many RuleItem s ds r)
    (stops : Stops ["rule"] r) : Many (Reads rule) s ds r ∧ Stops ["rule"] s := by
  induction h with
  | nil r => exact ⟨Many.nil r, stops⟩
  | cons first _ ih =>
    obtain ⟨others, next⟩ := ih stops
    exact ⟨Many.cons (rule_complete first next) others,
      Or.inr ⟨"rule", by simp, isName_rule, follows_of_rule first⟩⟩

theorem parseRules_iff {text : String} {drafts : List (Draft Condition)} :
    parseRules text = .ok drafts ↔ File text.toList drafts := by
  rw [parseRules, parse_ok]
  simp only [rules, Parser.bind_ok, trivia_ok, Parser.pure_ok, Parser.many_ok rule_consumes]
  refine ⟨?_, ?_⟩
  · intro given
    obtain ⟨ds, r, ⟨items, -⟩, -, t, rfl, rfl, ended⟩ := given
    exact ⟨r, items.imp rule_sound, ended ▸ trivia_skipTrivia r⟩
  · intro given
    obtain ⟨r, items, ended⟩ := given
    have skipped : skipTrivia none r = [] := skipTrivia_eq ended solid_nil
    have refused : rule.Refuses r := rule_refuses.2 (not_follows_of_begins isName_rule ended solid_nil
      Parser.not_begins_nil)
    obtain ⟨read, -⟩ := items_complete items (Or.inl skipped)
    exact ⟨drafts, r, ⟨read, refused⟩, (), [], skipped.symm, rfl, rfl⟩

/-- **Rule files.** A text is read as a list of rules if and only if the grammar derives the
list from it, and every other text is refused. -/
theorem parseRules_exact (text : String) :
    (∀ drafts, parseRules text = .ok drafts ↔ File text.toList drafts) ∧
      ((∃ m, parseRules text = .error m) ↔ ∀ drafts, ¬ File text.toList drafts) := by
  refine ⟨fun drafts => parseRules_iff, ?_⟩
  simp only [← parseRules_iff]
  cases parseRules text <;> simp

end RuleWatch.RuleText
