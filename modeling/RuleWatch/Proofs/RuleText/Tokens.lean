import RuleWatch.Proofs.RuleText.Grammar
/-!
  The smallest parts of a rule text are read as the grammar has them: whatever is
  read is what the grammar says, and what the grammar says is read, provided that
  no number is cut short.
-/

namespace RuleWatch.RuleText

open Grammar
open RuleWatch.Parser (Begins Refuses)

/-! ## Characters -/

theorem isBlank_iff {c : Char} : isBlank c = true ↔ c ∈ blanks := by
  simp [isBlank, blanks, or_assoc]

/-- No character of a class is a blank if no blank is in the class. -/
theorem isBlank_eq_false {accepts : Char → Bool} (apart : blanks.any accepts = false) {c : Char}
    (h : accepts c = true) : isBlank c = false := by
  by_contra blank
  rw [Bool.not_eq_false, isBlank_iff] at blank
  exact List.any_eq_false.1 apart c blank h

theorem isNameStart_eq : isNameStart = isWordStart := rfl

theorem isNameChar_eq : isNameChar = isWordChar := by
  funext c
  rw [isNameChar, isWordChar, isWordStart, Char.isAlphanum, Bool.or_right_comm c.isAlpha]

/-- No word goes on in front of a character of another kind. -/
theorem apart_cons {c : Char} (other : isWordChar c = false) (s : List Char) : ¬ Begins isWordChar (c :: s) := by
  rw [Parser.begins_cons, other]
  exact Bool.false_ne_true

/-! ## Blanks and comments -/

/-- The text begins neither with a blank nor with a comment. -/
def Solid (s : List Char) : Prop := ¬ Begins (fun c => isBlank c || c == '#') s

@[simp] theorem solid_nil : Solid [] := by simp [Solid]

@[simp] theorem solid_cons {c : Char} {s : List Char} :
    Solid (c :: s) ↔ isBlank c = false ∧ c ≠ '#' := by simp [Solid]

theorem skipTrivia_of_solid {s : List Char} (h : Solid s) : skipTrivia none s = s := by
  cases s with
  | nil => rfl
  | cons c s =>
    rw [solid_cons] at h
    simp [skipTrivia, h]

/-- What stands between a text and the place where skipping ends. Within a comment
the text to tell about is that from its number sign on: the sign, a clean body, and
the text in front of the reader. -/
def Skipped (s r : List Char) : Option (List Char) → Prop
  | none => Trivia s r
  | some start => ∀ body, start = '#' :: (body ++ s) → (∀ c ∈ body, c ≠ '\n' ∧ c ≠ '\r') → Trivia start r

theorem skipped (inside : Option (List Char)) (s : List Char) : Skipped s (skipTrivia inside s) inside := by
  -- within a comment the statement is about the text from its number sign on
  fun_induction skipTrivia inside s with
  | case1 inside =>
    cases inside with
    | none => exact Trivia.none []
    | some start =>
      intro body same clean
      subst same
      exact Trivia.comment clean (Or.inl rfl) (Trivia.none [])
  | case2 c rest blank ih => exact Trivia.blank (isBlank_iff.1 blank) ih
  | case3 rest _ ih => exact ih [] rfl (by simp)
  | case4 c rest _ _ => exact Trivia.none _
  | case5 start rest ih =>
    intro body same clean
    subst same
    exact Trivia.comment clean (Or.inr (Or.inl ⟨rest, rfl⟩)) (Trivia.blank (by decide) ih)
  | case6 start rest ih =>
    intro body same clean
    subst same
    have ends : LineEnd ('\r' :: '\n' :: rest) := Or.inr (Or.inr ⟨rest, rfl⟩)
    exact Trivia.comment clean ends (Trivia.blank (by decide) (Trivia.blank (by decide) ih))
  | case7 start rest _ => exact fun _ _ _ => Trivia.none start
  | case8 start c rest feed _ alone ih =>
    intro body same clean
    subst same
    apply ih (body ++ [c]) (by simp)
    intro d hd
    rcases List.mem_append.1 hd with hd | hd
    · exact clean d hd
    · rw [List.mem_singleton.1 hd]
      exact ⟨feed, alone⟩

theorem trivia_skipTrivia (s : List Char) : Trivia s (skipTrivia none s) := skipped none s

theorem skipTrivia_body {start body s : List Char} (clean : ∀ c ∈ body, c ≠ '\n' ∧ c ≠ '\r') :
    skipTrivia (some start) (body ++ s) = skipTrivia (some start) s := by
  induction body with
  | nil => rfl
  | cons c body ih =>
    obtain ⟨feed, alone⟩ := clean c (by simp)
    rw [List.cons_append, skipTrivia]
    · exact ih fun d hd => clean d (by simp [hd])
    · exact feed
    · exact fun rest h => absurd h alone
    · exact alone

/-- Blanks and comments make no difference to what is left after skipping. -/
theorem skipTrivia_of_trivia {s r : List Char} (h : Trivia s r) :
    skipTrivia none s = skipTrivia none r := by
  induction h with
  | none s => rfl
  | blank blank _ ih => rw [skipTrivia, if_pos (isBlank_iff.2 blank), ih]
  | @comment body s r clean ends _ ih =>
    have inside : skipTrivia none ('#' :: (body ++ s)) = skipTrivia (some ('#' :: (body ++ s))) s := by
      rw [← skipTrivia_body clean]
      rfl
    rw [inside, ← ih]
    rcases ends with rfl | ⟨t, rfl⟩ | ⟨t, rfl⟩ <;> rfl

/-- In front of anything else blanks and comments are skipped to their end. -/
theorem skipTrivia_eq {s r : List Char} (h : Trivia s r) (solid : Solid r) : skipTrivia none s = r := by
  rw [skipTrivia_of_trivia h, skipTrivia_of_solid solid]

theorem trivia_length {s r : List Char} (h : Trivia s r) : r.length ≤ s.length := by
  induction h with
  | none s => exact Nat.le_refl _
  | blank _ _ ih => rw [List.length_cons]; omega
  | comment _ _ _ ih => simp; omega

@[simp] theorem trivia_ok {s r : List Char} {u : Unit} : trivia s = .ok u r ↔ r = skipTrivia none s := by
  simp [trivia, eq_comm]

@[simp] theorem trivia_refuses {s : List Char} : ¬ trivia.Refuses s := by simp [trivia, Refuses]

/-! ## Names and keywords -/

theorem name_ok {s r : List Char} {n : String} : name s = .ok n r ↔ Name s n r := by
  rw [name, isNameStart_eq, isNameChar_eq]
  unfold Name IsName
  simp only [Parser.bind_ok, Parser.oneOf_ok, Parser.run_ok, Parser.pure_ok]
  refine ⟨?_, ?_⟩
  · intro given
    obtain ⟨c, t, ⟨rfl, first⟩, w, t', ⟨rfl, others, stop⟩, rfl, rfl⟩ := given
    exact ⟨⟨c, w, by simp, first, others⟩, by simp, stop⟩
  · intro given
    obtain ⟨⟨c, w, chars, first, others⟩, rfl, stop⟩ := given
    refine ⟨c, w ++ r, ⟨by simp [chars], first⟩, w, r, ⟨rfl, others, stop⟩, ?_, rfl⟩
    rw [← chars, String.ofList_toList]

@[simp] theorem name_refuses {s : List Char} : name.Refuses s ↔ ¬ Begins isWordStart s := by
  simp [name, isNameStart_eq]

@[simp] theorem keyword_ok {w : String} {s r : List Char} {u : Unit} :
    keyword w s = .ok u r ↔ Word w s r := by
  rw [keyword, isNameChar_eq]
  unfold Word
  simp only [Parser.bind_ok, Parser.word_ok, Parser.noneOf_ok]
  refine ⟨?_, ?_⟩
  · intro given
    obtain ⟨-, t, rfl, rfl, stop⟩ := given
    exact ⟨rfl, stop⟩
  · intro given
    obtain ⟨rfl, stop⟩ := given
    exact ⟨(), r, rfl, rfl, stop⟩

@[simp] theorem keyword_refuses {w : String} {s : List Char} :
    (keyword w).Refuses s ↔ ∀ r, ¬ Word w s r := by
  rw [keyword, isNameChar_eq]
  unfold Word
  simp only [Parser.bind_refuses, Parser.word_refuses, Parser.word_ok, Parser.noneOf_refuses]
  refine ⟨?_, ?_⟩
  · intro given r given'
    obtain ⟨e, stop⟩ := given'
    rcases given with h | ⟨-, t, rfl, h⟩
    · exact h ⟨r, e.symm⟩
    · exact stop (List.append_cancel_left e ▸ h)
  · intro h
    -- the word may be missing, or be the beginning of a longer name
    by_cases found : w.toList <+: s
    · obtain ⟨t, rfl⟩ := found
      exact Or.inr ⟨(), t, rfl, by_contra fun stop => h t ⟨rfl, stop⟩⟩
    · exact Or.inl found

theorem word_length {w : String} {s r : List Char} (h : Word w s r) :
    s.length = w.toList.length + r.length := by
  rw [h.1, List.length_append]

theorem name_length {n : String} {s r : List Char} (h : Name s n r) : r.length < s.length := by
  obtain ⟨⟨c, w, chars, -⟩, rfl, -⟩ := h
  rw [List.length_append, chars, List.length_cons]
  omega

/-! ## Strings -/

theorem escape_unescape (c : Char) : Escape c (unescape c) := by
  unfold unescape
  split_ifs with quote backslash feed tab
  · exact quote ▸ Escape.quote
  · exact backslash ▸ Escape.backslash
  · exact feed ▸ Escape.feed
  · exact tab ▸ Escape.tab
  · exact Escape.other (by simp [quote, backslash, feed, tab])

/-- What the reader puts for a backslash and a character is what the grammar says. -/
theorem escape_iff {c : Char} {w : List Char} : Escape c w ↔ unescape c = w := by
  refine ⟨?_, ?_⟩
  · intro stands
    cases stands with
    | other plain =>
      simp only [List.mem_cons, List.not_mem_nil, or_false, not_or] at plain
      obtain ⟨quote, backslash, feed, tab⟩ := plain
      simp only [unescape, if_neg quote, if_neg backslash, if_neg feed, if_neg tab]
    | quote => rfl
    | backslash => rfl
    | feed => rfl
    | tab => rfl
  · intro same
    exact same ▸ escape_unescape c

theorem stringBody?_eq_some {s b r : List Char} : stringBody? s = some (b, r) ↔ StringBody s b r := by
  refine ⟨?_, ?_⟩
  · intro h
    -- the cases of the reader are the rules of the grammar, and two where the text ends
    fun_induction stringBody? s generalizing b with
    | case1 => simp at h
    | case2 rest =>
      simp only [Option.some.injEq, Prod.mk.injEq] at h
      obtain ⟨rfl, rfl⟩ := h
      exact StringBody.close rest
    | case3 => simp at h
    | case4 c rest ih =>
      simp only [Option.map_eq_some_iff, Prod.mk.injEq, Prod.exists] at h
      obtain ⟨b', r', read, rfl, rfl⟩ := h
      exact StringBody.escape (escape_unescape c) (ih read)
    | case5 c rest quote single escaped ih =>
      simp only [Option.map_eq_some_iff, Prod.mk.injEq, Prod.exists] at h
      obtain ⟨b', r', read, rfl, rfl⟩ := h
      refine StringBody.plain quote ?_ (ih read)
      intro same
      subst same
      cases rest with
      | nil => exact single rfl rfl
      | cons d rest => exact escaped d rest rfl rfl
  · intro h
    induction h with
    | close r => rfl
    | escape stands _ ih => simp [stringBody?, ih, escape_iff.1 stands]
    | plain quote backslash _ ih =>
      rw [stringBody?, ih]
      · rfl
      · exact quote
      · exact fun h => absurd h backslash
      · exact fun _ _ h => absurd h backslash

theorem string_quote (s : List Char) : string ('"' :: s) = match stringBody? s with
    | some (body, after) => .ok (String.ofList body) after
    | none => .fail true [] [] := rfl

theorem string_other {s : List Char} (h : ∀ t, s ≠ '"' :: t) : string.Refuses s :=
  Parser.bind_refuses.2 (Or.inl (Parser.char_refuses.2 h))

theorem string_ok {s r : List Char} {v : String} :
    string s = .ok v r ↔ ∃ t b, s = '"' :: t ∧ StringBody t b r ∧ v = String.ofList b := by
  simp only [← stringBody?_eq_some]
  refine ⟨?_, ?_⟩
  · intro h
    obtain ⟨t, rfl⟩ : ∃ t, s = '"' :: t := by
      by_contra none
      exact Parser.not_ok_of_refuses (string_other fun t e => none ⟨t, e⟩) v r h
    rw [string_quote] at h
    cases body : stringBody? t with
    | none => simp [body] at h
    | some read =>
      simp only [body, Reply.ok.injEq] at h
      exact ⟨t, read.1, rfl, by rw [body, ← h.2], h.1.symm⟩
  · intro given
    obtain ⟨t, b, rfl, body, rfl⟩ := given
    rw [string_quote, body]

/-! ## Numbers -/

theorem digit_ne {c d : Char} (hc : c.isDigit = true) (hd : d.isDigit = false) : c ≠ d := by
  intro same
  subst same
  rw [hc] at hd
  cases hd

theorem begins_digits {ds : List Char} (h : Digits ds) (r : List Char) :
    Begins Char.isDigit (ds ++ r) := by
  obtain ⟨nonempty, all⟩ := h
  cases ds with
  | nil => exact absurd rfl nonempty
  | cons c t => exact ⟨c, t ++ r, rfl, all c (by simp)⟩

theorem digits_of_positive {ds : List Char} (h : Positive ds) : Digits ds := by
  obtain ⟨c, t, rfl, first, -, others⟩ := h
  exact ⟨by simp, by simpa using ⟨first, others⟩⟩

theorem digits_zero : Digits ['0'] := ⟨by simp, by simp⟩

theorem sign_ok {negative : Bool} {ds r : List Char} (digits : Digits ds) :
    (Parser.char '-').optional? (minus negative ++ (ds ++ r)) =
      .ok (if negative then some '-' else none) (ds ++ r) := by
  rw [Parser.optional_ok]
  cases negative with
  | true => exact Or.inl ⟨'-', by simp [minus], rfl⟩
  | false =>
    obtain ⟨c, u, e, digit⟩ := begins_digits digits r
    refine Or.inr ⟨?_, rfl, rfl⟩
    rw [Parser.char_refuses]
    intro t h
    rw [minus, if_neg (by simp), List.nil_append, e] at h
    exact digit_ne digit (by rfl) (List.cons.inj h).1

theorem double_ok {s r : List Char} {x : Binary64} :
    double s = .ok x r ↔ ∃ negative whole places, s = minus negative ++ (whole ++ '.' :: (places ++ r)) ∧
      Digits whole ∧ Digits places ∧ ¬ Begins Char.isDigit r ∧
      x = Numeral.nearest ⟨negative, whole, places, none⟩ := by
  unfold double
  simp only [Parser.bind_ok, Parser.char_ok, Parser.run1_ok, Parser.pure_ok]
  refine ⟨?_, ?_⟩
  · intro given
    obtain ⟨sign, t, signed, whole, t', ⟨whole_nonempty, rfl, whole_digits, -⟩, -, t'', ⟨rfl, -⟩, places,
      u, ⟨places_nonempty, rfl, places_digits, stop⟩, rfl, rfl⟩ := given
    refine ⟨sign.isSome, whole, places, ?_, ⟨whole_nonempty, whole_digits⟩,
      ⟨places_nonempty, places_digits⟩, stop, rfl⟩
    rw [Parser.optional_ok] at signed
    rcases signed with ⟨c, read, rfl⟩ | ⟨-, rfl, rfl⟩
    · simpa [minus] using (Parser.char_ok.1 read).1
    · simp [minus]
  · intro given
    obtain ⟨negative, whole, places, rfl, whole_digits, places_digits, stop, rfl⟩ := given
    refine ⟨_, _, sign_ok whole_digits, whole, '.' :: (places ++ r), ?_, '.', places ++ r, ⟨rfl, rfl⟩,
      places, r, ⟨places_digits.1, rfl, places_digits.2, stop⟩, ?_, rfl⟩
    · exact ⟨whole_digits.1, rfl, whole_digits.2, by simp⟩
    · cases negative <;> rfl

/-- A number without a point is no double. -/
theorem double_refuses (negative : Bool) {ds r : List Char} (digits : Digits ds)
    (stop : ¬ Begins (fun c => c.isDigit || c == '.') r) : double.Refuses (minus negative ++ (ds ++ r)) := by
  have no_digit : ¬ Begins Char.isDigit r := by
    intro given
    obtain ⟨c, t, rfl, digit⟩ := given
    exact stop (by simp [digit])
  have no_point : ∀ t, r ≠ '.' :: t := by
    intro t same
    subst same
    exact stop (by simp)
  unfold double
  simp only [Parser.bind_refuses, Parser.char_refuses, Parser.run1_ok]
  exact Or.inr ⟨_, _, sign_ok digits, Or.inr ⟨ds, r, ⟨digits.1, rfl, digits.2, no_digit⟩, Or.inl no_point⟩⟩

theorem double_refuses_plus (s : List Char) : double.Refuses ('+' :: s) := by
  unfold double
  simp only [Parser.bind_refuses, Parser.optional_ok, Parser.char_refuses, Parser.run1_refuses]
  exact Or.inr ⟨none, _, Or.inr ⟨by simp, rfl, rfl⟩, Or.inl (by simp)⟩

theorem naturalDigits_sound {sign : Parser Bool} {s ds r : List Char} {negative : Bool}
    (h : naturalDigits sign s = .ok (negative, ds) r) :
    sign s = .ok negative (ds ++ r) ∧ Positive ds ∧ ¬ Begins Char.isDigit r ∨
      s = '0' :: r ∧ negative = false ∧ ds = ['0'] := by
  unfold naturalDigits at h
  simp only [Parser.orElse_ok, Parser.bind_ok, Parser.oneOf_ok, Parser.run_ok, Parser.pure_ok,
    Parser.char_ok, Prod.mk.injEq] at h
  rcases h with ⟨negative, t, signed, c, t', ⟨rfl, first⟩, others, u, ⟨rfl, digits, stop⟩, ⟨rfl, rfl⟩, rfl⟩ |
    ⟨-, c, t, ⟨rfl, rfl⟩, ⟨rfl, rfl⟩, rfl⟩
  · rw [Bool.and_eq_true, bne_iff_ne] at first
    exact Or.inl ⟨signed, ⟨c, others, rfl, first.1, first.2, digits⟩, stop⟩
  · exact Or.inr ⟨rfl, rfl, rfl⟩

theorem naturalDigits_positive {sign : Parser Bool} {s ds r : List Char} {negative : Bool}
    (signed : sign s = .ok negative (ds ++ r)) (digits : Positive ds) (stop : ¬ Begins Char.isDigit r) :
    naturalDigits sign s = .ok (negative, ds) r := by
  obtain ⟨c, t, rfl, first, nonzero, others⟩ := digits
  unfold naturalDigits
  simp only [Parser.orElse_ok, Parser.bind_ok, Parser.oneOf_ok, Parser.run_ok, Parser.pure_ok]
  refine Or.inl ⟨negative, _, signed, c, t ++ r, ⟨rfl, ?_⟩, t, r, ⟨rfl, others, stop⟩, rfl, rfl⟩
  simp [first, nonzero]

theorem naturalDigits_zero {sign : Parser Bool} {negative : Bool} {r : List Char}
    (unsigned : sign ('0' :: r) = .ok negative ('0' :: r)) :
    naturalDigits sign ('0' :: r) = .ok (false, ['0']) r := by
  unfold naturalDigits
  simp only [Parser.orElse_ok, Parser.bind_ok, Parser.bind_refuses, Parser.char_ok, Parser.pure_ok,
    Parser.oneOf_refuses]
  exact Or.inr ⟨Or.inr ⟨_, _, unsigned, Or.inl (by simp)⟩, '0', r, ⟨rfl, rfl⟩, rfl, rfl⟩

theorem count_sound {s r : List Char} {n : Nat} (h : count s = .ok n r) : Count s n r := by
  unfold count at h
  simp only [Parser.mapPartial_ok, Option.ite_none_right_eq_some, Option.some.injEq, Prod.exists] at h
  obtain ⟨negative, ds, read, small, rfl⟩ := h
  rcases naturalDigits_sound read with ⟨signed, digits, -⟩ | ⟨rfl, -, rfl⟩
  · obtain ⟨-, rfl⟩ := Parser.pure_ok.1 signed
    exact Count.positive r digits small
  · exact Count.zero r

theorem count_complete {s r : List Char} {n : Nat} (h : Count s n r) (stop : ¬ Begins Char.isDigit r) :
    count s = .ok n r := by
  unfold count
  simp only [Parser.mapPartial_ok, Option.ite_none_right_eq_some, Option.some.injEq, Prod.exists]
  cases h with
  | zero => exact ⟨false, ['0'], naturalDigits_zero (Parser.pure_ok.2 ⟨rfl, rfl⟩), by decide, by decide⟩
  | positive r digits small =>
    exact ⟨false, _, naturalDigits_positive (Parser.pure_ok.2 ⟨rfl, rfl⟩) digits stop, small, rfl⟩

theorem count_length {s r : List Char} {n : Nat} (h : Count s n r) : r.length < s.length := by
  cases h with
  | zero => simp
  | positive r digits small =>
    have := List.length_pos_of_ne_nil (digits_of_positive digits).1
    rw [List.length_append]
    omega

def signOfInt : Parser Bool := do
  let sign ← Parser.optional? (Parser.oneOf fun c => c == '+' || c == '-')
  return sign == some '-'

theorem signOfInt_ok {s t : List Char} {negative : Bool} :
    signOfInt s = .ok negative t ↔ negative = true ∧ s = '-' :: t ∨ negative = false ∧ s = '+' :: t ∨
      negative = false ∧ s = t ∧ ¬ Begins (fun c => c == '+' || c == '-') s := by
  unfold signOfInt
  simp only [Parser.bind_ok, Parser.optional_ok, Parser.oneOf_ok, Parser.oneOf_refuses, Parser.pure_ok]
  refine ⟨?_, ?_⟩
  · intro given
    rcases given with ⟨sign, t, ⟨c, ⟨rfl, accepted⟩, rfl⟩ | ⟨stop, rfl, rfl⟩, rfl, rfl⟩
    · simp only [Bool.or_eq_true, beq_iff_eq] at accepted
      rcases accepted with rfl | rfl
      · exact Or.inr (Or.inl ⟨rfl, rfl⟩)
      · exact Or.inl ⟨rfl, rfl⟩
    · exact Or.inr (Or.inr ⟨rfl, rfl, stop⟩)
  · intro given
    rcases given with ⟨rfl, rfl⟩ | ⟨rfl, rfl⟩ | ⟨rfl, rfl, stop⟩
    · exact ⟨some '-', t, Or.inl ⟨'-', ⟨rfl, rfl⟩, rfl⟩, rfl, rfl⟩
    · exact ⟨some '+', t, Or.inl ⟨'+', ⟨rfl, rfl⟩, rfl⟩, rfl, rfl⟩
    · exact ⟨none, s, Or.inr ⟨stop, rfl, rfl⟩, rfl, rfl⟩

theorem signOfInt_digits {ds : List Char} (digits : Digits ds) (r : List Char) :
    signOfInt (ds ++ r) = .ok false (ds ++ r) := by
  rw [signOfInt_ok]
  obtain ⟨c, u, e, digit⟩ := begins_digits digits r
  refine Or.inr (Or.inr ⟨rfl, rfl, ?_⟩)
  rw [e, Parser.begins_cons, Bool.or_eq_true, beq_iff_eq, beq_iff_eq]
  intro given
  rcases given with rfl | rfl <;> cases digit

/-- The integer with a sign and digits, if it has 64 bits. -/
def signedInt? (negative : Bool) (ds : List Char) : Option Int64 :=
  let n : Int := if negative then -(digitsValue ds : Int) else digitsValue ds
  if -2 ^ 63 ≤ n && n < 2 ^ 63 then some (Int64.ofInt n) else none

theorem int_eq : int = Parser.mapPartial (fun p => signedInt? p.1 p.2) (naturalDigits signOfInt) := rfl

theorem signedInt?_eq_some {negative : Bool} {ds : List Char} {i : Int64} :
    signedInt? negative ds = some i ↔
      negative = true ∧ digitsValue ds ≤ 2 ^ 63 ∧ i = Int64.ofInt (-digitsValue ds) ∨
      negative = false ∧ digitsValue ds < 2 ^ 63 ∧ i = Int64.ofInt (digitsValue ds) := by
  cases negative with
  | true =>
    simp only [signedInt?, if_true, Option.ite_none_right_eq_some, Option.some.injEq, Bool.and_eq_true,
      decide_eq_true_eq, eq_comm (a := i), true_and, Bool.true_eq_false, false_and, or_false]
    apply and_congr_left
    intro _
    omega
  | false =>
    simp only [signedInt?, Bool.false_eq_true, if_false, Option.ite_none_right_eq_some, Option.some.injEq,
      Bool.and_eq_true, decide_eq_true_eq, eq_comm (a := i), true_and, false_and, false_or]
    apply and_congr_left
    intro _
    omega

theorem int_sound {s r : List Char} {i : Int64} (h : int s = .ok i r) : Literal s (.int i) r := by
  rw [int_eq, Parser.mapPartial_ok] at h
  obtain ⟨⟨negative, ds⟩, read, value⟩ := h
  rcases naturalDigits_sound read with ⟨signed, digits, -⟩ | ⟨rfl, rfl, rfl⟩
  · rw [signOfInt_ok] at signed
    rcases signedInt?_eq_some.1 value with ⟨rfl, small, rfl⟩ | ⟨rfl, small, rfl⟩
    · obtain rfl : s = '-' :: (ds ++ r) := by simpa using signed
      exact Literal.negative r digits small
    · rcases signed with ⟨h, -⟩ | ⟨-, rfl⟩ | ⟨-, rfl, -⟩
      · cases h
      · exact Literal.positive ['+'] r (Or.inr rfl) digits small
      · exact Literal.positive [] r (Or.inl rfl) digits small
  · obtain rfl : (0 : Int64) = i := by simpa [signedInt?, digitsValue] using value
    exact Literal.zero r

theorem int_complete {s r : List Char} {i : Int64} (h : Literal s (.int i) r)
    (stop : ¬ Begins Char.isDigit r) : int s = .ok i r := by
  rw [int_eq, Parser.mapPartial_ok]
  cases h with
  | zero r => exact ⟨(false, ['0']), naturalDigits_zero (signOfInt_digits digits_zero r), by simp [signedInt?, digitsValue]⟩
  | @positive ds plus r sign digits small =>
    refine ⟨(false, ds), naturalDigits_positive ?_ digits stop, signedInt?_eq_some.2 (Or.inr ⟨rfl, small, rfl⟩)⟩
    rcases sign with rfl | rfl
    · exact signOfInt_digits (digits_of_positive digits) r
    · exact signOfInt_ok.2 (Or.inr (Or.inl ⟨rfl, rfl⟩))
  | negative r digits small =>
    refine ⟨_, naturalDigits_positive ?_ digits stop, signedInt?_eq_some.2 (Or.inl ⟨rfl, small, rfl⟩)⟩
    exact signOfInt_ok.2 (Or.inl ⟨rfl, rfl⟩)

/-! ## Literals -/

/-- No number goes on here. -/
def NumberEnds (s : List Char) : Prop := ¬ Begins (fun c => c.isDigit || c == '.') s

@[simp] theorem numberEnds_nil : NumberEnds [] := by simp [NumberEnds]

@[simp] theorem numberEnds_cons {c : Char} {s : List Char} :
    NumberEnds (c :: s) ↔ c.isDigit = false ∧ c ≠ '.' := by simp [NumberEnds]

theorem no_digit_of_numberEnds {s : List Char} (h : NumberEnds s) : ¬ Begins Char.isDigit s := by
  intro given
  obtain ⟨c, t, rfl, digit⟩ := given
  exact h ⟨c, t, rfl, by simp [digit]⟩

/-- A character with which a literal may begin. -/
def isLiteralStart (c : Char) : Bool :=
  c == '"' || c == 't' || c == 'f' || c == '+' || c == '-' || c.isDigit

theorem begins_of_digits {accepts : Char → Bool} (h : ∀ c, c.isDigit = true → accepts c = true)
    {ds : List Char} (digits : Digits ds) (r : List Char) : Begins accepts (ds ++ r) := by
  obtain ⟨c, t, e, digit⟩ := begins_digits digits r
  exact ⟨c, t, e, h c digit⟩

theorem literal_begins {s r : List Char} {v : Value} (h : Literal s v r) : Begins isLiteralStart s := by
  have digit : ∀ c, c.isDigit = true → isLiteralStart c = true := by simp +contextual [isLiteralStart]
  cases h with
  | string body => exact Parser.begins_cons.2 rfl
  | true word => rw [word.1]; exact Parser.begins_cons.2 rfl
  | false word => rw [word.1]; exact Parser.begins_cons.2 rfl
  | @float whole places negative r whole_digits places_digits =>
    cases negative with
    | true => exact Parser.begins_cons.2 rfl
    | false =>
      have first := begins_of_digits digit whole_digits ('.' :: (places ++ r))
      exact first
  | zero => exact Parser.begins_cons.2 rfl
  | @positive ds plus r sign digits small =>
    rcases sign with rfl | rfl
    · exact begins_of_digits digit (digits_of_positive digits) r
    · exact Parser.begins_cons.2 rfl
  | negative r digits small => exact Parser.begins_cons.2 rfl

theorem solid_of_literalStart {s : List Char} (h : Begins isLiteralStart s) : Solid s := by
  obtain ⟨c, t, rfl, start⟩ := h
  rw [solid_cons]
  refine ⟨isBlank_eq_false rfl start, ?_⟩
  intro same
  subst same
  cases start

theorem literal_solid {s r : List Char} {v : Value} (h : Literal s v r) : Solid s :=
  solid_of_literalStart (literal_begins h)

theorem count_solid {s r : List Char} {n : Nat} (h : Count s n r) : Solid s := by
  apply solid_of_literalStart
  cases h with
  | zero => exact Parser.begins_cons.2 rfl
  | positive r digits small =>
    exact begins_of_digits (by simp +contextual [isLiteralStart]) (digits_of_positive digits) r

theorem number_begins (negative : Bool) {ds : List Char} (digits : Digits ds) (r : List Char) :
    Begins (fun c => c == '+' || c == '-' || c.isDigit) (minus negative ++ (ds ++ r)) := by
  cases negative with
  | true => exact Parser.begins_cons.2 rfl
  | false => exact begins_of_digits (by simp +contextual) digits r

theorem truth_refuses {w : String} {b : Bool} {s : List Char} :
    Refuses (do keyword w; return Value.bool b) s ↔ (keyword w).Refuses s := by
  simp

/-- No string and no truth value begins like a number. -/
theorem words_refuse {s : List Char} (h : Begins (fun c => c == '+' || c == '-' || c.isDigit) s) :
    string.Refuses s ∧ (keyword "true").Refuses s ∧ (keyword "false").Refuses s := by
  -- neither a quote nor the first letter of a truth value begins a number
  obtain ⟨c, t, rfl, start⟩ := h
  refine ⟨string_other ?_, keyword_refuses.2 ?_, keyword_refuses.2 ?_⟩
  · intro u h
    rw [(List.cons.inj h).1] at start
    cases start
  · intro u given
    obtain ⟨h, -⟩ := given
    rw [(List.cons.inj h).1] at start
    cases start
  · intro u given
    obtain ⟨h, -⟩ := given
    rw [(List.cons.inj h).1] at start
    cases start

theorem value_sound {s r : List Char} {v : Value} (h : value s = .ok v r) :
    ∃ t, Trivia s t ∧ Literal t v r := by
  unfold value at h
  simp only [Parser.bind_ok, trivia_ok, Parser.wanting_ok, Parser.orElse_ok, Parser.map_ok, string_ok,
    keyword_ok, Parser.pure_ok, double_ok] at h
  obtain ⟨-, t, rfl, h⟩ := h
  refine ⟨_, trivia_skipTrivia s, ?_⟩
  rcases h with ⟨-, ⟨t, b, e, body, rfl⟩, rfl⟩ | ⟨-, ⟨-, t, word, rfl, rfl⟩ | ⟨-, ⟨-, t, word, rfl, rfl⟩ |
    ⟨-, ⟨-, ⟨negative, whole, places, e, whole_digits, places_digits, -, rfl⟩, rfl⟩ | ⟨-, i, read, rfl⟩⟩⟩⟩
  · rw [e]; exact Literal.string body
  · exact Literal.true word
  · exact Literal.false word
  · rw [e]; exact Literal.float negative r whole_digits places_digits
  · exact int_sound read

theorem value_complete {s t r : List Char} {v : Value} (gap : Trivia s t) (literal : Literal t v r)
    (ends : NumberEnds r) : value s = .ok v r := by
  unfold value
  simp only [Parser.bind_ok, trivia_ok, Parser.wanting_ok, Parser.orElse_ok, Parser.map_ok, Parser.map_refuses]
  refine ⟨(), t, (skipTrivia_eq gap (literal_solid literal)).symm, ?_⟩
  -- each alternative in front of the right one is refused at the first character, but for a point
  have no_digit := no_digit_of_numberEnds ends
  cases literal with
  | string body => exact Or.inl ⟨_, string_ok.2 ⟨_, _, rfl, body, rfl⟩, rfl⟩
  | true word =>
    refine Or.inr ⟨string_other ?_, Or.inl ?_⟩
    · intro u same
      subst same
      exact absurd word.1 (by simp)
    · exact ⟨(), r, keyword_ok.2 word, rfl⟩
  | false word =>
    refine Or.inr ⟨string_other ?_, Or.inr ⟨?_, Or.inl ?_⟩⟩
    · intro u same
      subst same
      exact absurd word.1 (by simp)
    · refine Parser.bind_refuses.2 (Or.inl (keyword_refuses.2 ?_))
      intro u given
      obtain ⟨e, -⟩ := given
      rw [word.1] at e
      simp at e
    · exact ⟨(), r, keyword_ok.2 word, rfl⟩
  | @float whole places negative r whole_digits places_digits =>
    obtain ⟨quote, yes, no⟩ := words_refuse (number_begins negative whole_digits ('.' :: (places ++ r)))
    refine Or.inr ⟨quote, Or.inr ⟨truth_refuses.2 yes, Or.inr ⟨truth_refuses.2 no, Or.inl ⟨_, ?_, rfl⟩⟩⟩⟩
    exact double_ok.2 ⟨negative, whole, places, rfl, whole_digits, places_digits, no_digit, rfl⟩
  | zero =>
    obtain ⟨quote, yes, no⟩ := words_refuse (number_begins false digits_zero r)
    refine Or.inr ⟨quote, Or.inr ⟨truth_refuses.2 yes, Or.inr ⟨truth_refuses.2 no, Or.inr ⟨?_, _, ?_, rfl⟩⟩⟩⟩
    · exact double_refuses false digits_zero ends
    · exact int_complete (Literal.zero r) no_digit
  | @positive ds plus r sign digits small =>
    have whole := digits_of_positive digits
    have refused : Begins (fun c => c == '+' || c == '-' || c.isDigit) (plus ++ (ds ++ r)) ∧
        double.Refuses (plus ++ (ds ++ r)) := by
      rcases sign with rfl | rfl
      · exact ⟨number_begins false whole r, double_refuses false whole ends⟩
      · exact ⟨Parser.begins_cons.2 rfl, double_refuses_plus (ds ++ r)⟩
    obtain ⟨quote, yes, no⟩ := words_refuse refused.1
    refine Or.inr ⟨quote, Or.inr ⟨truth_refuses.2 yes, Or.inr ⟨truth_refuses.2 no, Or.inr ⟨?_, _, ?_, rfl⟩⟩⟩⟩
    · exact refused.2
    · exact int_complete (Literal.positive plus r sign digits small) no_digit
  | @negative ds r digits small =>
    have whole := digits_of_positive digits
    obtain ⟨quote, yes, no⟩ := words_refuse (number_begins true whole r)
    refine Or.inr ⟨quote, Or.inr ⟨truth_refuses.2 yes, Or.inr ⟨truth_refuses.2 no, Or.inr ⟨?_, _, ?_, rfl⟩⟩⟩⟩
    · exact double_refuses true whole ends
    · exact int_complete (Literal.negative r digits small) no_digit

theorem stringBody_length {s b r : List Char} (h : StringBody s b r) : r.length < s.length := by
  induction h with
  | close r => simp
  | escape c _ ih => simp only [List.length_cons]; omega
  | plain _ _ _ ih => rw [List.length_cons]; omega

theorem literal_length {s r : List Char} {v : Value} (h : Literal s v r) : r.length < s.length := by
  cases h with
  | string body =>
    rw [List.length_cons]
    exact Nat.lt_succ_of_lt (stringBody_length body)
  | true word => rw [word_length word, show "true".toList.length = 4 from rfl]; omega
  | false word => rw [word_length word, show "false".toList.length = 5 from rfl]; omega
  | float negative r whole_digits places_digits => simp; omega
  | zero => simp
  | positive plus r sign digits small =>
    have := List.length_pos_of_ne_nil (digits_of_positive digits).1
    simp only [List.length_append]
    omega
  | negative r digits small =>
    simp only [List.length_cons, List.length_append]
    omega

/-! ## Operators -/

theorem operator_sound {s r : List Char} {op : Comparison} (h : operator s = .ok op r) :
    Operator s op r := by
  unfold operator at h
  simp only [Parser.orElse_ok, Parser.bind_ok, Parser.word_ok, Parser.pure_ok] at h
  unfold Operator
  rcases h with ⟨-, t, e, rfl, rfl⟩ | ⟨-, ⟨-, t, e, rfl, rfl⟩ | ⟨-, ⟨-, t, e, rfl, rfl⟩ |
    ⟨-, ⟨-, t, e, rfl, rfl⟩ | ⟨-, ⟨-, t, e, rfl, rfl⟩ | ⟨-, -, t, e, rfl, rfl⟩⟩⟩⟩⟩ <;> exact e

theorem symbol_refuses {w s : List Char} {op : Comparison} (h : ¬ w <+: s) :
    Refuses (do Parser.word w; return op) s :=
  Parser.bind_refuses.2 (Or.inl (Parser.word_refuses.2 h))

theorem operator_complete {s r : List Char} {op : Comparison} (h : Operator s op r)
    (stop : ∀ t, r ≠ '=' :: t) : operator s = .ok op r := by
  have longer (c : Char) : ¬ [c, '='] <+: c :: r := by
    intro given
    obtain ⟨t, e⟩ := given
    exact stop t (List.cons.inj e).2.symm
  rw [show s = _ from h]
  cases op with
  | equal => rfl
  | different => rfl
  | atLeast => rfl
  | atMost => rfl
  | greater => exact Parser.orElse_ok.2 (Or.inr ⟨symbol_refuses (longer '>'), rfl⟩)
  | less =>
    refine Parser.orElse_ok.2 (Or.inr ⟨symbol_refuses ?_, Parser.orElse_ok.2 (Or.inr ⟨symbol_refuses ?_,
      Parser.orElse_ok.2 (Or.inr ⟨symbol_refuses (longer '<'), rfl⟩)⟩)⟩)
    · intro given
      obtain ⟨t, e⟩ := given
      cases e
    · intro given
      obtain ⟨t, e⟩ := given
      cases e

theorem solid_of_operator {s r : List Char} {op : Comparison} (h : Operator s op r) : Solid s := by
  rw [show s = _ from h]
  cases op <;> exact solid_cons.2 ⟨rfl, by decide⟩

/-- An operator behind blanks and comments. -/
theorem operator_behind {s t r : List Char} {op : Comparison} (gap : Trivia s t) (h : Operator t op r)
    (stop : ∀ u, r ≠ '=' :: u) : (do trivia; operator : Parser Comparison) s = .ok op r :=
  Parser.bind_ok.2 ⟨(), t, trivia_ok.2 (skipTrivia_eq gap (solid_of_operator h)).symm,
    operator_complete h stop⟩

@[simp] theorem operator_refuses {s : List Char} :
    operator.Refuses s ↔ ∀ op r, ¬ Operator s op r := by
  unfold operator Operator
  simp only [Parser.orElse_refuses, Parser.bind_refuses, Parser.word_refuses, Parser.pure_refuses,
    and_false, exists_false, or_false]
  refine ⟨?_, ?_⟩
  · intro given op r same
    obtain ⟨atLeast, greater, atMost, less, equal, different⟩ := given
    subst same
    cases op with
    | equal => exact equal ⟨r, rfl⟩
    | different => exact different ⟨r, rfl⟩
    | greater => exact greater ⟨r, rfl⟩
    | atLeast => exact atLeast ⟨r, rfl⟩
    | less => exact less ⟨r, rfl⟩
    | atMost => exact atMost ⟨r, rfl⟩
  · intro h
    have absent (op : Comparison) : ¬ op.symbol.toList <+: s := by
      intro found
      obtain ⟨r, e⟩ := found
      exact h op r e.symm
    exact ⟨absent .atLeast, absent .greater, absent .atMost, absent .less, absent .equal,
      absent .different⟩

end RuleWatch.RuleText
