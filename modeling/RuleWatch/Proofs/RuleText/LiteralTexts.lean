import RuleWatch.Proofs.Number.Numerals
import RuleWatch.Proofs.RuleText.Tokens
/-!
  The texts of values as literals. Every text of a value is read as a literal or
  refused; it comes back as the same value if and only if the value is readable.
  Unreadable are the strings with a character that is escaped in a way that
  literals do not know, and the doubles that are written without a point.
-/

namespace RuleWatch

/-- Whether a character comes back from a quoted text: it stands there plainly, or
behind a backslash as one of the four that literals know. -/
def Text.isReadableChar (c : Char) : Bool :=
  c == '"' || c == '\\' || c == '\n' || c == '\t' || quoteChar c == [c]

/-- Whether a value comes back from its text. -/
def Value.Readable : Value → Prop
  | .float x => x.isFinite = true ∧ x.isWhole = false
  | .string s => ∀ c ∈ s.toList, Text.isReadableChar c = true
  | _ => True

namespace RuleText

open Grammar
open RuleWatch.Parser (Begins Refuses)
open RuleWatch.Text (quoteChar isReadableChar)

/-! ## Strings -/

/-- What comes back for a character of a quoted text: of an escape that literals do
not know, the escape itself. -/
def returned (c : Char) : List Char := if isReadableChar c then [c] else quoteChar c

theorem stringBody_append {w s b r : List Char} (clean : ∀ c ∈ w, c ≠ '"' ∧ c ≠ '\\')
    (rest : StringBody s b r) : StringBody (w ++ s) (w ++ b) r := by
  induction w with
  | nil => exact rest
  | cons c w ih =>
    obtain ⟨quote, backslash⟩ := clean c (by simp)
    exact StringBody.plain quote backslash (ih fun d hd => clean d (by simp [hd]))

theorem digitChar_clean : ∀ k < 16, Nat.digitChar k ≠ '"' ∧ Nat.digitChar k ≠ '\\' := by decide

/-- The number of a character, as it stands behind a backslash. -/
theorem escaped_number (n : Nat) {s b r : List Char} (rest : StringBody s b r) :
    StringBody ("\\u\x7b".toList ++ Nat.toDigits 16 n ++ "\x7d".toList ++ s)
      ("\\u\x7b".toList ++ Nat.toDigits 16 n ++ "\x7d".toList ++ b) r := by
  have clean : ∀ c ∈ '\x7b' :: (Nat.toDigits 16 n ++ ['\x7d']), c ≠ '"' ∧ c ≠ '\\' := by
    intro c hc
    simp only [List.mem_cons, List.mem_append, List.not_mem_nil, or_false] at hc
    rcases hc with rfl | digit | rfl
    · decide
    · obtain ⟨k, small, rfl⟩ := exists_digitChar (by decide) digit
      exact digitChar_clean k small
    · decide
  simpa using StringBody.escape (.other (by decide)) (stringBody_append clean rest)

/-- A quoted character is read as what comes back for it. -/
theorem quoteChar_read (c : Char) {s b r : List Char} (rest : StringBody s b r) :
    StringBody (quoteChar c ++ s) (returned c ++ b) r := by
  by_cases readable : isReadableChar c = true
  · rw [returned, if_pos readable]
    simp only [isReadableChar, Bool.or_eq_true, beq_iff_eq] at readable
    -- four characters are escaped in a way that literals know
    rcases readable with (((rfl | rfl) | rfl) | rfl) | plain
    · exact StringBody.escape .quote rest
    · exact StringBody.escape .backslash rest
    · exact StringBody.escape .feed rest
    · exact StringBody.escape .tab rest
    · have clean : c ≠ '"' ∧ c ≠ '\\' := by
        constructor <;> intro e <;> subst e <;> cases plain
      rw [plain]
      exact StringBody.plain clean.1 clean.2 rest
  · rw [returned, if_neg readable]
    simp only [isReadableChar, Bool.or_eq_true, beq_iff_eq, not_or] at readable
    -- left are the escapes that literals do not know
    obtain ⟨⟨⟨⟨quote, backslash⟩, feed⟩, tab⟩, plain⟩ := readable
    unfold quoteChar at plain ⊢
    rw [if_neg quote, if_neg backslash, if_neg feed] at plain ⊢
    by_cases ret : c = '\r'
    · rw [if_pos ret]
      exact StringBody.escape (.other (by decide)) rest
    · rw [if_neg ret, if_neg tab] at plain ⊢
      by_cases null : c = '\x00'
      · rw [if_pos null]
        exact StringBody.escape (.other (by decide)) rest
      · rw [if_neg null] at plain ⊢
        by_cases printable : Text.isPlain c = true
        · exact absurd (if_pos printable) plain
        · rw [if_neg printable]
          exact escaped_number c.toNat rest

theorem quoted_read (w : List Char) {s b r : List Char} (rest : StringBody s b r) :
    StringBody (w.flatMap quoteChar ++ s) (w.flatMap returned ++ b) r := by
  induction w with
  | nil => exact rest
  | cons c w ih =>
    rw [List.flatMap_cons, List.flatMap_cons, List.append_assoc, List.append_assoc]
    exact quoteChar_read c ih

/-- An escape that literals do not know has two characters at least. -/
theorem one_lt_length_returned {c : Char} (h : ¬ isReadableChar c = true) : 1 < (returned c).length := by
  rw [returned, if_neg h]
  simp only [isReadableChar, Bool.or_eq_true, beq_iff_eq, not_or] at h
  unfold quoteChar at h ⊢
  split_ifs at h ⊢ <;> simp_all

theorem length_le_returned (w : List Char) : w.length ≤ (w.flatMap returned).length := by
  induction w with
  | nil => exact Nat.le_refl _
  | cons c w ih =>
    have some : 1 ≤ (returned c).length := by
      by_cases readable : isReadableChar c = true
      · simp [returned, readable]
      · exact Nat.le_of_lt (one_lt_length_returned readable)
    rw [List.flatMap_cons, List.length_append, List.length_cons]
    omega

theorem flatMap_returned (w : List Char) :
    w.flatMap returned = w ↔ ∀ c ∈ w, isReadableChar c = true := by
  induction w with
  | nil => simp
  | cons c w ih =>
    rw [List.flatMap_cons, List.forall_mem_cons, ← ih]
    refine ⟨?_, ?_⟩
    · intro same
      -- a character that does not come back makes the text longer
      by_cases readable : isReadableChar c = true
      · rw [returned, if_pos readable] at same
        exact ⟨readable, List.cons_inj_right c |>.1 same⟩
      · have := one_lt_length_returned readable
        have := length_le_returned w
        have := congrArg List.length same
        rw [List.length_append, List.length_cons] at this
        omega
    · intro ⟨readable, same⟩
      rw [returned, if_pos readable, same]
      rfl

/-! ## Integers -/

theorem positive_toDigits {n : Nat} (h : 0 < n) : Positive (Nat.toDigits 10 n) := by
  obtain ⟨c, t, digits, nonzero⟩ := toDigits_eq_cons h
  have all : ∀ d ∈ c :: t, d.isDigit = true := by
    intro d hd
    rw [← digits] at hd
    exact isDigit_toDigits hd
  rw [digits]
  exact ⟨c, t, rfl, all c (by simp), nonzero, fun d hd => all d (by simp [hd])⟩

theorem signOfInt_minus (negative : Bool) {ds : List Char} (digits : Digits ds) (r : List Char) :
    signOfInt (minus negative ++ (ds ++ r)) = .ok negative (ds ++ r) := by
  cases negative with
  | true => exact signOfInt_ok.2 (Or.inl ⟨rfl, rfl⟩)
  | false => exact signOfInt_digits digits r

/-- What is neither a double nor an integer is refused, if it begins like a number. -/
theorem value_refuses {s : List Char} (begins : Begins (fun c => c == '+' || c == '-' || c.isDigit) s)
    (no_double : double.Refuses s) (no_int : int.Refuses s) : value.Refuses s := by
  obtain ⟨no_string, no_true, no_false⟩ := words_refuse begins
  have solid : Solid s := by
    apply solid_of_literalStart
    obtain ⟨c, t, e, start⟩ := begins
    refine ⟨c, t, e, ?_⟩
    simp only [Bool.or_eq_true] at start
    rcases start with (start | start) | start <;> simp [isLiteralStart, start]
  unfold value
  simp only [Parser.bind_refuses, trivia_ok, trivia_refuses, Parser.wanting_refuses, Parser.orElse_refuses,
    Parser.map_refuses, false_or]
  refine ⟨(), s, (skipTrivia_of_solid solid).symm, no_string, ?_⟩
  exact ⟨Or.inl no_true, Or.inl no_false, no_double, no_int⟩

/-- Digits without a point are an integer, or refused: the negative zero, and what
takes more than 64 bits. -/
theorem number_read (negative : Bool) {ds r : List Char} (digits : ds = ['0'] ∨ Positive ds)
    (ends : NumberEnds r) :
    (∃ i, Literal (minus negative ++ (ds ++ r)) (.int i) r) ∨ value.Refuses (minus negative ++ (ds ++ r)) := by
  have whole : Digits ds := by
    rcases digits with rfl | positive
    · exact digits_zero
    · exact digits_of_positive positive
  suffices h : (∃ i, Literal (minus negative ++ (ds ++ r)) (.int i) r) ∨
      int.Refuses (minus negative ++ (ds ++ r)) from
    h.imp_right (value_refuses (number_begins negative whole r) (double_refuses negative whole ends))
  -- only a zero may begin with a zero, and then it has no sign
  rcases digits with rfl | positive
  · cases negative with
    | true =>
      apply Or.inr
      rw [int_eq, Parser.mapPartial_refuses]
      apply Or.inl
      unfold naturalDigits
      rw [Parser.orElse_refuses, Parser.bind_refuses, Parser.bind_refuses]
      refine ⟨Or.inr ⟨true, '0' :: r, signOfInt_minus true digits_zero r, ?_⟩, Or.inl ?_⟩
      · simp
      · simp [minus]
    | false => exact Or.inl ⟨0, Literal.zero r⟩
  · cases read : signedInt? negative ds with
    | none =>
      apply Or.inr
      rw [int_eq, Parser.mapPartial_refuses]
      exact Or.inr ⟨(negative, ds), r, naturalDigits_positive (signOfInt_minus negative whole r) positive
        (no_digit_of_numberEnds ends), read⟩
    | some i =>
      apply Or.inl
      rcases signedInt?_eq_some.1 read with ⟨rfl, small, -⟩ | ⟨rfl, small, -⟩
      · exact ⟨_, Literal.negative r positive small⟩
      · exact ⟨_, Literal.positive [] r (Or.inl rfl) positive small⟩

theorem int_read (i : Int64) (r : List Char) :
    Literal ((Value.int i).text.toList ++ r) (.int i) r := by
  have least : -2 ^ 63 ≤ i.toInt := Int64.le_toInt i
  have most : i.toInt < 2 ^ 63 := Int64.toInt_lt i
  have same : Int64.ofInt i.toInt = i := Int64.ofInt_toInt i
  have text : (Value.int i).text.toList = minus (i.toInt < 0) ++ Nat.toDigits 10 i.toInt.natAbs := by
    simp [Value.text, Numeral.ofInt, Numeral.chars, Numeral.exponentChars, minus]
  rw [text, List.append_assoc]
  rcases Int.lt_trichotomy i.toInt 0 with below | zero | above
  · have positive := positive_toDigits (n := i.toInt.natAbs) (by omega)
    have value : (-(digitsValue (Nat.toDigits 10 i.toInt.natAbs) : Int)) = i.toInt := by
      rw [digitsValue_toDigits]
      omega
    have literal := Literal.negative r positive (by rw [digitsValue_toDigits]; omega)
    rw [value, same] at literal
    rw [decide_eq_true below]
    exact literal
  · rw [zero, ← same, zero]
    exact Literal.zero r
  · have positive := positive_toDigits (n := i.toInt.natAbs) (by omega)
    have value : (digitsValue (Nat.toDigits 10 i.toInt.natAbs) : Int) = i.toInt := by
      rw [digitsValue_toDigits]
      omega
    have literal := Literal.positive [] r (Or.inl rfl) positive (by rw [digitsValue_toDigits]; omega)
    rw [value, same] at literal
    rw [decide_eq_false (by omega)]
    exact literal

/-! ## Doubles -/

theorem isWhole_eq_false {x : Binary64} : x.isWhole = false ↔ Binary64.units x.magnitude % 2 ^ 1074 ≠ 0 := by
  rw [Binary64.isWhole, decide_eq_false_iff_not]

theorem floatText_of_finite {x : Binary64} (finite : x.isFinite = true) :
    (Value.floatText x).toList =
      ((Decimal.shortest .up x.magnitude).inPlace false x.isNegative).chars := by
  have number : x.isNaN = false := by
    have less : x.magnitude < Binary64.infinity := of_decide_eq_true finite
    exact decide_eq_false (by omega)
  rw [Value.floatText, number, finite]
  exact String.toList_ofList

theorem fraction_read {x : Binary64} (finite : x.isFinite = true) (fraction : x.isWhole = false)
    (r : List Char) : Literal ((Value.floatText x).toList ++ r) (.float x) r := by
  have less : x.magnitude < Binary64.infinity := of_decide_eq_true finite
  have pointed : (Decimal.shortest .up x.magnitude).exponent < 0 :=
    Decimal.shortest_exponent_neg .up less (isWhole_eq_false.1 fraction)
  have value := Decimal.nearest_inPlace false x.isNegative pointed
  rw [Decimal.shortest_nearest .up less, Binary64.ofMagnitude_magnitude] at value
  rw [floatText_of_finite finite]
  obtain ⟨whole, places, written, digits, length, some⟩ :=
    Decimal.inPlace_of_neg false x.isNegative pointed
  have all : ∀ c ∈ whole ++ places, c.isDigit = true := by
    intro c hc
    rw [digits] at hc
    exact isDigit_paddedDigits hc
  have whole_digits : Digits whole :=
    ⟨List.ne_nil_of_length_pos some, fun c hc => all c (List.mem_append_left _ hc)⟩
  have places_digits : Digits places :=
    ⟨List.ne_nil_of_length_pos (by omega), fun c hc => all c (List.mem_append_right _ hc)⟩
  have literal := Literal.float x.isNegative r whole_digits places_digits
  rw [← written, value] at literal
  rw [written]
  have point : places.isEmpty = false := List.isEmpty_eq_false_iff.2 places_digits.1
  simpa [Numeral.chars, Numeral.exponentChars, minus, point] using literal

theorem positive_append_zeros {ds : List Char} (h : Positive ds) (k : Nat) :
    Positive (ds ++ List.replicate k '0') := by
  obtain ⟨c, t, rfl, first, nonzero, others⟩ := h
  refine ⟨c, t ++ List.replicate k '0', rfl, first, nonzero, ?_⟩
  intro d hd
  rcases List.mem_append.1 hd with front | zero
  · exact others d front
  · exact isDigit_zeros zero

/-- The digits of a whole number are those of an integer. -/
theorem whole_digits {m : Nat} (finite : m < Binary64.infinity)
    (whole : 0 ≤ (Decimal.shortest .up m).exponent) :
    ∃ ds, (ds = ['0'] ∨ Positive ds) ∧
      ∀ negative, ((Decimal.shortest .up m).inPlace false negative).chars = minus negative ++ ds := by
  refine ⟨_, ?_, fun negative => by
    rw [Decimal.inPlace_of_nonneg negative whole]
    simp only [Numeral.chars, Numeral.exponentChars, List.isEmpty_nil, if_true, List.append_nil]
    rfl⟩
  -- without digits the number is zero, and its shortest decimal has no zeros either
  by_cases zero : (Decimal.shortest .up m).digits = 0
  · have none : m = 0 := by
      rw [← Decimal.shortest_nearest .up finite, Decimal.nearest, if_pos zero]
    subst none
    exact Or.inl rfl
  · exact Or.inr (positive_append_zeros (positive_toDigits (Nat.pos_of_ne_zero zero)) _)

/-- A double that is no fraction is read as an integer, or refused. -/
theorem nonfraction_read {x : Binary64} (h : ¬ (x.isFinite = true ∧ x.isWhole = false)) {r : List Char}
    (ends : NumberEnds r) :
    (∃ i, Literal ((Value.floatText x).toList ++ r) (.int i) r) ∨
      value.Refuses ((Value.floatText x).toList ++ r) := by
  by_cases finite : x.isFinite = true
  · have less : x.magnitude < Binary64.infinity := of_decide_eq_true finite
    have whole : 0 ≤ (Decimal.shortest .up x.magnitude).exponent := by
      apply Decimal.shortest_exponent_nonneg .up less
      by_contra fraction
      exact h ⟨finite, isWhole_eq_false.2 fraction⟩
    obtain ⟨ds, digits, written⟩ := whole_digits less whole
    rw [floatText_of_finite finite, written, List.append_assoc]
    exact number_read x.isNegative digits ends
  · apply Or.inr
    unfold Value.floatText
    rw [if_neg finite]
    split_ifs
    · exact ⟨_, _, rfl⟩
    · exact ⟨_, _, rfl⟩
    · exact ⟨_, _, rfl⟩

/-! ## All literals -/

theorem value_gap {s t : List Char} (gap : Trivia s t) : value s = value t := by
  show (trivia >>= _) s = (trivia >>= _) t
  rw [Parser.bind_apply, Parser.bind_apply, trivia, trivia, skipTrivia_of_trivia gap]

/-- The text of a value is read as a literal, equal to the value if and only if
that is readable; or it is refused, and the value is not readable. -/
theorem text_read (v : Value) {r : List Char} (ends : NumberEnds r) (apart : ¬ Begins isWordChar r) :
    (∃ w, Literal (v.text.toList ++ r) w r ∧ (w.equals v = true ↔ v.Readable)) ∨
      value.Refuses (v.text.toList ++ r) ∧ ¬ v.Readable := by
  cases v with
  | bool b =>
    refine Or.inl ⟨.bool b, ?_, by simp [Value.equals, Value.Readable]⟩
    cases b with
    | true => exact Literal.true ⟨rfl, apart⟩
    | false => exact Literal.false ⟨rfl, apart⟩
  | int i => exact Or.inl ⟨.int i, int_read i r, by simp [Value.equals, Value.Readable]⟩
  | float x =>
    by_cases readable : x.isFinite = true ∧ x.isWhole = false
    · refine Or.inl ⟨.float x, fraction_read readable.1 readable.2 r, ?_⟩
      exact ⟨fun _ => readable, fun _ => Binary64.equals_self readable.1⟩
    · rcases nonfraction_read readable ends with ⟨i, literal⟩ | refused
      · refine Or.inl ⟨.int i, literal, ?_⟩
        exact ⟨fun h => absurd h (by simp [Value.equals]), fun h => absurd h readable⟩
      · exact Or.inr ⟨refused, readable⟩
  | string s =>
    refine Or.inl ⟨.string (String.ofList (s.toList.flatMap returned)), ?_, ?_⟩
    · have body := quoted_read s.toList (StringBody.close r)
      have literal := Literal.string body
      rw [List.append_nil] at literal
      simpa [Value.text, Text.quote] using literal
    · rw [Value.Readable, ← flatMap_returned, Value.equals, beq_iff_eq]
      rw [← String.toList_inj, String.toList_ofList]

end RuleText

end RuleWatch
