import Mathlib.Tactic.SplitIfs
import RuleWatch.Json.Reader
import RuleWatch.Proofs.Number.Numerals
import RuleWatch.Proofs.Text.Replies
/-!
  JSON texts are read back. A value whose strings stand for texts and whose numbers are
  written without a leading zero is what its compact text holds (`ofText?_text`). Behind
  each part of a text stands its end, a comma or a closing mark, so that no number goes on.
-/

namespace RuleWatch

/-- A number as JSON has it: digits on both sides of the point, and no leading zero. -/
structure Numeral.Regular (n : Numeral) : Prop where
  whole_digits : ∀ c ∈ n.whole, c.isDigit = true
  places_digits : ∀ c ∈ n.places, c.isDigit = true
  leading : n.whole = ['0'] ∨ ∃ c t, n.whole = c :: t ∧ c ≠ '0'

namespace Json

open RuleWatch.Parser (Begins Many Reads Refuses)

/-- Every string stands for a text, and every number is one of JSON. -/
inductive Regular : Json → Prop where
  | null : Regular null
  | bool (b : Bool) : Regular (bool b)
  | number {n : Numeral} (h : n.Regular) : Regular (number n)
  | string (s : String) : Regular (string (some s))
  | array {items : List Json} (h : ∀ j ∈ items, Regular j) : Regular (array items)
  | object {members : List (JsonString × Json)} (names : ∀ m ∈ members, m.1.isSome = true)
      (values : ∀ m ∈ members, Regular m.2) : Regular (object members)

/-! ## Strings -/

/-- The part of a string that is written for a character. -/
def pieceOf (c : Char) : Piece :=
  if c.toNat < 0x20 ∧ c ∉ ['\x08', '\x0c', '\n', '\r', '\t'] then .unit c.toNat else .char c

/-- The number of a control in four digits. -/
theorem control_digits : ∀ n < 0x20, (paddedDigits 16 4 n).length = 4 ∧
    hexDigitsValue? (paddedDigits 16 4 n) = some n := by decide

/-- Of an escaped character its part is read, and then what stands behind it. -/
theorem pieces?_escapeChar (c : Char) {s after : List Char} {pieces : List Piece}
    (rest : pieces? s = some (pieces, after)) :
    pieces? (escapeChar c ++ s) = some (pieceOf c :: pieces, after) := by
  by_cases short : c ∈ ['"', '\\', '\x08', '\x0c', '\n', '\r', '\t']
  · simp only [List.mem_cons, List.not_mem_nil, or_false] at short
    rcases short with rfl | rfl | rfl | rfl | rfl | rfl | rfl <;>
      simp [escapeChar, pieces?, unescape?, rest, pieceOf]
  · simp only [List.mem_cons, List.not_mem_nil, or_false, not_or] at short
    obtain ⟨quote, backslash, back, form, feed, ret, tab⟩ := short
    by_cases control : c.toNat < 0x20
    · obtain ⟨four, value⟩ := control_digits c.toNat control
      have escaped : escapeChar c = '\\' :: 'u' :: paddedDigits 16 4 c.toNat := by
        simp [escapeChar, quote, backslash, back, form, feed, ret, tab, control]
      have piece : pieceOf c = .unit c.toNat := by simp [pieceOf, control, back, form, feed, ret, tab]
      rw [escaped, piece]
      match paddedDigits 16 4 c.toNat, four, value with
      | [w, x, y, z], _, value => simp [pieces?, unit?, value, rest]
    · have escaped : escapeChar c = [c] := by
        simp [escapeChar, quote, backslash, back, form, feed, ret, tab, control]
      have piece : pieceOf c = .char c := by simp [pieceOf, control]
      rw [escaped, piece, List.singleton_append, pieces?, if_neg control, rest]
      · rfl
      · exact quote
      · exact fun _ _ _ _ _ h => absurd h backslash
      · exact fun _ _ h => absurd h backslash

theorem joinPieces?_unit {n : Nat} (low : n < 0xd800) (rest : List Piece) :
    joinPieces? (.unit n :: rest) = (joinPieces? rest).map (Char.ofNat n :: ·) := by
  rw [joinPieces?.eq_def]
  exact if_pos (Or.inl low)

/-- The parts of a text make up the text. -/
theorem joinPieces?_pieceOf (s : List Char) : joinPieces? (s.map pieceOf) = some s := by
  induction s with
  | nil => rfl
  | cons c s ih =>
    rw [List.map_cons, pieceOf]
    split_ifs with control
    · rw [joinPieces?_unit (by omega), ih, Char.ofNat_toNat]
      rfl
    · rw [joinPieces?, ih]
      rfl

theorem pieces?_chars (s r : List Char) :
    pieces? (s.flatMap escapeChar ++ '"' :: r) = some (s.map pieceOf, r) := by
  induction s with
  | nil => rfl
  | cons c s ih =>
    rw [List.flatMap_cons, List.append_assoc]
    exact pieces?_escapeChar c ih

theorem readString_quote (s : List Char) : readString ('"' :: s) = match pieces? s with
    | some (pieces, after) => .ok ((joinPieces? pieces).map String.ofList) after
    | none => .fail true [] [] := rfl

theorem stringChars_append (s : String) (r : List Char) :
    stringChars (some s) ++ r = '"' :: (s.toList.flatMap escapeChar ++ '"' :: r) := by
  simp [stringChars]

theorem readString_chars (s : String) (r : List Char) :
    readString (stringChars (some s) ++ r) = .ok (some s) r := by
  rw [stringChars_append, readString_quote, pieces?_chars]
  simp [joinPieces?_pieceOf]

/-! ## Numbers -/

/-- Whether a number that is read up to a character goes on there. -/
def goesOn (c : Char) : Bool := c.isDigit || c == '.' || c == 'e' || c == 'E'

/-- No number goes on in the text. -/
def Ends (r : List Char) : Prop := ¬ Begins goesOn r

theorem ends_nil : Ends [] := Parser.not_begins_nil

theorem ends_cons {c : Char} (h : goesOn c = false) (r : List Char) : Ends (c :: r) := by
  simp [Ends, h]

theorem no_digit_of_ends {r : List Char} (h : Ends r) : ¬ Begins Char.isDigit r := by
  rintro ⟨c, t, rfl, digit⟩
  exact h ⟨c, t, rfl, by simp [goesOn, digit]⟩

theorem readWhole_digits {whole r : List Char} (leading : whole = ['0'] ∨ ∃ c t, whole = c :: t ∧ c ≠ '0')
    (digits : ∀ c ∈ whole, c.isDigit = true) (stop : ¬ Begins Char.isDigit r) :
    readWhole (whole ++ r) = .ok whole r := by
  rcases leading with rfl | ⟨c, t, rfl, nonzero⟩
  · exact Parser.orElse_ok.2 (Or.inl rfl)
  · refine Parser.orElse_ok.2 (Or.inr ⟨?_, Parser.run1_ok.2 ⟨by simp, rfl, digits, stop⟩⟩)
    simp [nonzero]

/-- Digits with the point in front of them, if there are any. -/
def pointChars (places : List Char) : List Char := if places.isEmpty then [] else '.' :: places

theorem readPlaces_pointChars {places r : List Char} (digits : ∀ c ∈ places, c.isDigit = true)
    (stop : ¬ Begins (fun c => c.isDigit || c == '.') r) :
    Parser.optional? (do let _ ← Parser.char '.'; Parser.run1 Char.isDigit) (pointChars places ++ r) =
      .ok (if places.isEmpty then none else some places) r := by
  rw [Parser.optional_ok]
  cases places with
  | nil =>
    refine Or.inr ⟨Parser.bind_refuses.2 (Or.inl (Parser.char_refuses.2 ?_)), rfl, rfl⟩
    rintro t rfl
    exact stop (by simp)
  | cons c t =>
    refine Or.inl ⟨c :: t, Parser.bind_ok.2 ⟨'.', c :: t ++ r, Parser.char_ok.2 ⟨rfl, rfl⟩, ?_⟩, rfl⟩
    refine Parser.run1_ok.2 ⟨by simp, rfl, digits, ?_⟩
    rintro ⟨d, u, rfl, digit⟩
    exact stop (by simp [digit])

theorem no_digit_of_pointChars (places : List Char) {r : List Char} (stop : ¬ Begins (fun c => c.isDigit || c == '.') r) :
    ¬ Begins Char.isDigit (pointChars places ++ r) := by
  cases places with
  | nil =>
    rintro ⟨c, t, same, digit⟩
    exact stop ⟨c, t, same, by simp [digit]⟩
  | cons c t => simp [pointChars]

theorem readExponent_chars (e : Int) {r : List Char} (stop : ¬ Begins Char.isDigit r) :
    readExponent (Numeral.exponentChars (some e) ++ r) = .ok e r := by
  have digits : Parser.run1 Char.isDigit (Nat.toDigits 10 e.natAbs ++ r) = .ok (Nat.toDigits 10 e.natAbs) r :=
    Parser.run1_ok.2 ⟨Nat.toDigits_ne_nil, rfl, fun _ => isDigit_toDigits, stop⟩
  simp only [readExponent, Parser.bind_ok, Parser.oneOf_ok, Parser.optional_ok, Parser.pure_ok]
  refine ⟨'e', _, ⟨rfl, rfl⟩, some (if e < 0 then '-' else '+'), _, Or.inl ⟨_, ⟨rfl, ?_⟩, rfl⟩,
    Nat.toDigits 10 e.natAbs, r, digits, ?_, rfl⟩
  · split_ifs <;> rfl
  · rw [digitsValue_toDigits]
    by_cases below : e < 0
    · rw [if_pos below, if_pos rfl]
      omega
    · rw [if_neg below, if_neg (by decide)]
      omega

theorem optional_readExponent (exponent : Option Int) {r : List Char} (ends : Ends r) :
    Parser.optional? readExponent (Numeral.exponentChars exponent ++ r) = .ok exponent r := by
  rw [Parser.optional_ok]
  cases exponent with
  | none =>
    refine Or.inr ⟨Parser.bind_refuses.2 (Or.inl (Parser.oneOf_refuses.2 ?_)), rfl, rfl⟩
    rintro ⟨c, t, rfl, mark⟩
    refine ends ⟨c, t, rfl, ?_⟩
    rw [Bool.or_eq_true] at mark
    rcases mark with mark | mark <;> simp [goesOn, mark]
  | some e => exact Or.inl ⟨e, readExponent_chars e (no_digit_of_ends ends), rfl⟩

theorem stops_of_exponentChars (exponent : Option Int) {r : List Char} (ends : Ends r) :
    ¬ Begins (fun c => c.isDigit || c == '.') (Numeral.exponentChars exponent ++ r) := by
  cases exponent with
  | none =>
    rintro ⟨c, t, same, begun⟩
    exact ends ⟨c, t, same, by simp only [goesOn, begun, Bool.true_or]⟩
  | some e => simp [Numeral.exponentChars]

/-- The first digit is no sign. -/
theorem optional_sign (negative : Bool) {w : List Char} (digit : Begins Char.isDigit w) :
    Parser.optional? (Parser.char '-') ((if negative then ['-'] else []) ++ w) =
      .ok (if negative then some '-' else none) w := by
  rw [Parser.optional_ok]
  cases negative with
  | true => exact Or.inl ⟨'-', Parser.char_ok.2 ⟨rfl, rfl⟩, rfl⟩
  | false =>
    refine Or.inr ⟨Parser.char_refuses.2 ?_, rfl, rfl⟩
    rintro t rfl
    exact absurd (Parser.begins_cons.1 digit) (by decide)

theorem digit_of_leading {n : Numeral} (regular : n.Regular) (r : List Char) : Begins Char.isDigit (n.whole ++ r) := by
  obtain ⟨c, t, same⟩ : ∃ c t, n.whole = c :: t := by
    rcases regular.leading with zero | ⟨c, t, same, -⟩
    · exact ⟨'0', [], zero⟩
    · exact ⟨c, t, same⟩
  have digit := regular.whole_digits c (by simp [same])
  rw [same]
  exact ⟨c, t ++ r, rfl, digit⟩

theorem numeral_chars_append (n : Numeral) (r : List Char) : n.chars ++ r = (if n.negative then ['-'] else []) ++
    (n.whole ++ (pointChars n.places ++ (Numeral.exponentChars n.exponent ++ r))) := by
  simp [Numeral.chars, pointChars]

/-- A number of JSON is read back from its characters. -/
theorem readNumeral_chars {n : Numeral} (regular : n.Regular) {r : List Char} (ends : Ends r) :
    readNumeral (n.chars ++ r) = .ok n r := by
  have stops := stops_of_exponentChars n.exponent ends
  have read_sign := optional_sign n.negative (digit_of_leading regular
    (pointChars n.places ++ (Numeral.exponentChars n.exponent ++ r)))
  have read_whole := readWhole_digits regular.leading regular.whole_digits (no_digit_of_pointChars n.places stops)
  have read_places := readPlaces_pointChars regular.places_digits stops
  have read_exponent := optional_readExponent n.exponent ends
  rw [numeral_chars_append]
  refine Parser.bind_ok.2 ⟨_, _, read_sign, Parser.bind_ok.2 ⟨_, _, read_whole, ?_⟩⟩
  refine Parser.bind_ok.2 ⟨_, _, read_places, Parser.bind_ok.2 ⟨_, _, read_exponent, ?_⟩⟩
  obtain ⟨negative, whole, places, exponent⟩ := n
  cases negative <;> cases places <;> rfl

theorem readNumeral_refuses {s : List Char} (h : ¬ Begins (fun c => c == '-' || c.isDigit) s) :
    readNumeral.Refuses s := by
  have no_sign : ∀ t, s ≠ '-' :: t := by
    rintro t rfl
    exact h (by simp)
  have no_digit : ¬ Begins Char.isDigit s := by
    rintro ⟨c, t, rfl, digit⟩
    exact h (by simp [digit])
  have no_zero : ∀ t, s ≠ '0' :: t := by
    rintro t rfl
    exact no_digit (Parser.begins_cons.2 rfl)
  have no_whole : readWhole.Refuses s := by simp [readWhole, no_digit, no_zero]
  exact Parser.bind_refuses.2 (Or.inr ⟨none, s, by simp [no_sign], Parser.bind_refuses.2 (Or.inl no_whole)⟩)

theorem numeral_begins {n : Numeral} (regular : n.Regular) (r : List Char) :
    Begins (fun c => c == '-' || c.isDigit) (n.chars ++ r) := by
  obtain ⟨c, t, same, digit⟩ := digit_of_leading regular (pointChars n.places ++ (Numeral.exponentChars n.exponent ++ r))
  rw [numeral_chars_append, same]
  split_ifs
  · exact ⟨'-', c :: t, rfl, rfl⟩
  · exact ⟨c, t, rfl, by simp [digit]⟩

/-! ## Lists -/

/-- The characters of items with a comma in front of each. -/
def commaChars {α : Type} (f : α → List Char) (as : List α) : List Char := as.flatMap fun a => ',' :: f a

theorem itemChars_cons (j : Json) (items : List Json) :
    itemChars (j :: items) = j.chars ++ commaChars chars items := by
  induction items generalizing j with
  | nil => simp [itemChars, commaChars]
  | cons k items ih =>
    rw [itemChars, ih k]
    · simp [commaChars]
    · simp

def memberText (m : JsonString × Json) : List Char := stringChars m.1 ++ ':' :: m.2.chars

theorem memberChars_cons (m : JsonString × Json) (members : List (JsonString × Json)) :
    memberChars (m :: members) = memberText m ++ commaChars memberText members := by
  induction members generalizing m with
  | nil => simp [memberChars, commaChars, memberText]
  | cons k members ih =>
    rw [memberChars, ih k]
    · simp [commaChars, memberText]
    · simp

section
variable {α : Type} {f : α → List Char}

/-- No item is longer than a list with it. -/
theorem length_le_list {a b : α} {as : List α} (h : a ∈ b :: as) :
    (f a).length ≤ (f b ++ commaChars f as).length := by
  rw [List.length_append]
  rcases List.mem_cons.1 h with rfl | among
  · omega
  · obtain ⟨front, back, rfl⟩ := List.append_of_mem among
    simp only [commaChars, List.flatMap_append, List.flatMap_cons, List.length_append, List.length_cons]
    omega

theorem mark_cons {c : Char} (solid : isBlank c = false) (r : List Char) : mark c (c :: r) = .ok () r := by
  simp [mark, blanks, solid]

theorem ends_commaChars {as : List α} {r : List Char} (ends : Ends r) : Ends (commaChars f as ++ r) := by
  cases as with
  | nil => exact ends
  | cons a as => exact ends_cons rfl _

variable {item : Parser α} {close : Char} (solid : isBlank close = false) (ending : goesOn close = false)
  (other : close ≠ ',') (r : List Char)
include solid ending other

/-- Items behind commas are read one after another. -/
theorem many_commaChars {as : List α} (reads : ∀ a ∈ as, ∀ t, Ends t → item (f a ++ t) = .ok a t) :
    Parser.many (do mark ','; item) (commaChars f as ++ close :: r) = .ok as (close :: r) := by
  have items : Many (Reads (do mark ','; item)) (commaChars f as ++ close :: r) as (close :: r) ∧
      as.length ≤ (commaChars f as).length := by
    induction as with
    | nil => exact ⟨.nil _, Nat.le_refl _⟩
    | cons a as ih =>
      obtain ⟨others, length⟩ := ih fun b hb => reads b (by simp [hb])
      have ends : Ends (commaChars f as ++ close :: r) := ends_commaChars (ends_cons ending r)
      have split : commaChars f (a :: as) ++ close :: r = ',' :: (f a ++ (commaChars f as ++ close :: r)) := by
        simp [commaChars]
      have read : Reads (do mark ','; item) (commaChars f (a :: as) ++ close :: r) a (commaChars f as ++ close :: r) := by
        rw [split]
        exact Parser.bind_ok.2 ⟨(), _, mark_cons rfl _, reads a (by simp) _ ends⟩
      refine ⟨.cons read others, ?_⟩
      simp only [commaChars, List.flatMap_cons, List.length_cons, List.length_append] at length ⊢
      omega
  have stop : Refuses (do mark ','; item) (close :: r) := by simp [mark, blanks, solid, other]
  rw [Parser.many, Parser.upTo_ok, List.length_append]
  exact ⟨items.1, Or.inr ⟨by omega, stop⟩⟩

theorem listUpTo_cons {a : α} {as : List α} (reads : ∀ b ∈ a :: as, ∀ t, Ends t → item (f b ++ t) = .ok b t) :
    listUpTo item close (f a ++ (commaChars f as ++ close :: r)) = .ok (a :: as) r := by
  have ends : Ends (commaChars f as ++ close :: r) := ends_commaChars (ends_cons ending r)
  have first := reads a (by simp) _ ends
  have others : Parser.many (do mark ','; item) (commaChars f as ++ close :: r) = .ok as (close :: r) :=
    many_commaChars solid ending other r fun b hb => reads b (by simp [hb])
  have items : Parser.separated item (mark ',') (f a ++ (commaChars f as ++ close :: r)) =
      .ok (a :: as) (close :: r) :=
    Parser.bind_ok.2 ⟨a, _, first, Parser.bind_ok.2 ⟨as, _, others, rfl⟩⟩
  refine Parser.bind_ok.2 ⟨some (a :: as), close :: r, Parser.optional_ok.2 (Or.inl ⟨_, items, rfl⟩), ?_⟩
  exact Parser.bind_ok.2 ⟨(), r, mark_cons solid r, rfl⟩

omit ending other in
theorem listUpTo_nil (refused : item.Refuses (close :: r)) : listUpTo item close (close :: r) = .ok [] r := by
  have none_read : (Parser.separated item (mark ',')).Refuses (close :: r) := Parser.bind_refuses.2 (Or.inl refused)
  refine Parser.bind_ok.2 ⟨none, close :: r, Parser.optional_ok.2 (Or.inr ⟨none_read, rfl, rfl⟩), ?_⟩
  exact Parser.bind_ok.2 ⟨(), r, mark_cons solid r, rfl⟩

end

/-! ## Values -/

section
variable {value : Parser Json}

/-- What begins neither a word nor with a blank is a number, a string, an array or an
object. -/
theorem valueStep_cons {c : Char} {s : List Char} (solid : isBlank c = false) (word : c ∉ ['n', 't', 'f']) :
    valueStep value (c :: s) = ((Json.number <$> readNumeral) <|>
      (Json.string <$> readString) <|>
      (do let _ ← Parser.char '['
          let items ← listUpTo value ']'
          return .array items) <|>
      (do let _ ← Parser.char '\x7b'
          let members ← listUpTo (readMember value) '\x7d'
          return .object members)) (c :: s) := by
  simp only [List.mem_cons, List.not_mem_nil, or_false, not_or] at word
  obtain ⟨null, true_, false_⟩ := word
  have skips : blanks (c :: s) = .ok () (c :: s) := by simp [blanks, solid]
  have refused {w : String} (other : ∀ t, w.toList ≠ c :: t) (some : w.toList ≠ []) (v : Json) :
      Refuses (do Parser.word w.toList; return v) (c :: s) := by
    refine Parser.bind_refuses.2 (Or.inl (Parser.word_refuses.2 ?_))
    rintro ⟨t, same⟩
    cases letters : w.toList with
    | nil => exact some letters
    | cons d u =>
      rw [letters, List.cons_append, List.cons.injEq] at same
      exact other u (by rw [letters, same.1])
  rw [valueStep, Parser.bind_apply, skips]
  dsimp only
  rw [Parser.orElse_of_refuses (refused (by simpa using Ne.symm null) (by decide) _),
    Parser.orElse_of_refuses (refused (by simpa using Ne.symm true_) (by decide) _),
    Parser.orElse_of_refuses (refused (by simpa using Ne.symm false_) (by decide) _)]

theorem valueStep_null (r : List Char) : valueStep value (null.chars ++ r) = .ok null r := by
  simp [valueStep, chars, blanks, isBlank]

theorem valueStep_bool (b : Bool) (r : List Char) : valueStep value ((bool b).chars ++ r) = .ok (bool b) r := by
  cases b <;> simp [valueStep, chars, blanks, isBlank]

theorem valueStep_number {n : Numeral} (regular : n.Regular) {r : List Char} (ends : Ends r) :
    valueStep value ((number n).chars ++ r) = .ok (number n) r := by
  obtain ⟨c, s, begun, start⟩ := numeral_begins regular r
  have read := readNumeral_chars regular ends
  rw [begun] at read
  have ne (d : Char) (other : (d == '-' || d.isDigit) = false) : c ≠ d := by
    rintro rfl
    exact absurd start (by simp [other])
  have solid : isBlank c = false := by
    simp [isBlank, ne ' ' rfl, ne '\n' rfl, ne '\t' rfl, ne '\r' rfl]
  have word : c ∉ ['n', 't', 'f'] := by simp [ne 'n' rfl, ne 't' rfl, ne 'f' rfl]
  rw [chars, begun, valueStep_cons solid word]
  exact Parser.orElse_ok.2 (Or.inl (Parser.map_ok.2 ⟨n, read, rfl⟩))

theorem no_number {c : Char} (other : (c == '-' || c.isDigit) = false) (s : List Char) :
    (Json.number <$> readNumeral).Refuses (c :: s) :=
  Parser.map_refuses.2 (readNumeral_refuses (by simpa using other))

theorem no_string {c : Char} (other : c ≠ '"') (s : List Char) : (Json.string <$> readString).Refuses (c :: s) :=
  Parser.map_refuses.2 (Parser.bind_refuses.2 (Or.inl (Parser.char_refuses.2 (by simp [other]))))

theorem valueStep_string (s : String) (r : List Char) :
    valueStep value ((string (some s)).chars ++ r) = .ok (string (some s)) r := by
  have read := readString_chars s r
  rw [stringChars_append] at read
  rw [chars, stringChars_append, valueStep_cons rfl (by decide), Parser.orElse_of_refuses (no_number rfl _)]
  exact Parser.orElse_ok.2 (Or.inl (Parser.map_ok.2 ⟨some s, read, rfl⟩))

theorem valueStep_array {items : List Json} {s r : List Char} (read : listUpTo value ']' s = .ok items r) :
    valueStep value ('[' :: s) = .ok (array items) r := by
  rw [valueStep_cons rfl (by decide), Parser.orElse_of_refuses (no_number rfl _),
    Parser.orElse_of_refuses (no_string (by decide) _)]
  refine Parser.orElse_ok.2 (Or.inl (Parser.bind_ok.2 ⟨'[', s, Parser.char_ok.2 ⟨rfl, rfl⟩, ?_⟩))
  exact Parser.bind_ok.2 ⟨items, r, read, rfl⟩

theorem valueStep_object {members : List (JsonString × Json)} {s r : List Char}
    (read : listUpTo (readMember value) '\x7d' s = .ok members r) :
    valueStep value ('\x7b' :: s) = .ok (object members) r := by
  rw [valueStep_cons rfl (by decide), Parser.orElse_of_refuses (no_number rfl _),
    Parser.orElse_of_refuses (no_string (by decide) _), Parser.orElse_of_refuses]
  · exact Parser.bind_ok.2 ⟨'\x7b', s, Parser.char_ok.2 ⟨rfl, rfl⟩, Parser.bind_ok.2 ⟨members, r, read, rfl⟩⟩
  · exact Parser.bind_refuses.2 (Or.inl (Parser.char_refuses.2 (by simp)))

/-- The mark that closes an array begins no value. -/
theorem valueStep_refuses (s : List Char) : (valueStep value).Refuses (']' :: s) := by
  rw [Refuses, valueStep_cons rfl (by decide), ← Refuses]
  simp only [Parser.orElse_refuses]
  refine ⟨no_number rfl _, no_string (by decide) _, ?_, ?_⟩
  · exact Parser.bind_refuses.2 (Or.inl (Parser.char_refuses.2 (by simp)))
  · exact Parser.bind_refuses.2 (Or.inl (Parser.char_refuses.2 (by simp)))

theorem readMember_memberText {m : JsonString × Json} (name : m.1.isSome = true) {r : List Char}
    (read : value (m.2.chars ++ r) = .ok m.2 r) : readMember value (memberText m ++ r) = .ok m r := by
  obtain ⟨n, v⟩ := m
  obtain ⟨s, rfl⟩ := Option.isSome_iff_exists.1 name
  have split : memberText (some s, v) ++ r = stringChars (some s) ++ (':' :: (v.chars ++ r)) := by simp [memberText]
  have skips : blanks (memberText (some s, v) ++ r) = .ok () (memberText (some s, v) ++ r) := by
    simp [blanks, memberText, stringChars, isBlank]
  refine Parser.bind_ok.2 ⟨(), _, skips, Parser.bind_ok.2 ⟨some s, ':' :: (v.chars ++ r), ?_, ?_⟩⟩
  · rw [split]
    exact readString_chars s _
  · exact Parser.bind_ok.2 ⟨(), _, mark_cons rfl _, Parser.bind_ok.2 ⟨v, r, read, rfl⟩⟩

theorem readMember_refuses (s : List Char) : (readMember value).Refuses ('\x7d' :: s) := by
  refine Parser.bind_refuses.2 (Or.inr ⟨(), '\x7d' :: s, by simp [blanks, isBlank], ?_⟩)
  exact Parser.bind_refuses.2 (Or.inl (Parser.bind_refuses.2 (Or.inl (Parser.char_refuses.2 (by simp)))))

end

/-- What is written for a value is read back, given enough levels for the length of the
text. -/
theorem nested_chars {n : Nat} {j : Json} (regular : j.Regular) {r : List Char} (ends : Ends r)
    (short : j.chars.length < n) : Parser.nested valueStep n (j.chars ++ r) = .ok j r := by
  -- on the levels; the values within another have shorter texts
  induction n generalizing j r with
  | zero => omega
  | succ n ih =>
    rw [Parser.nested]
    cases regular with
    | null => exact valueStep_null r
    | bool b => exact valueStep_bool b r
    | number h => exact valueStep_number h ends
    | string s => exact valueStep_string s r
    | @array items h =>
      cases items with
      | nil =>
        obtain ⟨m, rfl⟩ : ∃ m, n = m + 1 := ⟨n - 1, by simp [chars, itemChars] at short; omega⟩
        exact valueStep_array (listUpTo_nil rfl r (valueStep_refuses r))
      | cons k items =>
        have written : (array (k :: items)).chars = '[' :: (k.chars ++ commaChars chars items ++ [']']) := by
          rw [chars, itemChars_cons, List.cons_append]
        rw [written, List.length_cons, List.length_append] at short
        rw [written, List.cons_append, List.append_assoc, List.append_assoc]
        refine valueStep_array (listUpTo_cons rfl rfl (by decide) r ?_)
        intro i among t ends
        have := length_le_list (f := chars) among
        exact ih (h i among) ends (by omega)
    | @object members names values =>
      cases members with
      | nil => exact valueStep_object (listUpTo_nil rfl r (readMember_refuses r))
      | cons m members =>
        have written : (object (m :: members)).chars =
            '\x7b' :: (memberText m ++ commaChars memberText members ++ ['\x7d']) := by
          rw [chars, memberChars_cons, List.cons_append]
        rw [written, List.length_cons, List.length_append] at short
        rw [written, List.cons_append, List.append_assoc, List.append_assoc]
        refine valueStep_object (listUpTo_cons rfl rfl (by decide) r ?_)
        intro i among t ends
        have := length_le_list (f := memberText) among
        have value : i.2.chars.length < (memberText i).length := by
          rw [memberText, List.length_append, List.length_cons]
          omega
        exact readMember_memberText (names i among) (ih (values i among) ends (by omega))

/-- **JSON texts.** A value whose strings are texts and whose numbers are as JSON has
them is what its text holds. -/
theorem ofText?_text {j : Json} (regular : j.Regular) : ofText? j.text = some j := by
  have read : readValue j.text.toList = .ok j [] := by
    rw [text, String.toList_ofList, readValue, Parser.recursive]
    have := nested_chars regular ends_nil (Nat.lt_succ_self _)
    simpa using this
  have whole : (do let v ← readValue; blanks; return v : Parser Json) j.text.toList = .ok j [] :=
    Parser.bind_ok.2 ⟨j, [], read, Parser.bind_ok.2 ⟨(), [], rfl, rfl⟩⟩
  rw [ofText?, whole]

end Json

end RuleWatch
