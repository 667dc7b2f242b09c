import Mathlib.Tactic.SplitIfs
import RuleWatch.Proofs.Number.Numerals
import RuleWatch.Proofs.Text.Replies
import RuleWatch.Proofs.Time.Calendar
import RuleWatch.Time.Timestamp
/-!
  Instants are read back from their texts. The text of an instant has a fixed number of
  digits in every part but the year and the fraction, and a mark behind each, so that every
  part is read as it was written (`ofText?_text`).
-/

namespace RuleWatch

/-- An instant that a clock can show: of a year that instants lie in, and within a second
or, in the last one of a minute, within the leap second behind it. -/
structure Instant.Valid (t : Instant) : Prop where
  in_year : Timestamp.isYear (Date.ofDays (t.seconds / 86400)).year = true
  within : t.nanos < Instant.nanosPerSecond ∨ t.nanos < 2 * Instant.nanosPerSecond ∧ t.seconds % 60 = 59

namespace Timestamp

open RuleWatch.Parser (Begins Refuses)

/-! ## Parts -/

theorem isWhite_of_isDigit {c : Char} (h : c.isDigit = true) : isWhite c = false := by
  have low : '0'.toNat ≤ c.toNat := by
    simp only [Char.isDigit, Bool.and_eq_true, decide_eq_true_eq] at h
    exact h.1
  have high : c.toNat ≤ '9'.toNat := by
    simp only [Char.isDigit, Bool.and_eq_true, decide_eq_true_eq] at h
    exact h.2
  have lower : 48 ≤ c.toNat := low
  have upper : c.toNat ≤ 57 := high
  simp only [isWhite, Bool.or_eq_false_iff, Bool.and_eq_false_iff, decide_eq_false_iff_not, beq_eq_false_iff_ne]
  omega

theorem white_of_solid {c : Char} (h : isWhite c = false) (s : List Char) : white (c :: s) = .ok () (c :: s) := by
  simp [white, h]

/-- As many digits are read as are allowed. -/
theorem digits_append {more : Nat} {ds : List Char} (all : ∀ c ∈ ds, c.isDigit = true) (length : ds.length = more + 1)
    (r : List Char) : digits more (ds ++ r) = .ok ds r := by
  cases ds with
  | nil => cases length
  | cons c ds =>
    have others : (ds ++ r).take more = ds := by
      rw [List.length_cons] at length
      rw [List.take_append_of_le_length (by omega), List.take_of_length_le (by omega)]
    have digits : ds.takeWhile Char.isDigit = ds := List.takeWhile_eq_self_iff.2 fun c hc => all c (by simp [hc])
    have first : Parser.oneOf Char.isDigit (c :: ds ++ r) = .ok c (ds ++ r) := Parser.oneOf_ok.2 ⟨rfl, all c (by simp)⟩
    refine Parser.bind_ok.2 ⟨c, ds ++ r, first, ?_⟩
    simp [others, digits]

theorem white_digits {ds : List Char} (all : ∀ c ∈ ds, c.isDigit = true) (some : ds ≠ []) (r : List Char) :
    white (ds ++ r) = .ok () (ds ++ r) := by
  cases ds with
  | nil => exact absurd rfl some
  | cons c ds => exact white_of_solid (isWhite_of_isDigit (all c (by simp))) _

/-- A number of two digits is read as such. -/
theorem part_padded {low high n : Nat} (bounds : low ≤ n ∧ n ≤ high) (two : high < 100) (r : List Char) :
    part low high (paddedDigits 10 2 n ++ r) = .ok n r := by
  have length : (paddedDigits 10 2 n).length = 1 + 1 := length_paddedDigits (by decide) (by decide) (by omega)
  have read := digits_append (fun _ => isDigit_paddedDigits) length r
  have some : paddedDigits 10 2 n ≠ [] := List.ne_nil_of_length_pos (by omega)
  refine Parser.bind_ok.2 ⟨(), _, white_digits (fun _ => isDigit_paddedDigits) some r, ?_⟩
  refine Parser.mapPartial_ok.2 ⟨n, Parser.map_ok.2 ⟨_, read, digitsValue_paddedDigits 2 n⟩, if_pos bounds⟩

theorem separator_cons {c : Char} (solid : isWhite c = false) (r : List Char) : separator c (c :: r) = .ok () r := by
  simp [separator, white, solid]

/-- The year stands in four digits, or behind a sign in as many as it has. -/
theorem year_text (y : Int) {c : Char} (other : c.isDigit = false) (r : List Char) :
    year ((yearText y).toList ++ c :: r) = .ok y (c :: r) := by
  have digits : ∀ d ∈ paddedDigits 10 4 y.natAbs, d.isDigit = true := fun _ => isDigit_paddedDigits
  have long : 4 ≤ (paddedDigits 10 4 y.natAbs).length := le_length_paddedDigits 10 4 y.natAbs
  have some : paddedDigits 10 4 y.natAbs ≠ [] := List.ne_nil_of_length_pos (by omega)
  by_cases plain : 0 ≤ y ∧ y ≤ 9999
  · have text : (yearText y).toList = paddedDigits 10 4 y.natAbs := by simp [yearText, plain, padded]
    have length : (paddedDigits 10 4 y.natAbs).length = 3 + 1 :=
      length_paddedDigits (by decide) (by decide) (by omega)
    have value : (digitsValue (paddedDigits 10 4 y.natAbs) : Int) = y := by
      rw [digitsValue_paddedDigits]
      omega
    rw [text]
    refine Parser.bind_ok.2 ⟨(), _, white_digits digits some _, Parser.orElse_ok.2 (Or.inr ⟨?_, ?_⟩)⟩
    · refine Parser.bind_refuses.2 (Or.inl (Parser.oneOf_refuses.2 ?_))
      obtain ⟨d, ds, same⟩ := List.exists_cons_of_ne_nil some
      have digit := digits d (by simp [same])
      rw [same, List.cons_append, Parser.begins_cons]
      rintro sign
      rw [Bool.or_eq_true, beq_iff_eq, beq_iff_eq] at sign
      rcases sign with rfl | rfl <;> cases digit
    · exact Parser.bind_ok.2 ⟨_, _, digits_append digits length _, Parser.pure_ok.2 ⟨value, rfl⟩⟩
  · have text : (yearText y).toList = (if y < 0 then '-' else '+') :: paddedDigits 10 4 y.natAbs := by
      rw [yearText, if_neg plain]
      split_ifs <;> simp [padded]
    have read : Parser.run1 Char.isDigit (paddedDigits 10 4 y.natAbs ++ c :: r) =
        .ok (paddedDigits 10 4 y.natAbs) (c :: r) :=
      Parser.run1_ok.2 ⟨some, rfl, digits, by simp [other]⟩
    rw [text, List.cons_append]
    have skips : white ((if y < 0 then '-' else '+') :: (paddedDigits 10 4 y.natAbs ++ c :: r)) = .ok () _ :=
      white_of_solid (by split_ifs <;> rfl) _
    refine Parser.bind_ok.2 ⟨(), _, skips, Parser.orElse_ok.2 (Or.inl ?_)⟩
    refine Parser.bind_ok.2 ⟨_, _, Parser.oneOf_ok.2 ⟨rfl, by split_ifs <;> rfl⟩, ?_⟩
    refine Parser.bind_ok.2 ⟨_, _, read, Parser.pure_ok.2 ⟨?_, rfl⟩⟩
    rw [digitsValue_paddedDigits]
    by_cases below : y < 0
    · rw [if_pos below, if_pos rfl]
      omega
    · rw [if_neg below, if_neg (by decide)]
      omega

/-- Up to nine digits behind a point are a fraction. -/
theorem fraction_padded {width n : Nat} (positive : 0 < width) (most : width ≤ 9) (small : n < 10 ^ width)
    (r : List Char) :
    fraction ('.' :: (paddedDigits 10 width n ++ 'Z' :: r)) = .ok (n * 10 ^ (9 - width)) ('Z' :: r) := by
  have length : (paddedDigits 10 width n).length = width := length_paddedDigits (by decide) positive small
  have point : Parser.optional? (Parser.char '.') ('.' :: (paddedDigits 10 width n ++ 'Z' :: r)) =
      .ok (some '.') (paddedDigits 10 width n ++ 'Z' :: r) := rfl
  have read : Parser.run1 Char.isDigit (paddedDigits 10 width n ++ 'Z' :: r) =
      .ok (paddedDigits 10 width n) ('Z' :: r) := by
    refine Parser.run1_ok.2 ⟨List.ne_nil_of_length_pos (by omega), rfl, fun _ => isDigit_paddedDigits, ?_⟩
    simp [Char.isDigit]
  have counted : (paddedDigits 10 width n).take 9 = paddedDigits 10 width n :=
    List.take_of_length_le (by omega)
  refine Parser.bind_ok.2 ⟨_, _, point, ?_⟩
  simp [read, counted, length, digitsValue_paddedDigits, Nat.min_eq_right most]

/-- The fraction of a second is read to the nanosecond. -/
theorem fraction_text {n : Nat} (small : n < Instant.nanosPerSecond) (r : List Char) :
    fraction ((fractionText n).toList ++ 'Z' :: r) = .ok n ('Z' :: r) := by
  rw [Instant.nanosPerSecond] at small
  unfold fractionText
  split_ifs with none millis micros
  · subst none
    rfl
  · have read := fraction_padded (n := n / 1000000) (by decide : 0 < 3) (by decide) (by omega) r
    rw [show n / 1000000 * 10 ^ (9 - 3) = n by omega] at read
    simpa [padded] using read
  · have read := fraction_padded (n := n / 1000) (by decide : 0 < 6) (by decide) (by omega) r
    rw [show n / 1000 * 10 ^ (9 - 6) = n by omega] at read
    simpa [padded] using read
  · have read := fraction_padded (n := n) (by decide : 0 < 9) (by decide) (by omega) r
    simpa [padded] using read

/-- The seconds of an instant are those of its day and of its time of day, a leap second
being the last of its minute. -/
theorem instant?_parts {t : Instant} (valid : t.Valid) :
    instant? (Date.ofDays (t.seconds / 86400)) t.clockFace.1 t.clockFace.2.1 t.clockFace.2.2 t.fraction 0 = some t := by
  obtain ⟨in_year, within⟩ := valid
  obtain ⟨days, date⟩ := Date.ofDays_spec (t.seconds / 86400)
  -- the second is sixty just if the nanoseconds have passed into the leap second
  have split : (if t.clockFace.2.2 = 60 then (59, t.fraction + Instant.nanosPerSecond)
      else (t.clockFace.2.2, t.fraction)) = ((t.seconds % 60).toNat, t.nanos) := by
    by_cases leap : t.clockFace.2.2 = 60
    · rw [if_pos leap, Prod.mk.injEq]
      simp only [Instant.clockFace, Instant.fraction, Instant.nanosPerSecond] at *
      omega
    · rw [if_neg leap, Prod.mk.injEq]
      simp only [Instant.clockFace, Instant.fraction, Instant.nanosPerSecond] at *
      omega
  have whole : t.seconds / 86400 * 86400 +
      (t.clockFace.1 * 3600 + t.clockFace.2.1 * 60 + (t.seconds % 60).toNat : Nat) - 0 = t.seconds := by
    simp only [Instant.clockFace]
    omega
  rw [instant?, if_pos (by simp [date, in_year]), split]
  dsimp only
  rw [days, whole, if_pos in_year]

theorem clockFace_bounds {t : Instant} (valid : t.Valid) :
    t.clockFace.1 ≤ 23 ∧ t.clockFace.2.1 ≤ 59 ∧ t.clockFace.2.2 ≤ 60 := by
  obtain ⟨-, within⟩ := valid
  simp only [Instant.clockFace, Instant.nanosPerSecond] at *
  omega

/-- **Instants.** A valid instant is what its text names. -/
theorem ofText?_text {t : Instant} (valid : t.Valid) : ofText? (text t) = some t := by
  obtain ⟨hours, minutes, seconds⟩ := clockFace_bounds valid
  have small : t.fraction < Instant.nanosPerSecond := Nat.mod_lt _ (by decide)
  obtain ⟨month, day⟩ := Date.isValid_bounds (Date.ofDays_spec (t.seconds / 86400)).2
  have written : (text t).toList = (yearText (Date.ofDays (t.seconds / 86400)).year).toList ++
      '-' :: (paddedDigits 10 2 (Date.ofDays (t.seconds / 86400)).month ++
      '-' :: (paddedDigits 10 2 (Date.ofDays (t.seconds / 86400)).day ++
      'T' :: (paddedDigits 10 2 t.clockFace.1 ++
      ':' :: (paddedDigits 10 2 t.clockFace.2.1 ++
      ':' :: (paddedDigits 10 2 t.clockFace.2.2 ++ ((fractionText t.fraction).toList ++ ['Z'])))))) := by
    simp [text, padded]
  have read : reader (text t).toList = .ok t [] := by
    rw [written]
    refine Parser.bind_ok.2 ⟨_, _, year_text _ rfl _, ?_⟩
    refine Parser.bind_ok.2 ⟨(), _, separator_cons rfl _, ?_⟩
    refine Parser.bind_ok.2 ⟨_, _, part_padded month (by decide) _, ?_⟩
    refine Parser.bind_ok.2 ⟨(), _, separator_cons rfl _, ?_⟩
    refine Parser.bind_ok.2 ⟨_, _, part_padded day (by decide) _, ?_⟩
    refine Parser.bind_ok.2 ⟨'T', _, Parser.oneOf_ok.2 ⟨rfl, rfl⟩, ?_⟩
    refine Parser.bind_ok.2 ⟨_, _, part_padded ⟨Nat.zero_le _, hours⟩ (by decide) _, ?_⟩
    refine Parser.bind_ok.2 ⟨(), _, separator_cons rfl _, ?_⟩
    refine Parser.bind_ok.2 ⟨_, _, part_padded ⟨Nat.zero_le _, minutes⟩ (by decide) _, ?_⟩
    refine Parser.bind_ok.2 ⟨(), _, separator_cons rfl _, ?_⟩
    refine Parser.bind_ok.2 ⟨_, _, part_padded ⟨Nat.zero_le _, seconds⟩ (by decide) _, ?_⟩
    refine Parser.bind_ok.2 ⟨_, _, fraction_text small [], ?_⟩
    refine Parser.bind_ok.2 ⟨(), ['Z'], rfl, Parser.bind_ok.2 ⟨0, [], rfl, Parser.bind_ok.2 ⟨(), [], rfl, ?_⟩⟩⟩
    rw [instant?_parts valid]
    rfl
  rw [ofText?, read]

end Timestamp

end RuleWatch
