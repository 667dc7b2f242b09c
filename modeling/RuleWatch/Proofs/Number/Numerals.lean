import RuleWatch.Number.Numeral
import RuleWatch.Proofs.Number.Shortest
/-!
  Numerals written in place. Digits have the value of the number they are the digits
  of, with zeros before them or without, so that the numeral of a decimal has the
  decimal's value and a double comes back from its numeral if that has a point.
-/

namespace RuleWatch

/-! ## Digits -/

theorem digitsValue_eq (ds : List Char) : digitsValue ds = Nat.ofDigitChars 10 ds 0 := rfl

theorem digitsValue_toDigits (n : Nat) : digitsValue (Nat.toDigits 10 n) = n :=
  Nat.ofDigitChars_ten_toDigits

theorem digitsValue_paddedDigits (width n : Nat) : digitsValue (paddedDigits 10 width n) = n := by
  rw [digitsValue_eq, paddedDigits, Nat.ofDigitChars_append, Nat.ofDigitChars_replicate_zero, Nat.mul_zero]
  exact digitsValue_toDigits n

theorem le_length_paddedDigits (base width n : Nat) : width ≤ (paddedDigits base width n).length := by
  rw [paddedDigits, List.length_append, List.length_replicate]
  omega

theorem length_paddedDigits {base width n : Nat} (h : 1 < base) (positive : 0 < width) (small : n < base ^ width) :
    (paddedDigits base width n).length = width := by
  have short := (Nat.length_toDigits_le_iff h positive).2 small
  rw [paddedDigits, List.length_append, List.length_replicate]
  omega

theorem isDigit_zeros {k : Nat} {c : Char} (h : c ∈ List.replicate k '0') : c.isDigit = true := by
  rw [(List.mem_replicate.1 h).2]
  rfl

theorem isDigit_toDigits {n : Nat} {c : Char} (h : c ∈ Nat.toDigits 10 n) : c.isDigit = true :=
  Nat.isDigit_of_mem_toDigits (by decide) (by decide) h

theorem isDigit_paddedDigits {width n : Nat} {c : Char} (h : c ∈ paddedDigits 10 width n) :
    c.isDigit = true := by
  rcases List.mem_append.1 h with zero | digit
  · exact isDigit_zeros zero
  · exact isDigit_toDigits digit

/-- No number but zero begins with a zero. -/
theorem toDigits_eq_cons {n : Nat} (positive : 0 < n) :
    ∃ c t, Nat.toDigits 10 n = c :: t ∧ c ≠ '0' := by
  induction n using Nat.strongRecOn with
  | ind n ih =>
    by_cases single : n < 10
    · refine ⟨n.digitChar, [], Nat.toDigits_of_lt_base single, ?_⟩
      rw [Ne, Nat.digitChar_eq_zero]
      omega
    · obtain ⟨c, t, digits, nonzero⟩ := ih (n / 10) (by omega) (by omega)
      refine ⟨c, t ++ [(n % 10).digitChar], ?_, nonzero⟩
      rw [Nat.toDigits_of_base_le (by decide) (by omega), digits, List.cons_append]

/-- Every digit is one of those below the base. -/
theorem exists_digitChar {base n : Nat} (h : 1 < base) {c : Char} (digit : c ∈ Nat.toDigits base n) :
    ∃ k, k < base ∧ c = k.digitChar := by
  induction n using Nat.strongRecOn with
  | ind n ih =>
    rw [Nat.toDigits_eq_if h] at digit
    split at digit
    · next single => exact ⟨n, single, List.mem_singleton.1 digit⟩
    · next many =>
      rcases List.mem_append.1 digit with front | last
      · exact ih (n / base) (Nat.div_lt_self (by omega) h) front
      · exact ⟨n % base, Nat.mod_lt n (by omega), List.mem_singleton.1 last⟩

/-! ## Doubles and their numerals -/

/-- Sign and magnitude make up the number. -/
theorem Binary64.ofMagnitude_magnitude (x : Binary64) : ofMagnitude x.isNegative x.magnitude = x := by
  obtain ⟨bits⟩ := x
  have small : bits.toNat < 2 ^ 64 := bits.toNat_lt
  -- the sign bit is put back where it was taken from
  have same : (if 2 ^ 63 ≤ bits.toNat then 2 ^ 63 else 0) + bits.toNat % 2 ^ 63 = bits.toNat := by
    split <;> omega
  simp only [ofMagnitude, isNegative, magnitude, decide_eq_true_eq, same, UInt64.ofNat_toNat]

/-- Only what is not a number does not equal itself. -/
theorem Binary64.equals_self {x : Binary64} (finite : x.isFinite = true) : x.equals x = true := by
  have less : x.magnitude < infinity := of_decide_eq_true finite
  have number : x.isNaN = false := decide_eq_false (by omega)
  simp [equals, compare?, number]

namespace Decimal

variable (pointed negative : Bool) {d : Decimal}

/-- Behind the point of a numeral stand the places of the decimal. -/
theorem inPlace_of_neg (h : d.exponent < 0) :
    ∃ whole places, d.inPlace pointed negative = ⟨negative, whole, places, none⟩ ∧
      whole ++ places = paddedDigits 10 (d.exponent.natAbs + 1) d.digits ∧
      places.length = d.exponent.natAbs ∧ 0 < whole.length := by
  have long := le_length_paddedDigits 10 (d.exponent.natAbs + 1) d.digits
  have written : d.inPlace pointed negative = _ := if_neg (by omega : ¬ 0 ≤ d.exponent)
  refine ⟨_, _, written, List.take_append_drop _ _, ?_, ?_⟩
  · rw [List.length_drop]
    omega
  · rw [List.length_take]
    omega

theorem nearest_inPlace (h : d.exponent < 0) :
    (d.inPlace pointed negative).nearest = Binary64.ofMagnitude negative d.nearest := by
  obtain ⟨whole, places, written, digits, length, -⟩ :=
    inPlace_of_neg pointed negative h
  have value : Numeral.decimal ⟨negative, whole, places, none⟩ = d := by
    unfold Numeral.decimal
    simp only [digits, digitsValue_paddedDigits, length, Option.getD_none]
    obtain ⟨n, e⟩ := d
    simp only [Decimal.mk.injEq, true_and]
    simp only at h
    omega
  rw [written, Numeral.nearest, value]

theorem inPlace_of_nonneg (h : 0 ≤ d.exponent) :
    d.inPlace false negative =
      ⟨negative, Nat.toDigits 10 d.digits ++ List.replicate d.exponent.toNat '0', [], none⟩ :=
  if_pos h

end Decimal

end RuleWatch
