import Mathlib.Tactic.SplitIfs
import RuleWatch.Json.Form
import RuleWatch.Proofs.Json.Texts
/-!
  Numbers in JSON texts. The numerals of integers and of finite doubles are numbers of
  JSON. Those of doubles have a point or an exponent, and those of integers have neither,
  so that none is taken for the other.
-/

namespace RuleWatch

/-! ## Numerals -/

theorem leading_toDigits (n : Nat) :
    Nat.toDigits 10 n = ['0'] ∨ ∃ c t, Nat.toDigits 10 n = c :: t ∧ c ≠ '0' := by
  rcases Nat.eq_zero_or_pos n with rfl | positive
  · exact Or.inl rfl
  · exact Or.inr (toDigits_eq_cons positive)

theorem Numeral.ofInt_regular (i : Int) : (ofInt i).Regular where
  whole_digits _ h := isDigit_toDigits h
  places_digits _ h := absurd h List.not_mem_nil
  leading := leading_toDigits i.natAbs

namespace Decimal

variable (pointed negative : Bool) {d : Decimal}

theorem scientific_regular (d : Decimal) : (d.scientific negative).Regular where
  whole_digits _ h := isDigit_toDigits (List.mem_of_mem_take h)
  places_digits _ h := isDigit_toDigits (List.mem_of_mem_drop h)
  leading := by
    rcases leading_toDigits d.digits with zero | ⟨c, t, digits, nonzero⟩
    · exact Or.inl (by simp [scientific, zero])
    · exact Or.inr ⟨c, [], by simp [scientific, digits], nonzero⟩

/-- A numeral in place is one of JSON, if zero is written without zeros behind it. -/
theorem inPlace_regular (zero : d.digits = 0 → d.exponent = 0) : (d.inPlace pointed negative).Regular := by
  by_cases whole : 0 ≤ d.exponent
  · rw [inPlace, if_pos whole]
    refine ⟨?_, ?_, ?_⟩
    · intro c h
      rcases List.mem_append.1 h with digit | zero
      · exact isDigit_toDigits digit
      · exact isDigit_zeros zero
    · intro c h
      cases pointed with
      | true => rw [List.mem_singleton.1 h]; rfl
      | false => exact absurd h List.not_mem_nil
    · rcases Nat.eq_zero_or_pos d.digits with none | positive
      · rw [none, zero none]
        exact Or.inl rfl
      · obtain ⟨c, t, digits, nonzero⟩ := toDigits_eq_cons positive
        exact Or.inr ⟨c, _, by rw [digits]; rfl, nonzero⟩
  · obtain ⟨whole, places, written, digits, length, some⟩ := inPlace_of_neg pointed negative (d := d) (by omega)
    have all : ∀ c ∈ whole ++ places, c.isDigit = true := by
      rw [digits]
      exact fun c => isDigit_paddedDigits
    rw [written]
    refine ⟨fun c h => all c (List.mem_append_left _ h), fun c h => all c (List.mem_append_right _ h), ?_⟩
    -- the first digit is one of the number if it has digits enough, else a zero in front of them
    obtain ⟨c, front, rfl⟩ := List.exists_cons_of_ne_nil (List.ne_nil_of_length_pos some)
    by_cases short : (Nat.toDigits 10 d.digits).length ≤ d.exponent.natAbs
    · obtain ⟨k, zeros⟩ : ∃ k, d.exponent.natAbs + 1 - (Nat.toDigits 10 d.digits).length = k + 1 :=
        ⟨d.exponent.natAbs - (Nat.toDigits 10 d.digits).length, by omega⟩
      rw [paddedDigits, zeros, List.replicate_succ, List.cons_append, List.cons_append, List.cons.injEq] at digits
      have long := congrArg List.length digits.2
      rw [List.length_append, List.length_append, List.length_replicate] at long
      have none : front = [] := List.length_eq_zero_iff.1 (by omega)
      exact Or.inl (by rw [digits.1, none])
    · rw [paddedDigits, Nat.sub_eq_zero_of_le (by omega), List.replicate_zero, List.nil_append] at digits
      rcases leading_toDigits d.digits with zero | ⟨c', t, same, nonzero⟩
      · rw [zero, List.length_singleton] at short
        omega
      · rw [same, List.cons_append, List.cons.injEq] at digits
        exact Or.inr ⟨c, front, rfl, digits.1 ▸ nonzero⟩

/-- Behind the point of a numeral in place stands a digit, if there must be a point. -/
theorem inPlace_pointed : (d.inPlace true negative).places ≠ [] := by
  by_cases whole : 0 ≤ d.exponent
  · rw [inPlace, if_pos whole]
    simp
  · obtain ⟨whole, places, written, digits, length, some⟩ := inPlace_of_neg true negative (d := d) (by omega)
    rw [written]
    exact List.ne_nil_of_length_pos (by dsimp only; omega)

theorem shortest_zero (tie : Tie) {m : Nat} (finite : m < Binary64.infinity) (zero : (shortest tie m).digits = 0) :
    (shortest tie m).exponent = 0 := by
  have none : m = 0 := by rw [← shortest_nearest tie finite, nearest, if_pos zero]
  subst none
  rfl

end Decimal

/-! ## Doubles and integers -/

namespace Value

theorem jsonLayout_regular {x : Binary64} (finite : x.isFinite = true) : (jsonLayout.numeral x).Regular := by
  have less : x.magnitude < Binary64.infinity := of_decide_eq_true finite
  rw [Layout.numeral]
  split_ifs
  · exact Decimal.inPlace_regular true x.isNegative (Decimal.shortest_zero jsonLayout.tie less)
  · exact Decimal.scientific_regular x.isNegative _

/-- A double is written with a point or an exponent. -/
theorem jsonLayout_pointed (x : Binary64) :
    (jsonLayout.numeral x).places ≠ [] ∨ (jsonLayout.numeral x).exponent ≠ none := by
  rw [Layout.numeral]
  split_ifs
  · exact Or.inl (Decimal.inPlace_pointed x.isNegative)
  · exact Or.inr (by simp [Decimal.scientific])

/-- What is written for a double is read as a double, if it is read. -/
theorem ofNumeral?_double (x : Binary64) :
    ofNumeral? (jsonLayout.numeral x) = (jsonLayout.numeral x).stepwise?.map float := by
  rw [ofNumeral?]
  apply if_neg
  rintro ⟨no_places, no_exponent, -⟩
  rcases jsonLayout_pointed x with places | exponent
  · exact places no_places
  · exact exponent no_exponent

/-- What is written for an integer is read as that integer. -/
theorem ofNumeral?_int (i : Int64) : ofNumeral? (Numeral.ofInt i.toInt) = some (int i) := by
  have least : -2 ^ 63 ≤ i.toInt := Int64.le_toInt i
  have most : i.toInt < 2 ^ 63 := Int64.toInt_lt i
  have same : Int64.ofInt i.toInt = i := Int64.ofInt_toInt i
  have value : (if i.toInt < 0 then -(i.toInt.natAbs : Int) else i.toInt.natAbs) = i.toInt := by
    split_ifs <;> omega
  rw [ofNumeral?, Numeral.ofInt]
  simp only [digitsValue_toDigits, decide_eq_true_eq, value]
  rw [if_pos ⟨trivial, trivial, by omega, least, most⟩, same]

end Value

end RuleWatch
