import Mathlib.Tactic.SplitIfs
import RuleWatch.Proofs.Number.Numerals
import RuleWatch.Rule.Identity
/-!
  Identities are read back from their texts: every number below `2 ^ 128` has the value of
  its `32` hexadecimal digits, and the groups between hyphens are these digits in order.
-/

namespace RuleWatch

/-! ## Hexadecimal digits -/

theorem hexValue?_digitChar : ∀ k < 16, hexValue? k.digitChar = some k := by decide

theorem hexDigitsValue?_snoc (ds : List Char) (c : Char) :
    hexDigitsValue? (ds ++ [c]) = (hexDigitsValue? ds).bind fun n => (hexValue? c).map (16 * n + ·) := by
  simp [hexDigitsValue?, List.foldlM_append]

theorem hexDigitsValue?_toDigits (n : Nat) : hexDigitsValue? (Nat.toDigits 16 n) = some n := by
  induction n using Nat.strongRecOn with
  | ind n ih =>
    rw [Nat.toDigits_eq_if (by decide)]
    split_ifs with single
    · have value := hexValue?_digitChar n single
      simp [hexDigitsValue?, value]
    · have value := hexValue?_digitChar (n % 16) (Nat.mod_lt n (by decide))
      rw [hexDigitsValue?_snoc, ih (n / 16) (by omega), value]
      simp
      omega

theorem hexDigitsValue?_zeros (k : Nat) (ds : List Char) :
    hexDigitsValue? (List.replicate k '0' ++ ds) = hexDigitsValue? ds := by
  induction k with
  | zero => rfl
  | succ k ih =>
    rw [← ih, List.replicate_succ, List.cons_append]
    rfl

theorem hexDigitsValue?_paddedDigits (width n : Nat) : hexDigitsValue? (paddedDigits 16 width n) = some n := by
  rw [paddedDigits, hexDigitsValue?_zeros, hexDigitsValue?_toDigits]

namespace RuleId

variable (i : RuleId)

theorem length_digits : i.digits.length = 32 := length_paddedDigits (by decide) (by decide) i.number.isLt

theorem ofDigits?_digits : ofDigits? i.digits = some i := by
  rw [ofDigits?, if_pos i.length_digits, digits, hexDigitsValue?_paddedDigits]
  simp [ofNat]

theorem digitChar_ne_hyphen : ∀ k < 16, Nat.digitChar k ≠ '-' := by decide

theorem no_hyphen {c : Char} (h : c ∈ i.digits) : c ≠ '-' := by
  rcases List.mem_append.1 h with zero | digit
  · rw [(List.mem_replicate.1 zero).2]
    decide
  · obtain ⟨k, small, rfl⟩ := exists_digitChar (by decide) digit
    exact digitChar_ne_hyphen k small

/-- The digits in groups. -/
def groups (d : List Char) : List (List Char) :=
  [d.take 8, (d.drop 8).take 4, (d.drop 12).take 4, (d.drop 16).take 4, d.drop 20]

theorem flatten_groups (d : List Char) : (groups d).flatten = d := by
  have split (k m : Nat) : (d.drop k).take m ++ d.drop (k + m) = d.drop k := by
    rw [← List.drop_drop, List.take_append_drop]
  simp only [groups, List.flatten_cons, List.flatten_nil, List.append_nil]
  rw [split 16 4, split 12 4, split 8 4, List.take_append_drop]

theorem grouped_eq : i.grouped.toList = ['-'].intercalate (groups i.digits) := by
  simp [grouped, groups, List.intercalate]

/-- An identity is what its grouped text names. -/
theorem ofText?_grouped : ofText? i.grouped = some i := by
  have length := i.length_digits
  have apart : ∀ g ∈ groups i.digits, '-' ∉ g := by
    intro g among hyphen
    have within : '-' ∈ i.digits := by
      rw [← flatten_groups i.digits]
      exact List.mem_flatten.2 ⟨g, among, hyphen⟩
    exact i.no_hyphen within rfl
  have parts : i.grouped.toList.splitOn '-' = groups i.digits := by
    rw [grouped_eq, List.splitOn_intercalate '-' apart (by simp [groups])]
  have long : i.grouped.toList.length = 36 := by simp [grouped, length]
  have joined := flatten_groups i.digits
  simp only [groups, List.flatten_cons, List.flatten_nil, List.append_nil] at joined
  have read : ofGroups? i.grouped.toList = some i := by
    rw [ofGroups?, parts, groups]
    simp only [List.append_assoc, joined, ofDigits?_digits]
    simp [length]
  rw [ofText?]
  simp [long, read]

end RuleId

end RuleWatch
