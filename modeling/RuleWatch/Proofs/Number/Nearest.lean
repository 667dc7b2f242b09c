import Mathlib.Data.Nat.Dist
import RuleWatch.Proofs.Number.Rounding
/-!
  Rounding takes the nearest, of multiples of a unit first (`roundHalfEven_nearest`) and then of
  all magnitudes (`Binary64.nearestRatio_nearest`). The unit is that of the number's own scale.
  Magnitudes of larger scales are multiples of it too, and those of smaller scales lie below the
  first multiple that has all digits, which is not above the number.
-/

namespace RuleWatch

/-! ## The nearest multiple -/

section
variable {den : Nat}

/-- How far the multiples of a unit lie from a number: the two around it, and those beyond. -/
theorem dist_mul (positive : 0 < den) (num k : Nat) :
    (k = num / den → Nat.dist num (k * den) = num % den) ∧
      (k = num / den + 1 → Nat.dist num (k * den) + num % den = den) ∧
      (k ≠ num / den → k ≠ num / den + 1 → den ≤ Nat.dist num (k * den)) := by
  have split : den * (num / den) + num % den = num := Nat.div_add_mod num den
  have rest : num % den < den := Nat.mod_lt num positive
  have here : num / den * den = den * (num / den) := Nat.mul_comm _ _
  have next : (num / den + 1) * den = num / den * den + den := Nat.succ_mul _ _
  unfold Nat.dist
  refine ⟨?_, ?_, ?_⟩
  · rintro rfl
    omega
  · rintro rfl
    omega
  · intro notBelow notAbove
    rcases Nat.lt_or_gt_of_ne notBelow with less | more
    · have before : (k + 1) * den ≤ num / den * den := Nat.mul_le_mul_right den less
      rw [Nat.succ_mul] at before
      omega
    · have behind : (num / den + 1 + 1) * den ≤ k * den := Nat.mul_le_mul_right den (by omega)
      rw [Nat.succ_mul] at behind
      omega

theorem roundHalfEven_cases (num den : Nat) :
    2 * (num % den) < den ∧ roundHalfEven num den = num / den ∨
      den < 2 * (num % den) ∧ roundHalfEven num den = num / den + 1 ∨
      2 * (num % den) = den ∧ roundHalfEven num den = num / den + num / den % 2 := by
  simp only [roundHalfEven]
  split
  · omega
  · split <;> omega

/-- No multiple is nearer to a number than the one that it is rounded to, and only a half lies
as near to another, being rounded to the even one. -/
theorem roundHalfEven_nearest (positive : 0 < den) (num k : Nat) :
    Nat.dist num (roundHalfEven num den * den) ≤ Nat.dist num (k * den) ∧
      (Nat.dist num (k * den) = Nat.dist num (roundHalfEven num den * den) →
        k = roundHalfEven num den ∨ roundHalfEven num den % 2 = 0) := by
  have rest : num % den < den := Nat.mod_lt num positive
  have cases := roundHalfEven_cases num den
  generalize roundHalfEven num den = taken at cases ⊢
  have near := dist_mul positive num taken
  have other := dist_mul positive num k
  omega

end

namespace Binary64

/-! ## The nearest magnitude -/

/-- A larger magnitude is more steps. -/
theorem units_strictMono : StrictMono units := by
  intro m n less
  obtain ⟨scale, sig, s, small⟩ := exists_split m
  obtain ⟨scale', sig', s', small'⟩ := exists_split n
  have sum := s.sum
  have sum' := s'.sum
  rw [s.units, s'.units]
  have full : scale' = 0 ∨ 2 ^ 52 ≤ sig' := s'.normal
  rcases Nat.lt_trichotomy scale scale' with lower | rfl | higher
  · calc sig * 2 ^ scale < 2 ^ 53 * 2 ^ scale := Nat.mul_lt_mul_of_pos_right small (Nat.two_pow_pos _)
      _ = 2 ^ 52 * 2 ^ (scale + 1) := by ring
      _ ≤ sig' * 2 ^ scale' := Nat.mul_le_mul (by omega) (Nat.pow_le_pow_right (by decide) lower)
  · exact Nat.mul_lt_mul_of_pos_right (by omega) (Nat.two_pow_pos _)
  · have := s.normal
    omega

/-- No magnitude is nearer to an integer than the one that it becomes, and if another lies as
near, the one that it becomes is even. -/
theorem nearestRatio_nearest {n : Nat} (finite : nearestRatio n 1 < infinity) (m : Nat) :
    Nat.dist (n * 2 ^ 1074) (units (nearestRatio n 1)) ≤ Nat.dist (n * 2 ^ 1074) (units m) ∧
      (Nat.dist (n * 2 ^ 1074) (units m) = Nat.dist (n * 2 ^ 1074) (units (nearestRatio n 1)) →
        units m = units (nearestRatio n 1) ∨ nearestRatio n 1 % 2 = 0) := by
  have split := split_nearestRatio finite
  generalize nearestRatio n 1 = taken at split ⊢
  generalize n * 2 ^ 1074 = steps at split ⊢
  obtain ⟨scale, hscale⟩ : ∃ scale, steps.log2 - 52 = scale := ⟨_, rfl⟩
  rw [hscale] at split
  rw [split.units]
  have unit : 0 < 2 ^ scale := Nat.two_pow_pos scale
  obtain ⟨scale', sig', split', small'⟩ := exists_split m
  rw [split'.units]
  by_cases coarse : scale ≤ scale'
  · -- the other is a multiple of the same unit
    have multiple : sig' * 2 ^ scale' = sig' * 2 ^ (scale' - scale) * 2 ^ scale := by
      rw [Nat.mul_assoc, ← Nat.pow_add, Nat.sub_add_cancel coarse]
    rw [multiple]
    obtain ⟨nearest, even⟩ := roundHalfEven_nearest unit steps (sig' * 2 ^ (scale' - scale))
    refine ⟨nearest, fun same => ?_⟩
    have sum := split.sum
    rcases even same with equal | even
    · exact Or.inl (by rw [equal])
    · exact Or.inr (by omega)
  · -- the other is below the first multiple with all digits, and that is not above the number
    have below : sig' * 2 ^ scale' < 2 ^ 52 * 2 ^ scale := by
      calc sig' * 2 ^ scale' < 2 ^ 53 * 2 ^ scale' := Nat.mul_lt_mul_of_pos_right small' (Nat.two_pow_pos _)
        _ = 2 ^ 52 * 2 ^ (scale' + 1) := by ring
        _ ≤ 2 ^ 52 * 2 ^ scale := Nat.mul_le_mul_left _ (Nat.pow_le_pow_right (by decide) (by omega))
    have low : 2 ^ 52 * 2 ^ scale ≤ steps := by
      rw [← Nat.pow_add, show 52 + scale = steps.log2 by omega]
      apply Nat.log2_self_le
      rintro rfl
      rw [Nat.log2_zero, Nat.zero_sub] at hscale
      omega
    obtain ⟨nearest, -⟩ := roundHalfEven_nearest unit steps (2 ^ 52)
    unfold Nat.dist at nearest ⊢
    omega

/-- Only zero becomes zero. -/
theorem nearestRatio_pos {n : Nat} (positive : 0 < n) (finite : nearestRatio n 1 < infinity) :
    0 < nearestRatio n 1 := by
  obtain ⟨sum, -, normal⟩ := split_nearestRatio finite
  rw [sum]
  rcases normal with least | full
  · have steps : 0 < n * 2 ^ 1074 := Nat.mul_pos positive (Nat.two_pow_pos 1074)
    have taken := le_roundHalfEven (n * 2 ^ 1074) 1
    rw [Nat.div_one] at taken
    rw [least, Nat.zero_mul, Nat.zero_add, Nat.pow_zero]
    exact Nat.lt_of_lt_of_le steps taken
  · calc 0 < 2 ^ 52 := Nat.two_pow_pos 52
      _ ≤ _ := Nat.le_trans full (Nat.le_add_left _ _)

end Binary64

end RuleWatch
