import Mathlib.Tactic.Ring
import Mathlib.Tactic.Positivity
import RuleWatch.Number.Binary64
/-!
  Rounding to the nearest double. A finite magnitude is a scale and a significand
  (`Split`), and its number of smallest steps is the significand shifted by the
  scale. A ratio rounds to a magnitude if it is exactly that many steps, or if it
  lies below by less than a quarter of the magnitude's own step, so that the finer
  steps below a power of two do no harm.
-/

namespace RuleWatch

/-! ## Rounding to a whole number -/

theorem roundHalfEven_eq {num den k : Nat} (above : 2 * num < 2 * (k * den) + den)
    (below : 2 * (k * den) < 2 * num + den) : roundHalfEven num den = k := by
  have positive : 0 < den := by omega
  have split : den * (num / den) + num % den = num := Nat.div_add_mod num den
  have small : num % den < den := Nat.mod_lt num positive
  unfold roundHalfEven
  rcases Nat.lt_trichotomy (num / den) k with less | same | more
  · -- the number lies in the upper half below `k`
    obtain ⟨j, rfl⟩ : ∃ j, k = num / den + 1 + j := ⟨k - (num / den + 1), by omega⟩
    have grown : (num / den + 1 + j) * den = den * (num / den) + den + j * den := by ring
    have none : j = 0 := by
      by_contra some
      have : den ≤ j * den := Nat.le_mul_of_pos_left den (by omega)
      omega
    subst none
    rw [if_neg (by omega), if_pos (by omega)]
  · subst same
    have : num / den * den = den * (num / den) := Nat.mul_comm _ _
    rw [if_pos (by omega)]
  · have : (k + 1) * den ≤ num / den * den := Nat.mul_le_mul_right den more
    have : num / den * den = den * (num / den) := Nat.mul_comm _ _
    have : (k + 1) * den = k * den + den := by ring
    omega

theorem roundHalfEven_mul {k den : Nat} (positive : 0 < den) : roundHalfEven (k * den) den = k :=
  roundHalfEven_eq (by omega) (by omega)

theorem le_roundHalfEven (num den : Nat) : num / den ≤ roundHalfEven num den := by
  simp only [roundHalfEven]
  split
  · exact Nat.le_refl _
  · split <;> omega

theorem roundHalfEven_le (num den : Nat) : roundHalfEven num den ≤ num / den + 1 := by
  simp only [roundHalfEven]
  split
  · omega
  · split <;> omega

namespace Binary64

/-! ## Scales and significands -/

/-- A magnitude as a scale and a significand of at most 53 bits, the least scale
excepted of exactly 53. The significand `2 ^ 53` carries into the scale. -/
structure Split (magnitude scale significand : Nat) : Prop where
  sum : magnitude = scale * 2 ^ 52 + significand
  le : significand ≤ 2 ^ 53
  normal : scale = 0 ∨ 2 ^ 52 ≤ significand

theorem Split.units {m scale sig : Nat} (s : Split m scale sig) : units m = sig * 2 ^ scale := by
  obtain ⟨rfl, le, normal⟩ := s
  unfold Binary64.units
  by_cases low : sig < 2 ^ 52
  · obtain rfl : scale = 0 := by omega
    rw [if_pos (by omega)]
    omega
  · rw [if_neg (by omega)]
    -- the carried significand is the first of the next scale
    by_cases carry : sig = 2 ^ 53
    · have place : (scale * 2 ^ 52 + sig) / 2 ^ 52 = scale + 2 := by omega
      have rest : (scale * 2 ^ 52 + sig) % 2 ^ 52 = 0 := by omega
      rw [place, rest, show scale + 2 - 1 = scale + 1 by omega, carry, Nat.pow_succ]
      ring
    · have place : (scale * 2 ^ 52 + sig) / 2 ^ 52 = scale + 1 := by omega
      have rest : 2 ^ 52 + (scale * 2 ^ 52 + sig) % 2 ^ 52 = sig := by omega
      rw [place, rest, Nat.add_sub_cancel]

theorem exists_split (m : Nat) : ∃ scale sig, Split m scale sig ∧ sig < 2 ^ 53 := by
  by_cases low : m < 2 ^ 52
  · exact ⟨0, m, ⟨by omega, by omega, Or.inl rfl⟩, by omega⟩
  · exact ⟨m / 2 ^ 52 - 1, 2 ^ 52 + m % 2 ^ 52, ⟨by omega, by omega, Or.inr (by omega)⟩, by omega⟩

/-- The scale is what the size of the number says. -/
theorem Split.log2 {m scale sig : Nat} (s : Split m scale sig) (lt : sig < 2 ^ 53) :
    (Binary64.units m).log2 - 52 = scale := by
  rw [s.units]
  by_cases low : sig < 2 ^ 52
  · obtain rfl : scale = 0 := by have := s.normal; omega
    rw [Nat.pow_zero, Nat.mul_one]
    by_cases zero : sig = 0
    · simp [zero]
    · have := (Nat.log2_lt zero).2 low
      omega
  · have bits : (sig * 2 ^ scale).log2 = 52 + scale := by
      rw [Nat.log2_eq_iff (Nat.mul_ne_zero (by omega) (by positivity))]
      rw [show 52 + scale + 1 = 53 + scale by omega, Nat.pow_add, Nat.pow_add]
      exact ⟨Nat.mul_le_mul_right _ (by omega), Nat.mul_lt_mul_of_pos_right lt (by positivity)⟩
    omega

/-! ## Ratios that round to a magnitude -/

theorem nearestRatio_eq {m scale sig num den : Nat} (s : Split m scale sig) (finite : m < infinity)
    (size : (num * 2 ^ 1074 / den).log2 - 52 = scale)
    (rounds : roundHalfEven (num * 2 ^ 1074) (den * 2 ^ scale) = sig) : nearestRatio num den = m := by
  simp only [nearestRatio, size, rounds]
  rw [← s.sum]
  omega

/-- A ratio of exactly so many steps. -/
theorem nearestRatio_exact {m num den : Nat} (finite : m < infinity) (positive : 0 < den)
    (exact : num * 2 ^ 1074 = units m * den) : nearestRatio num den = m := by
  obtain ⟨scale, sig, s, lt⟩ := exists_split m
  apply nearestRatio_eq s finite
  · rw [exact, Nat.mul_div_cancel _ positive]
    exact s.log2 lt
  · have steps : num * 2 ^ 1074 = sig * (den * 2 ^ scale) := by rw [exact, s.units]; ring
    rw [steps]
    exact roundHalfEven_mul (by positivity)

/-- A ratio of some steps fewer, but by less than a quarter of a step of the
magnitude's own scale. -/
theorem nearestRatio_of_below {m scale sig num : Nat} (s : Split m scale sig) (finite : m < infinity)
    (full : 2 ^ 52 ≤ sig) (lt : sig < 2 ^ 53) (coarse : 0 < scale)
    (below : num * 2 ^ 1074 ≤ units m) (near : 4 * units m < 4 * (num * 2 ^ 1074) + 2 ^ scale) :
    nearestRatio num 1 = m := by
  obtain ⟨steps, hs⟩ : ∃ steps, num * 2 ^ 1074 = steps := ⟨_, rfl⟩
  have units := s.units
  rw [units, hs] at below near
  have nonzero : 0 < 2 ^ scale := Nat.two_pow_pos scale
  -- the ratio has the scale of the magnitude unless it fell below a power of two
  by_cases high : 2 ^ 52 * 2 ^ scale ≤ steps
  · have top : sig * 2 ^ scale < 2 ^ 53 * 2 ^ scale := Nat.mul_lt_mul_of_pos_right lt nonzero
    have bits : steps.log2 = 52 + scale := by
      rw [Nat.log2_eq_iff (by omega), show 52 + scale + 1 = 53 + scale by omega, Nat.pow_add, Nat.pow_add]
      exact ⟨high, by omega⟩
    apply nearestRatio_eq s finite
    · rw [hs, Nat.div_one, bits]
      omega
    · rw [hs, Nat.one_mul]
      apply roundHalfEven_eq <;> omega
  · -- below a power of two the steps are finer by half
    obtain ⟨k, rfl⟩ : ∃ k, scale = k + 1 := ⟨scale - 1, by omega⟩
    have least : sig = 2 ^ 52 := by
      by_contra more
      have : (2 ^ 52 + 1) * 2 ^ (k + 1) ≤ sig * 2 ^ (k + 1) := Nat.mul_le_mul_right _ (by omega)
      omega
    subst least
    have finer : Split m k (2 ^ 53) := by
      refine ⟨?_, ?_, ?_⟩
      · rw [s.sum]
        ring
      · omega
      · exact Or.inr (by omega)
    rw [Nat.pow_succ] at high near
    have bits : steps.log2 = 52 + k := by
      rw [Nat.log2_eq_iff (by omega), show 52 + k + 1 = 53 + k by omega, Nat.pow_add, Nat.pow_add]
      omega
    apply nearestRatio_eq finer finite
    · rw [hs, Nat.div_one, bits]
      omega
    · rw [hs, Nat.one_mul]
      apply roundHalfEven_eq <;> omega

/-! ## Whole numbers -/

/-- As many steps as an integer is, written as a scale and a significand. -/
theorem split_steps (steps : Nat) :
    let scale := steps.log2 - 52
    let sig := roundHalfEven steps (2 ^ scale)
    Split (scale * 2 ^ 52 + sig) scale sig := by
  intro scale sig
  have above : steps / 2 ^ scale ≤ sig := le_roundHalfEven steps (2 ^ scale)
  have below : sig ≤ steps / 2 ^ scale + 1 := roundHalfEven_le steps (2 ^ scale)
  have high : steps / 2 ^ scale < 2 ^ 53 := by
    rw [Nat.div_lt_iff_lt_mul (Nat.two_pow_pos _), ← Nat.pow_add]
    apply Nat.lt_of_lt_of_le Nat.lt_log2_self
    exact Nat.pow_le_pow_right (by decide) (by omega)
  refine ⟨rfl, by omega, ?_⟩
  by_cases least : scale = 0
  · exact Or.inl least
  · have low : 2 ^ 52 ≤ steps / 2 ^ scale := by
      rw [Nat.le_div_iff_mul_le (Nat.two_pow_pos _), ← Nat.pow_add, show 52 + scale = steps.log2 by omega]
      apply Nat.log2_self_le
      rintro rfl
      exact least rfl
    exact Or.inr (by omega)

/-- The scale and the significand that an integer rounds to. -/
theorem split_nearestRatio {n : Nat} (finite : nearestRatio n 1 < infinity) :
    let scale := (n * 2 ^ 1074).log2 - 52
    Split (nearestRatio n 1) scale (roundHalfEven (n * 2 ^ 1074) (2 ^ scale)) := by
  intro scale
  have split := split_steps (n * 2 ^ 1074)
  have rounded : nearestRatio n 1 = min infinity (scale * 2 ^ 52 + roundHalfEven (n * 2 ^ 1074) (2 ^ scale)) := by
    simp only [nearestRatio, Nat.div_one, Nat.one_mul, scale]
  rw [Nat.min_eq_right (by omega)] at rounded
  rw [rounded]
  exact split

/-- An integer that is a multiple of its scale needs no rounding. -/
theorem units_nearestRatio_of_dvd {n : Nat} (finite : nearestRatio n 1 < infinity)
    (multiple : 2 ^ ((n * 2 ^ 1074).log2 - 52) ∣ n * 2 ^ 1074) : units (nearestRatio n 1) = n * 2 ^ 1074 := by
  rw [(split_nearestRatio finite).units]
  obtain ⟨sig, exact⟩ := multiple
  generalize (n * 2 ^ 1074).log2 - 52 = scale at exact ⊢
  rw [exact, Nat.mul_comm (2 ^ scale) sig, roundHalfEven_mul (Nat.two_pow_pos scale)]

/-- What an integer rounds to is whole: either it is a multiple of the scale, or the
scale is no finer than one. -/
theorem units_nearestRatio_mod {n : Nat} (finite : nearestRatio n 1 < infinity) :
    units (nearestRatio n 1) % 2 ^ 1074 = 0 := by
  apply Nat.mod_eq_zero_of_dvd
  by_cases coarse : 1074 ≤ (n * 2 ^ 1074).log2 - 52
  · rw [(split_nearestRatio finite).units]
    exact Nat.dvd_mul_left_of_dvd (Nat.pow_dvd_pow 2 coarse) _
  · have multiple := Nat.dvd_mul_left_of_dvd (Nat.pow_dvd_pow 2 (Nat.le_of_not_le coarse)) n
    rw [units_nearestRatio_of_dvd finite multiple]
    exact Nat.dvd_mul_left _ _

/-! ## Integers of so many bits -/

theorem scale_le {n bits : Nat} (small : n < 2 ^ bits) (shift : Nat) :
    (n * 2 ^ shift).log2 - 52 ≤ bits + shift - 53 := by
  by_cases zero : n = 0
  · simp [zero]
  · have size : (n * 2 ^ shift).log2 < bits + shift := by
      rw [Nat.log2_lt (Nat.mul_ne_zero zero (NeZero.ne _)), Nat.pow_add]
      exact Nat.mul_lt_mul_of_pos_right small (Nat.two_pow_pos _)
    omega

/-- An integer of at most 53 bits is a multiple of its scale, and so is the power of two that
comes after them. -/
theorem scale_dvd {n : Nat} (small : n ≤ 2 ^ 53) (shift : Nat) :
    2 ^ ((n * 2 ^ shift).log2 - 52) ∣ n * 2 ^ shift := by
  rcases Nat.lt_or_eq_of_le small with less | rfl
  · have scale := scale_le less shift
    exact Nat.dvd_mul_left_of_dvd (Nat.pow_dvd_pow 2 (by omega)) n
  · rw [← Nat.pow_add, Nat.log2_two_pow]
    exact Nat.pow_dvd_pow 2 (Nat.sub_le _ _)

theorem units_nearestRatio_of_le {n : Nat} (small : n ≤ 2 ^ 53) (finite : nearestRatio n 1 < infinity) :
    units (nearestRatio n 1) = n * 2 ^ 1074 :=
  units_nearestRatio_of_dvd finite (scale_dvd small 1074)

theorem nearestRatio_lt_infinity {n : Nat} (small : n < 2 ^ 64) : nearestRatio n 1 < infinity := by
  have scale : (n * 2 ^ 1074).log2 - 52 ≤ 1085 := scale_le small 1074
  have sig := (split_steps (n * 2 ^ 1074)).le
  simp only [nearestRatio, Nat.div_one, Nat.one_mul]
  calc min infinity _ ≤ _ := Nat.min_le_right _ _
    _ ≤ 1085 * 2 ^ 52 + 2 ^ 53 := Nat.add_le_add (Nat.mul_le_mul_right _ scale) sig
    _ < infinity := by decide

end Binary64

end RuleWatch
