import Mathlib.Algebra.Order.Field.Rat
import Mathlib.Order.WithBot
import Mathlib.Tactic.FieldSimp
import Mathlib.Tactic.Linarith
import RuleWatch.Proofs.Number.Nearest
import RuleWatch.Proofs.Number.Numerals
/-!
  Doubles as exact numbers. A double that is not NaN stands for the number that its sign, its
  exponent and its fraction give, or for an infinity (`Binary64.exact`), and doubles compare as
  what they stand for (`Binary64.compare?_exact`). An integer becomes the double nearest to it
  (`Binary64.isNearest_ofInt`), which lies on the same side of any other double as the integer
  does (`Binary64.IsNearest.cmp_eq`).

  All is shown in smallest steps, where a distance is a difference of integers, and carried over
  to the exact numbers by `number_eq` and `abs_sub_le_iff`.
-/

namespace RuleWatch

/-- The exact numbers, with an infinity at either end. -/
abbrev Extended := WithBot (WithTop ℚ)

namespace Extended

def ofRat (q : ℚ) : Extended := (q : WithTop ℚ)

theorem ofRat_lt {p q : ℚ} : ofRat p < ofRat q ↔ p < q := by
  rw [ofRat, ofRat, WithBot.coe_lt_coe, WithTop.coe_lt_coe]

theorem ofRat_inj {p q : ℚ} : ofRat p = ofRat q ↔ p = q := by
  rw [ofRat, ofRat, WithBot.coe_inj, WithTop.coe_inj]

theorem bot_lt_ofRat (q : ℚ) : ⊥ < ofRat q := WithBot.bot_lt_coe _

theorem ofRat_lt_top (q : ℚ) : ofRat q < ⊤ := WithBot.coe_lt_coe.2 (WithTop.coe_lt_top q)

end Extended

namespace Binary64

/-! ## What the bits stand for -/

/-- The lower eleven of the upper twelve bits. -/
def exponent (x : Binary64) : Nat := x.magnitude / 2 ^ 52

/-- The lower 52 bits. -/
def fraction (x : Binary64) : Nat := x.magnitude % 2 ^ 52

/-- The number that a finite double stands for: a power of two as the exponent says, times the
fraction behind a one, or behind a zero for the least exponent. -/
def number (x : Binary64) : ℚ :=
  (if x.isNegative then -1 else 1) *
    if x.exponent = 0 then x.fraction / 2 ^ 52 * (2 : ℚ) ^ (-1022 : ℤ)
    else (1 + x.fraction / 2 ^ 52) * (2 : ℚ) ^ (x.exponent - 1023 : ℤ)

/-- What a double stands for that is not NaN, the infinities lying beyond all numbers. -/
def exact (x : Binary64) : Extended :=
  if x.isFinite then .ofRat x.number else if x.isNegative then ⊥ else ⊤

/-- A finite double as a whole number of smallest steps, with its sign. -/
def steps (x : Binary64) : Int :=
  if x.isNegative then -(units x.magnitude : Int) else units x.magnitude

/-- The bits say how many smallest steps the number is away from zero. -/
theorem number_eq (x : Binary64) : x.number = x.steps / 2 ^ 1074 := by
  have step : (2 : ℚ) ^ 1074 = 2 ^ 52 * 2 ^ 1022 := by rw [← pow_add]
  have least : (2 : ℚ) ^ (-1022 : ℤ) = 1 / 2 ^ 1022 := by
    rw [one_div, ← zpow_natCast, ← zpow_neg]
    rfl
  have split : x.magnitude = 2 ^ 52 * x.exponent + x.fraction := (Nat.div_add_mod ..).symm
  have magnitude : (units x.magnitude : ℚ) / 2 ^ 1074 =
      if x.exponent = 0 then x.fraction / 2 ^ 52 * (2 : ℚ) ^ (-1022 : ℤ)
      else (1 + x.fraction / 2 ^ 52) * (2 : ℚ) ^ (x.exponent - 1023 : ℤ) := by
    unfold units
    rw [step]
    split
    · next low =>
      have subnormal : x.exponent = 0 := by omega
      rw [if_pos subnormal, least, split, subnormal]
      push_cast
      field_simp
      ring
    · next high =>
      have normal : x.exponent ≠ 0 := by
        intro none
        have : x.fraction < 2 ^ 52 := Nat.mod_lt _ (by decide)
        omega
      have scale : (2 : ℚ) ^ (x.exponent - 1023 : ℤ) = 2 ^ (x.exponent - 1) * (2 : ℚ) ^ (-1022 : ℤ) := by
        rw [← zpow_natCast, ← zpow_add₀ (by decide)]
        congr 1
        omega
      rw [if_neg normal, scale, least, ← fraction, ← exponent, Nat.cast_mul, Nat.cast_add, Nat.cast_pow, Nat.cast_pow,
        Nat.cast_ofNat]
      field_simp
  rw [number, ← magnitude, steps]
  split
  · rw [neg_one_mul, Int.cast_neg, Int.cast_natCast, neg_div]
  · rw [one_mul, Int.cast_natCast]

/-! ## The order of what the bits stand for -/

theorem steps_lt_iff (x y : Binary64) : x.steps < y.steps ↔ x.rank < y.rank := by
  have order := units_strictMono.lt_iff_lt (a := x.magnitude) (b := y.magnitude)
  have order' := units_strictMono.lt_iff_lt (a := y.magnitude) (b := x.magnitude)
  have positive := units_strictMono.lt_iff_lt (a := 0) (b := x.magnitude)
  have positive' := units_strictMono.lt_iff_lt (a := 0) (b := y.magnitude)
  rw [show units 0 = 0 from rfl] at positive positive'
  unfold steps rank
  cases x.isNegative <;> cases y.isNegative <;> simp only [Bool.false_eq_true, if_true, if_false] <;> omega

theorem number_lt_iff (x y : Binary64) : x.number < y.number ↔ x.rank < y.rank := by
  rw [number_eq, number_eq, div_lt_div_iff_of_pos_right (by positivity), Int.cast_lt, steps_lt_iff]

/-- The infinities stand at the two ends, and the finite numbers between them. -/
theorem exact_cases {x : Binary64} (number : x.isNaN = false) :
    (x.exact = .ofRat x.number ∧ x.isFinite = true ∧ -(infinity : Int) < x.rank ∧ x.rank < infinity) ∨
      x.exact = ⊥ ∧ x.rank = -(infinity : Int) ∨ x.exact = ⊤ ∧ x.rank = infinity := by
  simp only [isNaN, decide_eq_false_iff_not] at number
  unfold exact rank
  cases finite : x.isFinite with
  | true =>
    rw [isFinite, decide_eq_true_eq] at finite
    refine Or.inl ⟨rfl, rfl, ?_⟩
    split <;> omega
  | false =>
    rw [isFinite, decide_eq_false_iff_not] at finite
    have largest : x.magnitude = infinity := by omega
    rw [largest]
    cases x.isNegative with
    | true => exact Or.inr (Or.inl ⟨rfl, rfl⟩)
    | false => exact Or.inr (Or.inr ⟨rfl, rfl⟩)

/-- Doubles that are not NaN stand in the order of what they stand for. -/
theorem exact_lt_iff {x y : Binary64} (hx : x.isNaN = false) (hy : y.isNaN = false) :
    x.exact < y.exact ↔ x.rank < y.rank := by
  have numbers := number_lt_iff x y
  have large : 0 < infinity := by decide
  rcases exact_cases hx with ⟨ex, -, low, high⟩ | ⟨ex, rx⟩ | ⟨ex, rx⟩ <;>
    rcases exact_cases hy with ⟨ey, -, low', high'⟩ | ⟨ey, ry⟩ | ⟨ey, ry⟩ <;> rw [ex, ey]
  · rw [Extended.ofRat_lt, numbers]
  · exact iff_of_false (WithBot.not_lt_bot _) (by omega)
  · exact iff_of_true (Extended.ofRat_lt_top _) (by omega)
  · exact iff_of_true (Extended.bot_lt_ofRat _) (by omega)
  · exact iff_of_false (WithBot.not_lt_bot _) (by omega)
  · exact iff_of_true bot_lt_top (by omega)
  · exact iff_of_false not_top_lt (by omega)
  · exact iff_of_false not_top_lt (by omega)
  · exact iff_of_false not_top_lt (by omega)

/-- Doubles that are not NaN compare as what they stand for. -/
theorem compare?_exact {x y : Binary64} (hx : x.isNaN = false) (hy : y.isNaN = false) :
    x.compare? y = some (cmp x.exact y.exact) := by
  have ranks : compare x.rank y.rank = cmp x.rank y.rank := (cmp_eq_compare _ _).symm
  rw [compare?, hx, hy, ranks]
  unfold cmp cmpUsing
  simp only [exact_lt_iff hx hy, exact_lt_iff hy hx]
  rfl

/-! ## Integers -/

theorem magnitude_ofMagnitude {m : Nat} (small : m < 2 ^ 63) (negative : Bool) :
    (ofMagnitude negative m).magnitude = m := by
  unfold magnitude ofMagnitude
  rw [UInt64.toNat_ofNat']
  cases negative <;> simp only [Bool.false_eq_true, if_true, if_false] <;> omega

theorem isNegative_ofMagnitude {m : Nat} (small : m < 2 ^ 63) (negative : Bool) :
    (ofMagnitude negative m).isNegative = negative := by
  unfold isNegative ofMagnitude
  rw [UInt64.toNat_ofNat']
  cases negative <;> simp <;> omega

theorem magnitude_ofInt (i : Int) : (ofInt i).magnitude = nearestRatio i.natAbs 1 := by
  apply magnitude_ofMagnitude
  have : nearestRatio i.natAbs 1 ≤ infinity := Nat.min_le_left _ _
  exact Nat.lt_of_le_of_lt this (by decide)

theorem isNegative_ofInt (i : Int) : (ofInt i).isNegative = decide (i < 0) := by
  apply isNegative_ofMagnitude
  have : nearestRatio i.natAbs 1 ≤ infinity := Nat.min_le_left _ _
  exact Nat.lt_of_le_of_lt this (by decide)

/-- An integer never becomes NaN. -/
theorem isNaN_ofInt (i : Int) : (ofInt i).isNaN = false := by
  rw [isNaN, magnitude_ofInt, decide_eq_false_iff_not, Nat.not_lt]
  exact Nat.min_le_left _ _

theorem isFinite_ofInt {i : Int} (small : i.natAbs < 2 ^ 64) : (ofInt i).isFinite = true := by
  rw [isFinite, magnitude_ofInt, decide_eq_true_eq]
  exact nearestRatio_lt_infinity small

theorem mul_two_pow (i : Int) (k : Nat) :
    i * 2 ^ k = if i < 0 then -((i.natAbs * 2 ^ k : Nat) : Int) else (i.natAbs * 2 ^ k : Nat) := by
  rw [Int.natCast_mul, Int.natCast_pow, ← Int.neg_mul, ← ite_mul]
  congr 1
  split <;> omega

/-- What an integer becomes, with its sign. -/
theorem steps_ofInt (i : Int) :
    (ofInt i).steps =
      if i < 0 then -(units (nearestRatio i.natAbs 1) : Int) else units (nearestRatio i.natAbs 1) := by
  rw [steps, isNegative_ofInt, magnitude_ofInt]
  simp only [decide_eq_true_eq]

theorem sub_eq (x : Binary64) (i : Int) : x.number - i = (x.steps - i * 2 ^ 1074 : Int) / 2 ^ 1074 := by
  have steps : (0 : ℚ) < 2 ^ 1074 := by positivity
  rw [number_eq, Int.cast_sub, Int.cast_mul, Int.cast_pow, Int.cast_ofNat, sub_div, mul_div_cancel_right₀ _ steps.ne']

/-- An integer of at most 53 bits stays what it is, and so does the power of two behind them. -/
theorem number_ofInt {i : Int} (small : i.natAbs ≤ 2 ^ 53) : (ofInt i).number = i := by
  have whole : (ofInt i).steps = i * 2 ^ 1074 := by
    rw [steps_ofInt, units_nearestRatio_of_le small (nearestRatio_lt_infinity (by omega)), mul_two_pow]
  rw [← sub_eq_zero, sub_eq, whole, sub_self, Int.cast_zero, zero_div]

/-- The distances of two doubles from an integer, in steps and as numbers. -/
theorem abs_sub_le_iff (x y : Binary64) (i : Int) :
    |x.number - i| ≤ |y.number - i| ↔ (x.steps - i * 2 ^ 1074).natAbs ≤ (y.steps - i * 2 ^ 1074).natAbs := by
  have steps : (0 : ℚ) < |2 ^ 1074| := by positivity
  rw [sub_eq, sub_eq, abs_div, abs_div, div_le_div_iff_of_pos_right steps, ← Int.cast_abs, ← Int.cast_abs,
    Int.cast_le, Int.abs_eq_natAbs, Int.abs_eq_natAbs, Int.ofNat_le]

/-- No double is nearer to an integer than what the integer becomes, on either side of zero. -/
theorem steps_ofInt_nearest {i : Int} (small : i.natAbs < 2 ^ 64) (y : Binary64) :
    ((ofInt i).steps - i * 2 ^ 1074).natAbs ≤ (y.steps - i * 2 ^ 1074).natAbs ∧
      ((y.steps - i * 2 ^ 1074).natAbs = ((ofInt i).steps - i * 2 ^ 1074).natAbs →
        y.steps = (ofInt i).steps ∨ (ofInt i).magnitude % 2 = 0) := by
  have finite := nearestRatio_lt_infinity small
  obtain ⟨nearest, even⟩ := nearestRatio_nearest finite y.magnitude
  -- a double on the other side of zero lies farther away than zero
  obtain ⟨nearest', even'⟩ := nearestRatio_nearest finite 0
  rw [steps_ofInt, steps, magnitude_ofInt, mul_two_pow]
  generalize nearestRatio i.natAbs 1 = taken at *
  generalize i.natAbs * 2 ^ 1074 = whole at *
  rw [show units 0 = 0 from rfl] at nearest' even'
  unfold Nat.dist at nearest even nearest' even'
  by_cases negative : i < 0 <;> cases y.isNegative <;>
    simp only [negative, Bool.false_eq_true, if_true, if_false] <;> omega

/-- **The nearest double.** Of all finite doubles none is nearer to the number, and if another
is as near, the last bit is zero. -/
structure IsNearest (x : Binary64) (q : ℚ) : Prop where
  finite : x.isFinite = true
  nearest : ∀ y : Binary64, y.isFinite = true → |x.number - q| ≤ |y.number - q|
  even : ∀ y : Binary64, y.isFinite = true → |y.number - q| = |x.number - q| →
    y.number = x.number ∨ x.bits.toNat % 2 = 0

/-- **What an integer becomes is nearest to it.** -/
theorem isNearest_ofInt {i : Int} (small : i.natAbs < 2 ^ 64) : (ofInt i).IsNearest i where
  finite := isFinite_ofInt small
  nearest y _ := (abs_sub_le_iff _ _ i).2 (steps_ofInt_nearest small y).1
  even y _ same := by
    have closer := (abs_sub_le_iff y (ofInt i) i).1 same.le
    obtain ⟨nearest, even⟩ := steps_ofInt_nearest small y
    rcases even (Nat.le_antisymm closer nearest) with equal | even
    · exact Or.inl (by rw [number_eq, number_eq, equal])
    · rw [magnitude] at even
      exact Or.inr (by omega)

/-! ## Beside the nearest double -/

section
variable {x y : Binary64} {q : ℚ} (near : x.IsNearest q) (number : y.isNaN = false)
include near

theorem IsNearest.exact_eq : x.exact = .ofRat x.number := if_pos near.finite

include number

/-- A number is below what the double nearest to it is below. -/
theorem IsNearest.lt_of_lt (less : x.exact < y.exact) : .ofRat q < y.exact := by
  rw [near.exact_eq] at less
  rcases exact_cases number with ⟨ey, finite, -⟩ | ⟨ey, -⟩ | ⟨ey, -⟩ <;> rw [ey] at less ⊢
  · rw [Extended.ofRat_lt] at less ⊢
    by_contra beyond
    have nearest := near.nearest y finite
    rw [abs_of_nonpos (by linarith), abs_of_nonpos (by linarith)] at nearest
    linarith
  · exact absurd less not_lt_bot
  · exact Extended.ofRat_lt_top q

/-- A number is above what the double nearest to it is above. -/
theorem IsNearest.gt_of_gt (more : y.exact < x.exact) : y.exact < .ofRat q := by
  rw [near.exact_eq] at more
  rcases exact_cases number with ⟨ey, finite, -⟩ | ⟨ey, -⟩ | ⟨ey, -⟩ <;> rw [ey] at more ⊢
  · rw [Extended.ofRat_lt] at more ⊢
    by_contra beyond
    have nearest := near.nearest y finite
    rw [abs_of_nonneg (by linarith), abs_of_nonneg (by linarith)] at nearest
    linarith
  · exact Extended.bot_lt_ofRat q
  · exact absurd more not_top_lt

/-- The double nearest to a number compares as the number does, except with its equals. -/
theorem IsNearest.cmp_eq (apart : x.exact ≠ y.exact) : cmp x.exact y.exact = cmp (.ofRat q) y.exact := by
  rcases apart.lt_or_gt with less | more
  · rw [less.cmp_eq_lt, (near.lt_of_lt number less).cmp_eq_lt]
  · rw [more.cmp_eq_gt, (near.gt_of_gt number more).cmp_eq_gt]

end

theorem eq_of_rank_eq {x y : Binary64} (same : x.rank = y.rank) (nonzero : y.magnitude ≠ 0) : x = y := by
  unfold rank at same
  have parts : x.isNegative = y.isNegative ∧ x.magnitude = y.magnitude := by
    cases hx : x.isNegative <;> cases hy : y.isNegative <;>
      simp only [hx, hy, Bool.false_eq_true, if_true, if_false] at same <;>
      constructor <;> first | rfl | omega
  rw [← ofMagnitude_magnitude x, ← ofMagnitude_magnitude y, parts.1, parts.2]

/-- Only one double has the exact value that an integer becomes, zero apart. -/
theorem eq_ofInt {i : Int} (small : i.natAbs < 2 ^ 64) (nonzero : i ≠ 0) {x : Binary64} (number : x.isNaN = false)
    (same : x.exact = (ofInt i).exact) : x = ofInt i := by
  apply eq_of_rank_eq
  · have notLess := exact_lt_iff number (isNaN_ofInt i)
    have notMore := exact_lt_iff (isNaN_ofInt i) number
    rw [same, lt_self_iff_false, false_iff, not_lt] at notLess notMore
    exact le_antisymm notMore notLess
  · rw [magnitude_ofInt]
    exact (nearestRatio_pos (Int.natAbs_pos.2 nonzero) (nearestRatio_lt_infinity small)).ne'

end Binary64

end RuleWatch
