import RuleWatch.Number.Decimal
import RuleWatch.Proofs.Number.Rounding
/-!
  Shortest decimals. What is found for a finite magnitude reads back as that
  magnitude, and it has places if and only if the number is not whole: the places
  of a decimal that reads back as a fraction cannot be missing, and for a whole
  number the search meets a decimal without places before any with them.
-/

namespace RuleWatch.Decimal

open Binary64 (infinity units nearestRatio)

/-! ## What decimals read back as -/

theorem nearest_of_places {digits : Nat} (places : Nat) (nonzero : digits ≠ 0) (some : 0 < places)
    (large : 3 * places ≤ digits.log2 + 1081) :
    nearest ⟨digits, -places⟩ = nearestRatio digits (10 ^ places) := by
  simp only [nearest, if_neg nonzero]
  rw [if_neg (by omega), Int.natAbs_neg, Int.natAbs_natCast, if_neg (by omega)]

theorem nearest_of_whole {digits exponent : Nat} (nonzero : digits ≠ 0) (small : exponent < 309) :
    nearest ⟨digits, exponent⟩ = nearestRatio (digits * 10 ^ exponent) 1 := by
  simp only [nearest, if_neg nonzero]
  rw [if_pos (by omega), if_neg (by omega), Int.toNat_natCast]

theorem nearest_zero (exponent : Int) : nearest ⟨0, exponent⟩ = 0 := by simp [nearest]

theorem nearest_exact {m : Nat} (finite : m < infinity) (nonzero : units m ≠ 0) : (exact m).nearest = m := by
  have large : 2 ^ 2148 ≤ 5 ^ 1074 := by
    rw [show 2148 = 2 * 1074 from rfl, Nat.pow_mul]
    exact Nat.pow_le_pow_left (by decide) _
  have positive : 0 < units m := Nat.pos_of_ne_zero nonzero
  have digits : units m * 5 ^ 1074 ≠ 0 := (Nat.mul_pos positive (Nat.pow_pos (by decide))).ne'
  have bits : 2148 ≤ (units m * 5 ^ 1074).log2 := by
    rw [Nat.le_log2 digits]
    exact Nat.le_trans large (Nat.le_mul_of_pos_left _ positive)
  have read : (exact m).nearest = nearestRatio (units m * 5 ^ 1074) (10 ^ 1074) :=
    nearest_of_places 1074 digits (by decide) (by omega)
  rw [read]
  apply Binary64.nearestRatio_exact finite (Nat.pow_pos (by decide))
  rw [Nat.mul_assoc, ← Nat.mul_pow]

/-- A decimal without places stands for a whole number. -/
theorem units_nearest_mod {d : Decimal} (whole : 0 ≤ d.exponent) (finite : d.nearest < infinity) :
    units d.nearest % 2 ^ 1074 = 0 := by
  by_cases zero : d.digits = 0
  · simp [nearest, zero, units]
  · have small : ¬ 309 ≤ d.exponent := by
      intro large
      simp [nearest, zero, whole, large] at finite
    have read : d.nearest = nearestRatio (d.digits * 10 ^ d.exponent.toNat) 1 := by
      simp only [nearest, if_neg zero, if_pos whole, if_neg small]
    rw [read] at finite ⊢
    exact Binary64.units_nearestRatio_mod finite

/-! ## The grids -/

section
variable {tie : Tie} {m : Nat} {e : Int}

/-- What is found on a grid reads back, and is of that grid. -/
theorem onGrid?_some {d : Decimal} (h : onGrid? tie m e = some d) : d.nearest = m ∧ d.exponent = e := by
  unfold onGrid? at h
  simp only at h
  split at h
  · cases h
  · next low _ =>
    cases h
    exact ⟨of_decide_eq_true low, rfl⟩
  · next _ high =>
    cases h
    exact ⟨of_decide_eq_true high, rfl⟩
  · next low high =>
    -- whichever of the two is taken, it is one that reads back
    have low := of_decide_eq_true low
    have high := of_decide_eq_true high
    repeat' split at h
    all_goals
      cases h
      first | exact ⟨low, rfl⟩ | exact ⟨high, rfl⟩

/-- If the neighbour below reads back, something is found. -/
theorem onGrid?_ne_none {digits : Nat}
    (low : units m * 10 ^ (-e).toNat / (2 ^ 1074 * 10 ^ e.toNat) = digits)
    (read : nearest ⟨digits, e⟩ = m) : onGrid? tie m e ≠ none := by
  intro h
  unfold onGrid? at h
  simp only [low, read, decide_true] at h
  repeat' split at h
  all_goals simp_all

end

/-! ## What the search finds -/

/-- A search over the first numbers finds the first hit. -/
theorem findSome?_range {α : Type} {f : Nat → Option α} {n i : Nat} (less : i < n) (hit : f i ≠ none) :
    ∃ j a, j ≤ i ∧ f j = some a ∧ (List.range n).findSome? f = some a := by
  cases found : (List.range n).findSome? f with
  | none =>
    rw [List.findSome?_eq_none_iff] at found
    exact absurd (found i (List.mem_range.2 less)) hit
  | some a =>
    -- what stands before the hit has been no hit
    obtain ⟨before, j, after, split, is_hit, none⟩ := List.findSome?_eq_some_iff.1 found
    rw [List.range_eq_range', List.range'_eq_append_iff] at split
    obtain ⟨k, -, rfl, rest⟩ := split
    obtain ⟨place, -⟩ := List.range'_eq_cons_iff.1 rest.symm
    refine ⟨j, a, ?_, is_hit, rfl⟩
    by_contra later
    have early : i ∈ List.range' 0 k := by
      rw [List.mem_range'_1]
      omega
    exact hit (none i early)

variable (tie : Tie) {m : Nat}

/-- The exponent of the first digit, or more. -/
def coarsest (m : Nat) : Int := ((units m).log2 - 1074) * 30103 / 100000 + 2

theorem shortest_eq (nonzero : m ≠ 0) :
    shortest tie m =
      ((List.range 24).findSome? fun (i : Nat) => onGrid? tie m (coarsest m - i)).getD (exact m) := by
  rw [shortest, if_neg nonzero]
  rfl

/-- What is found is of some grid, or exact; it reads back in either case. -/
theorem shortest_cases (nonzero : m ≠ 0) :
    (∃ i : Nat, onGrid? tie m (coarsest m - i) = some (shortest tie m)) ∨ shortest tie m = exact m := by
  rw [shortest_eq tie nonzero]
  cases found : (List.range 24).findSome? fun (i : Nat) => onGrid? tie m (coarsest m - i) with
  | none => exact Or.inr rfl
  | some d =>
    obtain ⟨i, -, hit⟩ := List.exists_of_findSome?_eq_some found
    exact Or.inl ⟨i, hit⟩

theorem units_ne_zero (nonzero : m ≠ 0) : units m ≠ 0 := by
  obtain ⟨scale, sig, s, -⟩ := Binary64.exists_split m
  rw [s.units]
  apply Nat.mul_ne_zero _ (Nat.two_pow_pos _).ne'
  intro zero
  rcases s.normal with least | full
  · exact nonzero (by simp [s.sum, least, zero])
  · omega

theorem shortest_nearest (finite : m < infinity) : (shortest tie m).nearest = m := by
  by_cases zero : m = 0
  · subst zero
    exact nearest_zero 0
  · rcases shortest_cases tie zero with ⟨i, hit⟩ | fallback
    · exact (onGrid?_some hit).1
    · rw [fallback]
      exact nearest_exact finite (units_ne_zero zero)

theorem shortest_exponent_neg (finite : m < infinity) (fraction : units m % 2 ^ 1074 ≠ 0) :
    (shortest tie m).exponent < 0 := by
  by_contra whole
  apply fraction
  have read : (shortest tie m).nearest = m := shortest_nearest tie finite
  have := units_nearest_mod (d := shortest tie m) (by omega) (by rwa [read])
  rwa [read] at this

/-! ## Whole numbers -/

theorem nearest_ones {n : Nat} (finite : m < infinity) (nonzero : m ≠ 0) (whole : units m = n * 2 ^ 1074) :
    nearest ⟨n, 0⟩ = m := by
  have some : n ≠ 0 := by
    intro zero
    rw [zero, Nat.zero_mul] at whole
    exact units_ne_zero nonzero whole
  have read : nearest ⟨n, (0 : Nat)⟩ = nearestRatio (n * 10 ^ 0) 1 := nearest_of_whole some (by decide)
  rw [Nat.pow_zero, Nat.mul_one] at read
  refine read.trans (Binary64.nearestRatio_exact finite (by decide) ?_)
  rw [whole, Nat.mul_one]

/-- Powers of ten from powers of two: three digits take ten bits. -/
theorem ten_pow_le (e : Nat) : 10 ^ e ≤ 2 ^ (10 * (e / 3) + 7) := by
  have split : e = 3 * (e / 3) + e % 3 := (Nat.div_add_mod e 3).symm
  have small : e % 3 ≤ 2 := by omega
  calc 10 ^ e = 10 ^ (3 * (e / 3) + e % 3) := by rw [← split]
    _ = (10 ^ 3) ^ (e / 3) * 10 ^ (e % 3) := by rw [Nat.pow_add, Nat.pow_mul]
    _ ≤ (2 ^ 10) ^ (e / 3) * 2 ^ 7 := by
      apply Nat.mul_le_mul
      · exact Nat.pow_le_pow_left (by decide) _
      · exact (Nat.pow_le_pow_right (by decide) small).trans (by decide)
    _ = 2 ^ (10 * (e / 3) + 7) := by rw [Nat.pow_add, Nat.pow_mul]

theorem grid_pos (e : Nat) : 0 < 2 ^ 1074 * 10 ^ e :=
  Nat.mul_pos (Nat.two_pow_pos 1074) (Nat.pow_pos (by decide))

/-- Of a large number the grid `23` below the coarsest is fine enough. -/
theorem nearest_large {e : Nat} (finite : m < infinity) (large : coarsest m = e + 23) :
    nearest ⟨units m / (2 ^ 1074 * 10 ^ e), e⟩ = m := by
  obtain ⟨scale, sig, s, lt⟩ := Binary64.exists_split m
  have bits := s.log2 lt
  have sum := s.sum
  have full : 2 ^ 52 ≤ sig := by
    unfold coarsest at large
    have := s.normal
    omega
  have scale_le : scale ≤ 2045 := by
    unfold infinity at finite
    omega
  have fine : 10 * (e / 3) + 7 + 1076 ≤ scale := by
    unfold coarsest at large
    omega
  -- four units of the grid are at most a unit of the scale
  have unit : 4 * (2 ^ 1074 * 10 ^ e) ≤ 2 ^ scale := by
    calc 4 * (2 ^ 1074 * 10 ^ e) = 2 ^ (2 + 1074) * 10 ^ e := by rw [Nat.pow_add, Nat.mul_assoc]
      _ ≤ 2 ^ (2 + 1074) * 2 ^ (10 * (e / 3) + 7) := Nat.mul_le_mul_left _ (ten_pow_le e)
      _ = 2 ^ (10 * (e / 3) + 7 + 1076) := by rw [← Nat.pow_add, Nat.add_comm]
      _ ≤ 2 ^ scale := Nat.pow_le_pow_right (by decide) fine
  have positive := grid_pos e
  have value (k : Nat) : k * 10 ^ e * 2 ^ 1074 = 2 ^ 1074 * 10 ^ e * k := by
    rw [Nat.mul_assoc, Nat.mul_comm k, Nat.mul_comm (10 ^ e)]
  generalize 2 ^ 1074 * 10 ^ e = den at unit positive value ⊢
  have fits : 2 ^ scale ≤ units m := by
    rw [s.units]
    exact Nat.le_mul_of_pos_left _ (by omega)
  have digits : units m / den ≠ 0 := by
    have : 1 ≤ units m / den := (Nat.one_le_div_iff positive).2 (by omega)
    omega
  have split : den * (units m / den) + units m % den = units m := Nat.div_add_mod _ _
  have rest : units m % den < den := Nat.mod_lt _ positive
  rw [nearest_of_whole digits (by omega)]
  apply Binary64.nearestRatio_of_below s finite full lt (by omega)
  · rw [value]
    omega
  · rw [value]
    omega

theorem shortest_exponent_nonneg (finite : m < infinity) (whole : units m % 2 ^ 1074 = 0) :
    0 ≤ (shortest tie m).exponent := by
  by_cases zero : m = 0
  · subst zero
    exact Int.le_refl 0
  · have nonzero := units_ne_zero zero
    obtain ⟨n, hn⟩ : ∃ n, units m = n * 2 ^ 1074 := by
      obtain ⟨n, h⟩ := Nat.dvd_of_mod_eq_zero whole
      exact ⟨n, h.trans (Nat.mul_comm _ _)⟩
    have bits : 1074 ≤ (units m).log2 := by
      rw [Nat.le_log2 nonzero]
      exact Nat.le_of_dvd (Nat.pos_of_ne_zero nonzero) (Nat.dvd_of_mod_eq_zero whole)
    have positive : 2 ≤ coarsest m := by
      unfold coarsest
      omega
    -- a grid without places is met before any with places
    obtain ⟨i, less, no_places, hit⟩ : ∃ i : Nat, i < 24 ∧ 0 ≤ coarsest m - i ∧
        onGrid? tie m (coarsest m - i) ≠ none := by
      -- up to the coarsest grid 23 the grid of the ones is searched, beyond it the last grid is fine enough
      by_cases low : coarsest m ≤ 23
      · refine ⟨(coarsest m).toNat, by omega, by omega, ?_⟩
        rw [Int.toNat_of_nonneg (by omega), Int.sub_self]
        apply onGrid?_ne_none _ (nearest_ones finite zero hn)
        rw [hn, Int.neg_zero, Int.toNat_zero, Nat.pow_zero, Nat.mul_one, Nat.mul_one]
        exact Nat.mul_div_cancel n (Nat.two_pow_pos 1074)
      · obtain ⟨e, he⟩ : ∃ e : Nat, coarsest m = e + 23 := ⟨(coarsest m - 23).toNat, by omega⟩
        refine ⟨23, by decide, by omega, ?_⟩
        have place : coarsest m - (23 : Nat) = e := by omega
        rw [place]
        apply onGrid?_ne_none _ (nearest_large finite he)
        rw [show (-(e : Int)).toNat = 0 by omega, Int.toNat_natCast, Nat.pow_zero, Nat.mul_one]
    obtain ⟨j, d, before, is_hit, found⟩ :=
      findSome?_range (f := fun (i : Nat) => onGrid? tie m (coarsest m - i)) less hit
    rw [shortest_eq tie zero, found, Option.getD_some, (onGrid?_some is_hit).2]
    omega

end RuleWatch.Decimal
