import Mathlib.Tactic.SplitIfs
import Mathlib.Algebra.Order.Ring.Int
import RuleWatch.Time.Calendar
/-!
  Days and dates. Every day has a date, of which it is the day: the year is the one
  whose first day is the last not behind it, and the month likewise within the year.
-/

namespace RuleWatch.Date

theorem isLeap_iff (year : Int) : isLeap year = true ↔ year % 4 = 0 ∧ (year % 100 ≠ 0 ∨ year % 400 = 0) := by
  simp [isLeap]

theorem daysBeforeYear_eq (year : Int) :
    daysBeforeYear year = 365 * (year - 1) + (year - 1) / 4 - (year - 1) / 100 + (year - 1) / 400 := rfl

theorem daysBeforeYear_add_one (year : Int) :
    daysBeforeYear (year + 1) = daysBeforeYear year + if isLeap year then 366 else 365 := by
  rw [daysBeforeYear_eq, daysBeforeYear_eq]
  by_cases leap : isLeap year = true
  · have := (isLeap_iff year).1 leap
    rw [if_pos leap]
    omega
  · have := mt (isLeap_iff year).2 leap
    rw [if_neg leap]
    omega

/-- The months of a year make up the year. -/
theorem sum_monthLengths (year : Int) :
    ((monthLengths year).sum : Int) = daysBeforeYear (year + 1) - daysBeforeYear year := by
  rw [daysBeforeYear_add_one]
  unfold monthLengths
  split_ifs <;> simp

/-- A year has begun and not ended on each of its days. -/
theorem yearOf_spec (n : Int) : daysBeforeYear (yearOf n) ≤ n ∧ n < daysBeforeYear (yearOf n + 1) := by
  -- counting years of equal length misses by one year at most
  have early : daysBeforeYear (n * 400 / 146097 + 1 - 1) ≤ n := by
    rw [daysBeforeYear_eq]
    omega
  have late : n < daysBeforeYear (n * 400 / 146097 + 1 + 1 + 1) := by
    rw [daysBeforeYear_eq]
    omega
  unfold yearOf
  dsimp only
  split_ifs with before behind
  · exact ⟨early, by simpa using before⟩
  · exact ⟨behind, late⟩
  · exact ⟨by omega, by omega⟩

/-- A day within some months lies in one of them. -/
theorem monthAndDay_spec {n : Nat} {lengths : List Nat} (within : n < lengths.sum) (month : Nat) :
    ∃ k length, lengths[k]? = some length ∧ (lengths.take k).sum ≤ n ∧ n < (lengths.take k).sum + length ∧
      monthAndDay month lengths n = (month + k, n - (lengths.take k).sum + 1) := by
  induction lengths generalizing n month with
  | nil => simp at within
  | cons length rest ih =>
    rw [monthAndDay]
    by_cases first : n < length
    · exact ⟨0, length, rfl, by simp, by simpa using first, by simp [first]⟩
    · rw [List.sum_cons] at within
      obtain ⟨k, long, found, least, most, same⟩ := ih (n := n - length) (by omega) (month + 1)
      refine ⟨k + 1, long, found, ?_, ?_, ?_⟩
      · rw [List.take_succ_cons, List.sum_cons]
        omega
      · rw [List.take_succ_cons, List.sum_cons]
        omega
      · rw [if_neg first, same, List.take_succ_cons, List.sum_cons, Prod.mk.injEq]
        omega

theorem isValid_bounds {d : Date} (h : d.isValid = true) :
    (1 ≤ d.month ∧ d.month ≤ 12) ∧ 1 ≤ d.day ∧ d.day ≤ 31 := by
  have longest (k : Nat) : ((monthLengths d.year)[k]?).getD 0 ≤ 31 := by
    cases found : (monthLengths d.year)[k]? with
    | none => exact Nat.zero_le _
    | some length =>
      have among := List.mem_of_getElem? found
      unfold monthLengths at among
      simp only [List.mem_cons, List.not_mem_nil, or_false] at among
      rw [Option.getD_some]
      split_ifs at among <;> omega
  have := longest (d.month - 1)
  simp only [isValid, Bool.and_eq_true, decide_eq_true_eq] at h
  omega

/-- Every day has a date, which is one of the calendar. -/
theorem ofDays_spec (days : Int) : (ofDays days).days = days ∧ (ofDays days).isValid = true := by
  obtain ⟨least, most⟩ := yearOf_spec (days + epoch)
  have sum := sum_monthLengths (yearOf (days + epoch))
  have within : (days + epoch - daysBeforeYear (yearOf (days + epoch))).toNat <
      (monthLengths (yearOf (days + epoch))).sum := by omega
  obtain ⟨k, length, found, from_, to_, same⟩ := monthAndDay_spec within 1
  have month : k < 12 := (List.getElem?_eq_some_iff.1 found).1
  have date : ofDays days = ⟨yearOf (days + epoch), 1 + k, (days + epoch -
      daysBeforeYear (yearOf (days + epoch))).toNat -
        ((monthLengths (yearOf (days + epoch))).take k).sum + 1⟩ := by
    rw [ofDays]
    simp only [same]
  rw [date]
  refine ⟨?_, ?_⟩
  · simp only [Date.days, Nat.add_sub_cancel_left, ← List.sum_eq_foldr]
    omega
  · simp only [isValid, Nat.add_sub_cancel_left, found, Option.getD_some, Bool.and_eq_true, decide_eq_true_eq]
    omega

end RuleWatch.Date
