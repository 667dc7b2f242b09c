import RuleWatch.Proofs.History.Order
/-!
  Streaks of records in any order. Where no two records have one time and one sequence, there
  is one way only to sort them, and the streak of an outcome is the longest end of the sorted
  records without any other outcome (`Streak.ofRecords_trailing`): however the records are
  handed in, and however they are sorted. The newest of all records ends the streak of its
  own outcome, and the other outcome has none.
-/

namespace RuleWatch

namespace Record

/-- The records from the earliest on. -/
def ascending (records : List Record) : List Record := records.mergeSort Record.notAfter

/-- No two of the records have one time and one sequence. -/
def Untied (records : List Record) : Prop :=
  records.Pairwise fun a b => (a.time, a.sequence) ≠ (b.time, b.sequence)

theorem ascending_perm (records : List Record) : (ascending records).Perm records :=
  List.mergeSort_perm _ _

theorem Untied.perm {records others : List Record} (untied : Untied records) (perm : records.Perm others) :
    Untied others :=
  List.Pairwise.perm untied perm fun h => h.symm

theorem before_of_notAfter {a b : Record} (h : a.notAfter b = true)
    (differ : (a.time, a.sequence) ≠ (b.time, b.sequence)) : a.Before b := by
  rw [before_iff]
  rw [notAfter_iff] at h
  rcases h with earlier | ⟨time, sequence⟩
  · exact Or.inl earlier
  · have other : a.sequence ≠ b.sequence := fun same => differ (Prod.ext time same)
    exact Or.inr ⟨time, by omega⟩

theorem le_of_before {a b : Record} (h : a.Before b) : a.time ≤ b.time := by
  rw [before_iff, Instant.compare_eq_lt] at h
  rw [Instant.le_iff]
  rcases h with (earlier | ⟨seconds, nanos⟩) | ⟨time, -⟩
  · exact Or.inl earlier
  · exact Or.inr ⟨seconds, Nat.le_of_lt nanos⟩
  · exact Or.inr ⟨congrArg Instant.seconds time, Nat.le_of_eq (congrArg Instant.nanos time)⟩

/-- Records that are sorted, and of which no two stand at one place, are in strict order. -/
theorem Untied.pairwise_before {records : List Record} (untied : Untied records)
    (order : records.Pairwise fun a b => a.notAfter b = true) : records.Pairwise Before :=
  (order.and untied).imp fun both => before_of_notAfter both.1 both.2

theorem Untied.ascending_before {records : List Record} (untied : Untied records) :
    (ascending records).Pairwise Before := by
  apply (untied.perm (ascending_perm records).symm).pairwise_before
  apply List.pairwise_mergeSort
  · intro a b c
    exact notAfter_trans
  · exact notAfter_total

end Record

/-- In front of a longest end stands what does not belong to it. -/
theorem LongestEnd.stops {α : Type} {p : α → Prop} {l tail : List α} (h : LongestEnd p l tail)
    (shorter : tail.length < l.length) : ∃ front x, l = front ++ x :: tail ∧ ¬ p x := by
  obtain ⟨⟨front, rfl⟩, same, top⟩ := h
  rcases List.eq_nil_or_concat front with rfl | ⟨front, x, rfl⟩
  · exact absurd shorter (Nat.lt_irrefl _)
  · refine ⟨front, x, by simp, ?_⟩
    intro also
    have longer := top (x :: tail) ⟨front, by simp⟩ (List.forall_mem_cons.2 ⟨also, same⟩)
    exact absurd longer.length_le (by simp)

namespace Streak

variable {records : List Record}

theorem ext {s t : Streak} (outcome : s.outcome = t.outcome) (records : s.records = t.records) : s = t := by
  cases s
  cases t
  simp_all

theorem records_of_untied (untied : Record.Untied records) (outcome : Bool) :
    (ofRecords records outcome).records = (Record.ascending records).rtakeWhile (·.result == outcome) :=
  records_ofRecords (Record.ascending_perm records).symm untied.ascending_before outcome

/-- In whatever order the records are handed in, the streak is the same. -/
theorem ofRecords_perm (untied : Record.Untied records) {others : List Record} (perm : others.Perm records)
    (outcome : Bool) : ofRecords others outcome = ofRecords records outcome := by
  refine ext rfl ?_
  rw [records_of_untied untied,
    records_ofRecords (perm.trans (Record.ascending_perm records).symm) untied.ascending_before]

/-- However the records are sorted, the newest first, the streak is what is read off in front. -/
theorem records_of_sorting (untied : Record.Untied records) {newest : List Record} (perm : newest.Perm records)
    (order : newest.Pairwise fun a b => b.notAfter a = true) (outcome : Bool) :
    (ofRecords records outcome).records = (newest.takeWhile (·.result == outcome)).reverse := by
  have turned : newest.reverse.Perm records := (List.reverse_perm newest).trans perm
  have before : newest.reverse.Pairwise Record.Before :=
    (untied.perm turned.symm).pairwise_before (List.pairwise_reverse.2 order)
  rw [records_ofRecords turned.symm before, List.rtakeWhile_reverse]

/-- A streak starts at the earliest time in it. -/
theorem start_earliest {s : Streak} (order : s.records.Pairwise Record.Before) (some_records : s.records ≠ []) :
    ∃ start, s.start? = some start ∧ (∃ r ∈ s.records, r.time = start) ∧ ∀ r ∈ s.records, start ≤ r.time := by
  obtain ⟨first, rest, all⟩ := List.exists_cons_of_ne_nil some_records
  rw [all] at order ⊢
  refine ⟨first.time, by rw [start?, all]; rfl, ⟨first, List.mem_cons_self, rfl⟩, ?_⟩
  refine List.forall_mem_cons.2 ⟨Instant.le_refl _, ?_⟩
  exact fun r hr => Record.le_of_before ((List.pairwise_cons.1 order).1 r hr)

/-- **The streak is the trailing run, whatever the order.** For records of which no two have
one time and one sequence, sorted by time and then by sequence:

* the streak of an outcome is the longest end of the sorted records with no other outcome, in
  that order, and it is the same for every order that the records are handed in and for every
  way of sorting them;
* if it does not hold all records, the one just below has the other outcome;
* if there are records at all, one outcome and no other has a streak; that streak ends with the
  newest of all records, and starts at the earliest time in it. -/
theorem ofRecords_trailing (untied : Record.Untied records) :
    let sorted := Record.ascending records
    (sorted.Perm records ∧ sorted.Pairwise Record.Before) ∧
    (∀ outcome, (ofRecords records outcome).outcome = outcome ∧
      LongestEnd (·.result = outcome) sorted (ofRecords records outcome).records) ∧
    (∀ others, others.Perm records → ∀ outcome, ofRecords others outcome = ofRecords records outcome) ∧
    (∀ newest : List Record, newest.Perm records → newest.Pairwise (fun a b => b.notAfter a = true) →
      ∀ outcome, (ofRecords records outcome).records = (newest.takeWhile (·.result == outcome)).reverse) ∧
    (∀ outcome, (ofRecords records outcome).size < records.length →
      ∃ front below, sorted = front ++ below :: (ofRecords records outcome).records ∧ below.result = !outcome) ∧
    (records ≠ [] → ∃ outcome,
      let streak := ofRecords records outcome
      streak.records ≠ [] ∧ (ofRecords records (!outcome)).records = [] ∧
      (∃ newest ∈ records, streak.latest? = some newest ∧ ∀ r ∈ records, r = newest ∨ r.Before newest) ∧
      ∃ start, streak.start? = some start ∧
        (∃ r ∈ streak.records, r.time = start) ∧ ∀ r ∈ streak.records, start ≤ r.time) := by
  intro sorted
  have perm : sorted.Perm records := Record.ascending_perm records
  have order : sorted.Pairwise Record.Before := untied.ascending_before
  have trailing : ∀ outcome, (ofRecords records outcome).records = sorted.rtakeWhile (·.result == outcome) :=
    records_of_untied untied
  have longest : ∀ outcome, LongestEnd (·.result = outcome) sorted (ofRecords records outcome).records := by
    intro outcome
    rw [trailing]
    simpa using longestEnd_rtakeWhile (·.result == outcome) sorted
  refine ⟨⟨perm, order⟩, fun outcome => ⟨rfl, longest outcome⟩, fun _ => ofRecords_perm untied,
    fun _ => records_of_sorting untied, ?_, ?_⟩
  · intro outcome shorter
    rw [size, ← perm.length_eq] at shorter
    obtain ⟨front, below, split, differs⟩ := (longest outcome).stops shorter
    exact ⟨front, below, split, Bool.eq_not.2 differs⟩
  · intro some_records
    rcases List.eq_nil_or_concat sorted with none | ⟨front, newest, split⟩
    · rw [none] at perm
      exact absurd perm.nil_eq.symm some_records
    · rw [List.concat_eq_append] at split
      -- the newest record decides which outcome has a streak
      have ends : (ofRecords records newest.result).records =
          front.rtakeWhile (·.result == newest.result) ++ [newest] := by
        rw [trailing, split, List.rtakeWhile_concat_pos _ _ _ (by simp)]
      have some_streak : (ofRecords records newest.result).records ≠ [] := by simp [ends]
      refine ⟨newest.result, some_streak, ?_, ?_, ?_⟩
      · rw [trailing, split, List.rtakeWhile_concat_neg _ _ _ (by simp)]
      · rw [split] at perm order
        refine ⟨newest, perm.mem_iff.1 (by simp), by rw [latest?, ends, List.getLast?_concat], ?_⟩
        intro r hr
        rcases List.mem_append.1 (perm.mem_iff.2 hr) with earlier | last
        · exact Or.inr ((List.pairwise_append.1 order).2.2 r earlier newest (by simp))
        · exact Or.inl (List.mem_singleton.1 last)
      · exact start_earliest (order.sublist (longest _).1.sublist) some_streak

/-- Two records of one time, which the sequence tells apart, and an earlier one of the other
outcome that is handed in between them. -/
theorem ofRecords_trailing_tied_times :
    let record (result : Bool) (seconds : Int) (sequence : Nat) : Record := ⟨.ofNat 1, result, ⟨seconds, 0⟩, sequence⟩
    let records := [record true 5 3, record false 4 9, record true 5 2]
    (ofRecords records true).records = [record true 5 2, record true 5 3] ∧
      ofRecords [record false 4 9, record true 5 2, record true 5 3] true = ofRecords records true ∧
      (ofRecords records false).records = [] := by
  intro record records
  have untied : Record.Untied records := by
    subst records record
    unfold Record.Untied
    decide
  obtain ⟨-, -, permuted, sorted, -⟩ := ofRecords_trailing untied
  have newest : [record true 5 3, record true 5 2, record false 4 9].Perm records := by decide
  have read := sorted _ newest (by decide)
  exact ⟨read true, permuted _ (by decide) true, read false⟩

end Streak

end RuleWatch
