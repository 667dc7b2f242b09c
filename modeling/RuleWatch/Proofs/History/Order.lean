import Mathlib.Data.List.DropRight
import Mathlib.Data.List.Pairwise
import RuleWatch.History.Record
/-!
  The order of instants and of records, and what it makes of streaks. Among
  records of which no two stand at one place of that order, a streak is the
  longest end of the sorted records whose outcomes are all the same
  (`Streak.records_ofRecords`), however the records are handed in.
-/

namespace RuleWatch

/-! ## Instants -/

namespace Instant

/-- Whether the first instant is not after the second. -/
instance : LE Instant := ⟨fun a b => (compare a b).isLE⟩

theorem le_iff {a b : Instant} :
    a ≤ b ↔ a.seconds < b.seconds ∨ a.seconds = b.seconds ∧ a.nanos ≤ b.nanos := by
  show ((compare a.seconds b.seconds).then (compare a.nanos b.nanos)).isLE = true ↔ _
  rw [Ordering.isLE_then_iff_or, Int.compare_eq_lt, Int.compare_eq_eq, Nat.isLE_compare]

theorem compare_eq_lt {a b : Instant} :
    compare a b = .lt ↔ a.seconds < b.seconds ∨ a.seconds = b.seconds ∧ a.nanos < b.nanos := by
  show (compare a.seconds b.seconds).then (compare a.nanos b.nanos) = .lt ↔ _
  rw [Ordering.then_eq_lt, Int.compare_eq_lt, Int.compare_eq_eq, Nat.compare_eq_lt]

theorem compare_eq_eq {a b : Instant} : compare a b = .eq ↔ a = b := by
  show (compare a.seconds b.seconds).then (compare a.nanos b.nanos) = .eq ↔ _
  rw [Ordering.then_eq_eq, Int.compare_eq_eq, Nat.compare_eq_eq]
  cases a; cases b; simp

theorem le_refl (a : Instant) : a ≤ a := by rw [le_iff]; omega

theorem le_trans {a b c : Instant} (hab : a ≤ b) (hbc : b ≤ c) : a ≤ c := by
  rw [le_iff] at *; omega

theorem le_latest_left (a b : Instant) : a ≤ a.latest b := by
  unfold latest
  split
  · next h => rw [compare_eq_lt] at h; rw [le_iff]; omega
  · exact le_refl a

theorem le_latest_right (a b : Instant) : b ≤ a.latest b := by
  unfold latest
  split
  · exact le_refl b
  · next h => rw [compare_eq_lt] at h; rw [le_iff]; omega

theorem latest_eq_or (a b : Instant) : a.latest b = a ∨ a.latest b = b := by
  unfold latest
  split
  · exact Or.inr rfl
  · exact Or.inl rfl

/-- An instant is the latest of some readings. -/
def IsLatest (t : Instant) (readings : List Instant) : Prop :=
  t ∈ readings ∧ ∀ u ∈ readings, u ≤ t

end Instant

/-! ## Records -/

namespace Record

/-- The first record stands before the second. -/
def Before (a b : Record) : Prop := compare a b = .lt

theorem before_iff {a b : Record} :
    a.Before b ↔ compare a.time b.time = .lt ∨ a.time = b.time ∧ a.sequence < b.sequence := by
  show (compare a.time b.time).then (compare a.sequence b.sequence) = .lt ↔ _
  rw [Ordering.then_eq_lt, Instant.compare_eq_eq, Nat.compare_eq_lt]

/-- A record of no earlier time and of a larger sequence stands behind. -/
theorem before_of_le {a b : Record} (time : a.time ≤ b.time) (sequence : a.sequence < b.sequence) :
    a.Before b := by
  rw [before_iff, Instant.compare_eq_lt]
  rw [Instant.le_iff] at time
  cases ha : a.time; cases hb : b.time
  simp only [ha, hb, Instant.mk.injEq] at *
  omega

theorem notAfter_iff {a b : Record} :
    a.notAfter b = true ↔ compare a.time b.time = .lt ∨ a.time = b.time ∧ a.sequence ≤ b.sequence := by
  show ((compare a.time b.time).then (compare a.sequence b.sequence)).isLE = true ↔ _
  rw [Ordering.isLE_then_iff_or, Instant.compare_eq_eq, Nat.isLE_compare]

theorem notAfter_of_before {a b : Record} (h : a.Before b) : a.notAfter b = true := by
  unfold notAfter
  rw [show compare a b = .lt from h]
  rfl

theorem notAfter_trans {a b c : Record} (hab : a.notAfter b) (hbc : b.notAfter c) :
    a.notAfter c := by
  rw [notAfter_iff, Instant.compare_eq_lt] at *
  cases ha : a.time; cases hb : b.time; cases hc : c.time
  simp only [ha, hb, hc, Instant.mk.injEq] at *
  omega

theorem notAfter_total (a b : Record) : (a.notAfter b || b.notAfter a) = true := by
  rw [Bool.or_eq_true, notAfter_iff, notAfter_iff, Instant.compare_eq_lt, Instant.compare_eq_lt]
  cases a.time; cases b.time
  simp only [Instant.mk.injEq]
  omega

theorem not_before_of_notAfter {a b : Record} (h : b.notAfter a = true) : ¬ a.Before b := by
  intro before
  rw [before_iff] at before
  rw [notAfter_iff] at h
  rw [Instant.compare_eq_lt] at *
  cases ha : a.time; cases hb : b.time
  simp only [ha, hb, Instant.mk.injEq] at *
  omega

/-- Of two different records in a sorted list one stands before the other. -/
theorem before_or_before {sorted : List Record} (order : sorted.Pairwise Before) {a b : Record}
    (ha : a ∈ sorted) (hb : b ∈ sorted) (distinct : a ≠ b) : a.Before b ∨ b.Before a := by
  have symmetric : Std.Symm fun a b : Record => a.Before b ∨ b.Before a := ⟨fun _ _ h => h.symm⟩
  have related : sorted.Pairwise fun a b => a.Before b ∨ b.Before a := order.imp Or.inl
  exact related.forall ha hb distinct

/-- A record behind all others goes to the end. -/
theorem insert_eq_append {r : Record} {records : List Record}
    (h : ∀ a ∈ records, a.notAfter r = true) : r.insert records = records ++ [r] := by
  have kept : records.takeWhile (·.notAfter r) = records :=
    List.takeWhile_eq_self_iff.2 h
  have passed : records.dropWhile (·.notAfter r) = [] := List.dropWhile_eq_nil_iff.2 h
  rw [insert, kept, passed]

end Record

/-! ## Streaks -/

theorem rtakeWhile_map {α β : Type} (f : α → β) (p : β → Bool) (l : List α) :
    (l.map f).rtakeWhile p = (l.rtakeWhile (p ∘ f)).map f := by
  rw [List.rtakeWhile, ← List.map_reverse, List.takeWhile_map, ← List.map_reverse]
  rfl

/-- The longest end of a list all of whose elements have a property. -/
def LongestEnd {α : Type} (p : α → Prop) (l tail : List α) : Prop :=
  tail <:+ l ∧ (∀ x ∈ tail, p x) ∧ ∀ other, other <:+ l → (∀ x ∈ other, p x) → other <:+ tail

theorem longestEnd_rtakeWhile {α : Type} (p : α → Bool) (l : List α) :
    LongestEnd (p · = true) l (l.rtakeWhile p) := by
  refine ⟨List.rtakeWhile_suffix p l, fun x hx => List.mem_rtakeWhile_imp hx, ?_⟩
  intro other ends all
  induction l using List.reverseRecOn generalizing other with
  | nil => rwa [List.rtakeWhile_nil]
  | append_singleton l x ih =>
    rcases List.suffix_concat_iff.1 ends with rfl | ⟨shorter, rfl, ends'⟩
    · exact List.nil_suffix
    · have hx : p x = true := all x (by simp)
      rw [List.rtakeWhile_concat_pos p l x hx]
      obtain ⟨front, e⟩ := ih shorter ends' fun y hy => all y (by simp [hy])
      exact ⟨front, by rw [← e, List.append_assoc]⟩

/-- Sorting the newest first turns sorted records around, in whatever order they
were handed in: no two of them stand at one place, so that there is one way only
to sort them. -/
theorem mergeSort_notAfter_eq_reverse {records sorted : List Record} (perm : records.Perm sorted)
    (order : sorted.Pairwise Record.Before) :
    (records.mergeSort fun a b => b.notAfter a) = sorted.reverse := by
  have down : (records.mergeSort fun a b => b.notAfter a).Pairwise fun a b => b.notAfter a = true := by
    apply List.pairwise_mergeSort
    · intro a b c hab hbc
      exact Record.notAfter_trans hbc hab
    · intro a b
      exact Record.notAfter_total b a
  have down' : sorted.reverse.Pairwise fun a b => b.notAfter a = true :=
    List.pairwise_reverse.2 (order.imp Record.notAfter_of_before)
  have same : (records.mergeSort fun a b => b.notAfter a).Perm sorted.reverse :=
    (List.mergeSort_perm _ _).trans (perm.trans (List.reverse_perm _).symm)
  refine List.Perm.eq_of_pairwise ?_ down down' same
  intro a b ha hb hba hab
  by_contra distinct
  have ha' : a ∈ sorted := perm.mem_iff.1 (List.mem_mergeSort.1 ha)
  have hb' : b ∈ sorted := List.mem_reverse.1 hb
  rcases Record.before_or_before order ha' hb' distinct with h | h
  · exact Record.not_before_of_notAfter hba h
  · exact Record.not_before_of_notAfter hab h

namespace Streak

/-- The streak of an outcome is the longest end of the sorted records that has
no other outcome. -/
theorem records_ofRecords {records sorted : List Record} (perm : records.Perm sorted)
    (order : sorted.Pairwise Record.Before) (outcome : Bool) :
    (ofRecords records outcome).records = sorted.rtakeWhile (·.result == outcome) := by
  show ((records.mergeSort fun a b => b.notAfter a).takeWhile (·.result == outcome)).reverse = _
  rw [mergeSort_notAfter_eq_reverse perm order, List.rtakeWhile]

end Streak

end RuleWatch
