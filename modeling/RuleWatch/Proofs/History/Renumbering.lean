import Mathlib.Logic.Equiv.Basic
import RuleWatch.Proofs.History.Log
/-!
  Records under other numbers. What recording an outcome makes of the records of a rule
  depends on the other rules only by the number that the new record gets. Hence the
  outcomes of two rules can be recorded in either order: the histories differ in
  nothing but that the two new numbers are exchanged (`History.record_comm`).
-/

namespace RuleWatch

namespace Record

/-- The record under another number. -/
def renumber (f : Nat → Nat) (r : Record) : Record := { r with sequence := f r.sequence }

theorem map_renumber_eq_self {f : Nat → Nat} {records : List Record}
    (fixed : ∀ r ∈ records, f r.sequence = r.sequence) : records.map (renumber f) = records := by
  refine (List.map_congr_left ?_).trans (List.map_id records)
  intro r hr
  rw [renumber, fixed r hr]
  rfl

end Record

namespace Streak

def renumber (f : Nat → Nat) (s : Streak) : Streak where
  outcome := s.outcome
  records := s.records.map (Record.renumber f)
  same := List.forall_mem_map.2 s.same

theorem eq_of_records {s t : Streak} (outcome : s.outcome = t.outcome) (records : s.records = t.records) :
    s = t := by
  cases s
  cases t
  cases outcome
  cases records
  rfl

@[simp] theorem size_renumber (f : Nat → Nat) (s : Streak) : (s.renumber f).size = s.size :=
  List.length_map _

@[simp] theorem renumber_id (s : Streak) : s.renumber id = s :=
  eq_of_records rfl (List.map_id s.records)

end Streak

namespace History

/-- The history with other numbers at its records. It has counted as many. -/
def renumber (f : Nat → Nat) (h : History) : History :=
  ⟨h.slots.map fun _ records => records.map (Record.renumber f), h.sequence⟩

theorem getElem?_slots_renumber (f : Nat → Nat) (h : History) (rule : RuleId) :
    (h.renumber f).slots[rule]? = h.slots[rule]?.map (List.map (Record.renumber f)) :=
  Std.ExtTreeMap.getElem?_map

theorem of_renumber (f : Nat → Nat) (h : History) (rule : RuleId) :
    (h.renumber f).of rule = (h.of rule).map (Record.renumber f) := by
  rw [of, of, getElem?_slots_renumber]
  cases h.slots[rule]? <;> rfl

@[simp] theorem renumber_id (h : History) : h.renumber id = h := by
  have slots : (h.renumber id).slots = h.slots := by
    apply Std.ExtTreeMap.ext_getElem?
    intro rule
    rw [getElem?_slots_renumber]
    cases h.slots[rule]? with
    | none => rfl
    | some records => exact congrArg some (Record.map_renumber_eq_self fun _ _ => rfl)
  exact congrArg (History.mk · h.sequence) slots

/-- What a count has issued behind another one: exchanged, if it is two numbers. -/
def exchange (before after : Nat) : Nat → Nat :=
  if after = before + 2 then Equiv.swap (before + 1) (before + 2) else id

/-! ## Recording in another history -/

theorem getElem?_slots_record (h : History) (rule other : RuleId) (bound : Bound) (result : Bool)
    (now : Instant) :
    (h.record rule bound result now).history.slots[other]? =
      if rule = other then some ((h.record rule bound result now).history.of rule) else h.slots[other]? := by
  rw [of_record, if_pos rfl]
  simp only [record, Std.ExtTreeMap.getElem?_insert, Std.LawfulEqCmp.compare_eq_iff_eq]

/-- In two histories that have the same records of a rule, recording an outcome makes
the same of them, up to the number of the new record. -/
theorem record_renumber {h h' : History} {rule : RuleId} {l l' : Log} (k : h.KeepsEnd rule l)
    (k' : h'.KeepsEnd rule l') (same : h'.of rule = h.of rule) {f : Nat → Nat}
    (old : ∀ r ∈ h.of rule, f r.sequence = r.sequence) (new : f (h.sequence + 1) = h'.sequence + 1)
    (bound : Bound) (result : Bool) (now : Instant) :
    (h'.record rule bound result now).history.of rule =
        ((h.record rule bound result now).history.of rule).map (Record.renumber f) ∧
      (h'.record rule bound result now).streak = (h.record rule bound result now).streak.renumber f := by
  have made : (h'.record rule bound result now).record =
      (h.record rule bound result now).record.renumber f := by
    show Record.mk rule result (h'.stamp rule now) (h'.sequence + 1) =
      ⟨rule, result, h.stamp rule now, f (h.sequence + 1)⟩
    rw [new, stamp, stamp, same]
  have retained : (h'.record rule bound result now).history.of rule =
      ((h.record rule bound result now).history.of rule).map (Record.renumber f) := by
    rw [of_record, of_record, if_pos rfl, if_pos rfl, k.insert_record, k'.insert_record, same, made,
      List.map_drop, List.map_append, Record.map_renumber_eq_self old]
    simp only [List.length_append, List.map_cons, List.map_nil, List.length_singleton]
  refine ⟨retained, Streak.eq_of_records rfl ?_⟩
  show _ = List.map (Record.renumber f) (h.record rule bound result now).streak.records
  rw [streak_record k', streak_record k, retained, rtakeWhile_map]
  rfl

/-- The outcomes of two rules recorded in either order. -/
theorem record_comm {h : History} (known : ∀ rule, ∃ l, h.KeepsEnd rule l) {a b : RuleId} (differ : a ≠ b)
    (bound bound' : Bound) (result result' : Bool) (now : Instant) :
    let f := Equiv.swap (h.sequence + 1) (h.sequence + 2)
    let first := h.record a bound result now
    let second := first.history.record b bound' result' now
    let first' := h.record b bound' result' now
    let second' := first'.history.record a bound result now
    second'.history = second.history.renumber f ∧ second'.streak = first.streak.renumber f ∧
      first'.streak = second.streak.renumber f := by
  intro f first second first' second'
  obtain ⟨l, k⟩ := known a
  obtain ⟨l', k'⟩ := known b
  have old : ∀ rule, ∀ r ∈ h.of rule, f r.sequence = r.sequence := by
    intro rule r hr
    obtain ⟨_, k⟩ := known rule
    have := k.sequence_le hr
    exact Equiv.swap_apply_of_ne_of_ne (by omega) (by omega)
  have others : first'.history.of a = h.of a := by rw [of_record, if_neg differ.symm]
  have others' : first.history.of b = h.of b := by rw [of_record, if_neg differ]
  have of_a : second'.history.of a = (first.history.of a).map (Record.renumber f) ∧
      second'.streak = first.streak.renumber f :=
    record_renumber k (k.apply (.record b bound' result' now)) others (old a) (Equiv.swap_apply_left _ _)
      bound result now
  have of_b : first'.history.of b = (second.history.of b).map (Record.renumber f) ∧
      first'.streak = second.streak.renumber f :=
    record_renumber (k'.apply (.record a bound result now)) k' others'.symm (others'.symm ▸ old b)
      (Equiv.swap_apply_right _ _) bound' result' now
  refine ⟨?_, of_a.2, of_b.2⟩
  have slots : second'.history.slots = (second.history.renumber f).slots := by
    apply Std.ExtTreeMap.ext_getElem?
    intro rule
    rw [getElem?_slots_renumber, getElem?_slots_record, getElem?_slots_record, getElem?_slots_record,
      getElem?_slots_record]
    by_cases same : a = rule
    · rw [if_pos same, if_neg (same ▸ differ.symm), if_pos same]
      exact congrArg some of_a.1
    · rw [if_neg same]
      by_cases same' : b = rule
      · rw [if_pos same', if_pos same']
        exact congrArg some of_b.1
      · rw [if_neg same', if_neg same', if_neg same]
        cases slot : h.slots[rule]? with
        | none => rfl
        | some records =>
          have fixed := old rule
          rw [of, slot] at fixed
          exact congrArg some (Record.map_renumber_eq_self fixed).symm
  exact congrArg (History.mk · (h.sequence + 2)) slots

end History

end RuleWatch
