import Std.Data.ExtTreeMap
import RuleWatch.History.Record
import RuleWatch.Rule.Basic
/-!
  The history of outcomes: for each rule its newest records, at most as many as
  its bound, oldest first. Records are counted over all rules. No record is
  stamped earlier than the newest retained one of its rule, so that a clock that
  goes backwards changes no order.
-/

namespace RuleWatch

/-- The retained records of all rules. -/
structure History where
  /-- The records of each rule that has any. -/
  slots : Std.ExtTreeMap RuleId (List Record)
  /-- How many records have been made. -/
  sequence : Nat

namespace History

def empty : History := ⟨∅, 0⟩

/-- The retained records of a rule, oldest first. -/
def of (h : History) (rule : RuleId) : List Record := h.slots[rule]?.getD []

/-- The number of rules with retained records. -/
def size (h : History) : Nat := h.slots.size

def isEmpty (h : History) : Bool := h.slots.isEmpty

/-- The time that a new record of a rule gets. -/
def stamp (h : History) (rule : RuleId) (now : Instant) : Instant :=
  match (h.of rule).getLast? with
  | some newest => now.latest newest.time
  | none => now

/-- What recording an outcome brings about. -/
structure Recording where
  history : History
  record : Record
  /-- How many old records made room. -/
  evicted : Nat
  /-- The streak that the new record ends. -/
  streak : Streak

def record (h : History) (rule : RuleId) (bound : Bound) (result : Bool) (now : Instant) :
    Recording :=
  let record : Record := ⟨rule, result, h.stamp rule now, h.sequence + 1⟩
  let grown := record.insert (h.of rule)
  let evicted := grown.length - bound.size
  let retained := grown.drop evicted
  { history := ⟨h.slots.insert rule retained, h.sequence + 1⟩
    record, evicted
    streak := Streak.ofRecords retained result }

def forget (h : History) (rule : RuleId) : History := { h with slots := h.slots.erase rule }

/-- Whether any records of a rule are retained. -/
def remembers (h : History) (rule : RuleId) : Bool := !(h.of rule).isEmpty

/-- Forgets all records. Counting goes on. -/
def clear (h : History) : History := { h with slots := ∅ }

/-! ## What the records of a rule are after each operation -/

@[simp] theorem of_empty (rule : RuleId) : empty.of rule = [] := by
  simp [of, empty]

/-- Recording puts the new record among those of its rule, drops the oldest
beyond the bound, and touches no other rule. -/
theorem of_record (h : History) (rule other : RuleId) (bound : Bound) (result : Bool)
    (now : Instant) :
    (h.record rule bound result now).history.of other =
      if rule = other then
        let grown := (h.record rule bound result now).record.insert (h.of rule)
        grown.drop (grown.length - bound.size)
      else h.of other := by
  by_cases same : rule = other <;>
    simp [of, record, Std.ExtTreeMap.getElem?_insert, Std.LawfulEqCmp.compare_eq_iff_eq, same]

theorem of_forget (h : History) (rule other : RuleId) :
    (h.forget rule).of other = if rule = other then [] else h.of other := by
  by_cases same : rule = other <;>
    simp [of, forget, Std.ExtTreeMap.getElem?_erase, Std.LawfulEqCmp.compare_eq_iff_eq, same]

@[simp] theorem of_clear (h : History) (rule : RuleId) : h.clear.of rule = [] := by
  simp [of, clear]

/-! ## Text -/

/-- The text of a history: how many rules have records, and how many records
have been made. -/
def text (h : History) : String :=
  "HistoryStore \x7b rules: " ++ h.size.repr ++ ", sequence: " ++ h.sequence.repr ++ ", .. \x7d"

end History

end RuleWatch
