import RuleWatch.Rule.Identity
import RuleWatch.Time.Instant
import RuleWatch.Value.Basic
/-!
  Records of outcomes, and streaks of equal outcomes.
-/

namespace RuleWatch

/-- One recorded outcome of a rule. -/
structure Record where
  rule : RuleId
  result : Bool
  time : Instant
  /-- Counts the records of all rules, and decides among records of one time. -/
  sequence : Nat
deriving DecidableEq

namespace Record

/-- Records are ordered by time and then by sequence. -/
instance : Ord Record :=
  ⟨fun a b => (compare a.time b.time).then (compare a.sequence b.sequence)⟩

/-- Whether the first record is not after the second. -/
def notAfter (a b : Record) : Bool := (compare a b).isLE

def text (r : Record) : String :=
  "[" ++ r.sequence.repr ++ "] [" ++ r.time.timeOfDay ++ "] " ++ Value.boolText r.result

/-- Puts a record behind all that are not after it. -/
def insert (r : Record) (records : List Record) : List Record :=
  records.takeWhile (·.notAfter r) ++ r :: records.dropWhile (·.notAfter r)

end Record

/-- The newest records of one outcome, with no other outcome between them. -/
structure Streak where
  outcome : Bool
  /-- The records, oldest first. -/
  records : List Record
  same : ∀ r ∈ records, r.result = outcome
deriving DecidableEq

namespace Streak

/-- The streak of an outcome among records in any order. -/
def ofRecords (records : List Record) (outcome : Bool) : Streak where
  outcome
  records :=
    ((records.mergeSort fun a b => b.notAfter a).takeWhile (·.result == outcome)).reverse
  same r hr := by
    have held := (List.all_eq_true.1 (List.all_takeWhile (p := fun r : Record => r.result == outcome))) r
      (List.mem_reverse.1 hr)
    exact eq_of_beq held

def size (s : Streak) : Nat := s.records.length

def isEmpty (s : Streak) : Bool := s.records.isEmpty

/-- The time of the oldest record. -/
def start? (s : Streak) : Option Instant := s.records.head?.map Record.time

def latest? (s : Streak) : Option Record := s.records.getLast?

end Streak

end RuleWatch
