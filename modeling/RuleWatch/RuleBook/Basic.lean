import RuleWatch.Rule.Draft
/-!
  Rule books: rules in a fixed order, no two of one name.
-/

namespace RuleWatch

/-- The earliest name that repeats an earlier one, given the names before. -/
def firstRepeated (before : List String) : List String → Option String
  | [] => none
  | name :: rest => if name ∈ before then some name else firstRepeated (name :: before) rest

/-- Where nothing is repeated, all names are different from each other and from
those before. -/
theorem firstRepeated_eq_none {before names : List String}
    (h : firstRepeated before names = none) :
    names.Nodup ∧ ∀ n ∈ names, n ∉ before := by
  induction names generalizing before with
  | nil => simp
  | cons name rest ih =>
    unfold firstRepeated at h
    split at h
    · simp at h
    · next fresh =>
      obtain ⟨distinct, apart⟩ := ih h
      refine ⟨List.nodup_cons.2 ⟨fun again => apart name again (by simp), distinct⟩, ?_⟩
      intro n hn
      rcases List.mem_cons.1 hn with rfl | hn
      · exact fresh
      · exact fun old => apart n hn (by simp [old])

/-- A collection of rules. -/
structure RuleBook where
  rules : List (Rule Condition)
  distinct : (rules.map Rule.name).Nodup

namespace RuleBook

/-- The book of the given rules, unless two share a name. -/
def ofRules (rules : List (Rule Condition)) : Except RuleError RuleBook :=
  match h : firstRepeated [] (rules.map Rule.name) with
  | some name => .error (.duplicateName name)
  | none => .ok ⟨rules, (firstRepeated_eq_none h).1⟩

/-- The number of rules. -/
def size (b : RuleBook) : Nat := b.rules.length

/-- Whether there are no rules. -/
def isEmpty (b : RuleBook) : Bool := b.rules.isEmpty

/-- The rule of the given name. -/
def get? (b : RuleBook) (name : String) : Option (Rule Condition) :=
  b.rules.find? (·.name == name)

/-- The place of the rule of the given name. -/
def indexOf? (b : RuleBook) (name : String) : Option Nat :=
  b.rules.findIdx? (·.name == name)

/-- The number of actions of all rules. -/
def actionCount (b : RuleBook) : Nat := b.rules.foldr (fun r n => r.actions.length + n) 0

/-- The text of a book: how many rules and actions it holds. -/
def text (b : RuleBook) : String :=
  "RuleBook(" ++ b.size.repr ++ " rules, " ++ b.actionCount.repr ++ " actions)"

end RuleBook

end RuleWatch
