import RuleWatch.Condition.Basic
/-!
  Conditions with other literals. A condition is put together from the same parts again, with
  each literal replaced; what all literals keep, the condition keeps.
-/

namespace RuleWatch.Condition

/-- The literals that stand in a condition. -/
def literals : Condition → List Value
  | const _ => []
  | compare _ _ literal => [literal]
  | truthy _ => []
  | and left right => left.literals ++ right.literals
  | or left right => left.literals ++ right.literals
  | not inner => inner.literals

theorem equals_self {c : Condition} (h : ∀ v ∈ c.literals, v.equals v = true) : c.equals c = true := by
  induction c with
  | const _ => simp [equals]
  | compare field op literal => simp [equals, h literal (by simp [literals])]
  | truthy _ => simp [equals]
  | and left right ihl ihr =>
    obtain ⟨hl, hr⟩ := List.forall_mem_append.1 h
    simp [equals, ihl hl, ihr hr]
  | or left right ihl ihr =>
    obtain ⟨hl, hr⟩ := List.forall_mem_append.1 h
    simp [equals, ihl hl, ihr hr]
  | not inner ih => exact ih h

/-- Two conditions joined, if both are there. -/
def joined (join : Condition → Condition → Condition) (a b : Option Condition) : Option Condition := do
  return join (← a) (← b)

theorem joined_eq_some {join : Condition → Condition → Condition} {a b : Option Condition} {c : Condition} :
    joined join a b = some c ↔ ∃ l r, a = some l ∧ b = some r ∧ join l r = c := by
  cases a <;> cases b <;> simp [joined]

/-- The condition with other literals, if there is one for each. -/
def traverse (f : Value → Option Value) : Condition → Option Condition
  | const outcome => some (const outcome)
  | compare field op literal => (f literal).map (compare field op)
  | truthy field => some (truthy field)
  | and left right => joined and (left.traverse f) (right.traverse f)
  | or left right => joined or (left.traverse f) (right.traverse f)
  | not inner => (inner.traverse f).map not

variable {f : Value → Option Value} {c d : Condition}

theorem traverse_eq_self (h : ∀ v ∈ c.literals, f v = some v) : c.traverse f = some c := by
  induction c with
  | const outcome => rfl
  | compare field op literal =>
    rw [traverse, h literal (by simp [literals])]
    rfl
  | truthy field => rfl
  | and left right ihl ihr =>
    obtain ⟨hl, hr⟩ := List.forall_mem_append.1 h
    rw [traverse, ihl hl, ihr hr]
    rfl
  | or left right ihl ihr =>
    obtain ⟨hl, hr⟩ := List.forall_mem_append.1 h
    rw [traverse, ihl hl, ihr hr]
    rfl
  | not inner ih =>
    rw [traverse, ih h]
    rfl

/-- What every new literal has in common with the one it stands for, they have in common
in their order. -/
theorem map_literals {α : Type} {g : Value → α} (h : ∀ v ∈ c.literals, ∀ w, f v = some w → g w = g v)
    (read : c.traverse f = some d) : d.literals.map g = c.literals.map g := by
  induction c generalizing d with
  | const outcome =>
    cases read
    rfl
  | compare field op literal =>
    obtain ⟨w, back, rfl⟩ := Option.map_eq_some_iff.1 read
    exact congrArg (fun a => [a]) (h literal (by simp [literals]) w back)
  | truthy field =>
    cases read
    rfl
  | and left right ihl ihr =>
    obtain ⟨hl, hr⟩ := List.forall_mem_append.1 h
    obtain ⟨l, r, left_read, right_read, rfl⟩ := joined_eq_some.1 read
    rw [literals, literals, List.map_append, List.map_append, ihl hl left_read, ihr hr right_read]
  | or left right ihl ihr =>
    obtain ⟨hl, hr⟩ := List.forall_mem_append.1 h
    obtain ⟨l, r, left_read, right_read, rfl⟩ := joined_eq_some.1 read
    rw [literals, literals, List.map_append, List.map_append, ihl hl left_read, ihr hr right_read]
  | not inner ih =>
    rw [traverse, Option.map_eq_some_iff] at read
    obtain ⟨i, inner_read, rfl⟩ := read
    have same : i.literals.map g = inner.literals.map g := ih h inner_read
    exact same

end RuleWatch.Condition
