import RuleWatch.Proofs.First
import RuleWatch.Rule.Draft
/-!
  What a draft comes to. A rule that has been built has the actions of its draft, none of
  which waits for no outcome, and retains as many outcomes as the draft says or, if it
  says nothing, as its most patient action waits for (`Draft.Describes`). A draft that is not
  valid is refused for its first fault.
-/

namespace RuleWatch.Draft

variable {ε : Type}

/-! ## The largest threshold -/

theorem foldl_max_le_iff {least bound : Nat} {ns : List Nat} :
    ns.foldl max least ≤ bound ↔ least ≤ bound ∧ ∀ n ∈ ns, n ≤ bound := by
  induction ns generalizing least with
  | nil => simp
  | cons n ns ih => rw [List.foldl_cons, ih, Nat.max_le, List.forall_mem_cons, and_assoc]

theorem foldl_max_mem (least : Nat) (ns : List Nat) : ns.foldl max least ∈ least :: ns := by
  induction ns generalizing least with
  | nil => simp
  | cons n ns ih =>
    have found := ih (max least n)
    rw [List.foldl_cons]
    grind

theorem threshold_le_largestThreshold {d : Draft ε} {a : Action} (h : a ∈ d.actions) :
    a.threshold ≤ d.largestThreshold :=
  (foldl_max_le_iff.1 (Nat.le_refl d.largestThreshold)).2 _ (List.mem_map_of_mem h)

/-- The largest threshold is one, or that of an action. -/
theorem largestThreshold_eq (d : Draft ε) :
    d.largestThreshold = 1 ∨ ∃ a ∈ d.actions, a.threshold = d.largestThreshold := by
  rcases List.mem_cons.1 (foldl_max_mem 1 (d.actions.map Action.threshold)) with one | some_action
  · exact Or.inl one
  · exact Or.inr (List.mem_map.1 some_action)

/-! ## Building -/

/-- When a draft is built, and what the rule is. -/
theorem build_eq_ok {d : Draft ε} {id : RuleId} {rule : Rule ε} :
    d.build id = .ok rule ↔ (∀ a ∈ d.actions, a.threshold ≠ 0) ∧
      ∃ h : 0 < d.retained, rule = ⟨id, d.name, d.condition, d.onTrue, d.onFalse, ⟨d.retained, h⟩⟩ := by
  have checked : d.actions.find? (·.threshold = 0) = none ↔ ∀ a ∈ d.actions, a.threshold ≠ 0 := by
    simp [List.find?_eq_none]
  unfold build
  cases zero : d.actions.find? (·.threshold = 0) with
  | some a =>
    have unchecked : ¬ ∀ a ∈ d.actions, a.threshold ≠ 0 := by
      rw [← checked, zero]
      simp
    simp [unchecked]
  | none =>
    rw [and_iff_right (checked.1 zero)]
    by_cases h : 0 < d.retained <;> simp [h, eq_comm]

theorem actions_of_build {d : Draft ε} {id : RuleId} {rule : Rule ε} (h : d.build id = .ok rule) :
    rule.actions = d.actions := by
  obtain ⟨-, -, rfl⟩ := build_eq_ok.1 h
  rfl

theorem bound_of_build {d : Draft ε} {id : RuleId} {rule : Rule ε} (h : d.build id = .ok rule) :
    rule.bound.size = d.retained := by
  obtain ⟨-, -, rfl⟩ := build_eq_ok.1 h
  rfl

theorem threshold_pos_of_build {d : Draft ε} {id : RuleId} {rule : Rule ε} (h : d.build id = .ok rule)
    {a : Action} (among : a ∈ rule.actions) : 0 < a.threshold := by
  rw [actions_of_build h] at among
  exact Nat.pos_of_ne_zero ((build_eq_ok.1 h).1 a among)

/-! ## Faults -/

/-- Nothing in the draft is zero. -/
structure Valid (d : Draft ε) : Prop where
  thresholds : ∀ a ∈ d.actions, a.threshold ≠ 0
  history : d.history ≠ some 0

/-- Why a draft is refused: for its first action that waits for no outcome or, if there is
none, because it retains no outcome. -/
inductive Fault (d : Draft ε) : RuleError → Prop where
  | zeroThreshold {a : Action} (first : FirstWith (·.threshold = 0) d.actions a) :
      Fault d (.zeroThreshold d.name a.name)
  | zeroHistory (thresholds : ∀ a ∈ d.actions, a.threshold ≠ 0) (history : d.history = some 0) :
      Fault d (.zeroHistory d.name)

theorem Fault.unique {d : Draft ε} {e e' : RuleError} (h : d.Fault e) (k : d.Fault e') : e = e' := by
  cases h with
  | zeroThreshold first =>
    cases k with
    | zeroThreshold first' => rw [first.unique first']
    | zeroHistory thresholds => exact absurd first.1 (thresholds _ first.mem)
  | zeroHistory thresholds =>
    cases k with
    | zeroThreshold first => exact absurd first.1 (thresholds _ first.mem)
    | zeroHistory => rfl

theorem retained_pos_iff {d : Draft ε} : 0 < d.retained ↔ d.history ≠ some 0 := by
  have one : 1 ≤ d.largestThreshold := (foldl_max_le_iff.1 (Nat.le_refl d.largestThreshold)).1
  unfold retained
  cases d.history with
  | none => simpa using Nat.lt_of_succ_le one
  | some n => simp [Nat.pos_iff_ne_zero]

theorem valid_iff_build {d : Draft ε} (id : RuleId) : d.Valid ↔ ∃ rule, d.build id = .ok rule := by
  refine ⟨?_, ?_⟩
  · intro valid
    exact ⟨_, build_eq_ok.2 ⟨valid.thresholds, retained_pos_iff.2 valid.history, rfl⟩⟩
  · intro built
    obtain ⟨rule, built⟩ := built
    obtain ⟨thresholds, retained, -⟩ := build_eq_ok.1 built
    exact ⟨thresholds, retained_pos_iff.1 retained⟩

theorem fault_of_build {d : Draft ε} {id : RuleId} {e : RuleError} (h : d.build id = .error e) : d.Fault e := by
  unfold build at h
  cases zero : d.actions.find? (·.threshold = 0) with
  | some a =>
    rw [zero] at h
    cases h
    exact .zeroThreshold (FirstWith.find?_eq_some_iff.1 zero)
  | none =>
    rw [zero] at h
    by_cases retained : 0 < d.retained
    · simp [retained] at h
    · simp only [retained, dite_false, Except.error.injEq] at h
      subst h
      refine .zeroHistory (by simpa [List.find?_eq_none] using zero) ?_
      rwa [retained_pos_iff, ne_eq, Classical.not_not] at retained

/-! ## What is built -/

/-- The rule is what the draft says. -/
structure Describes (d : Draft ε) (rule : Rule ε) : Prop where
  name : rule.name = d.name
  condition : rule.condition = d.condition
  onTrue : rule.onTrue = d.onTrue
  onFalse : rule.onFalse = d.onFalse
  noted : ∀ n, d.history = some n → rule.bound.size = n
  /-- Without a note, the bound is the largest threshold, or one if there is no action. -/
  silent : d.history = none →
    d.actions = [] ∧ rule.bound.size = 1 ∨
      (∃ a ∈ d.actions, a.threshold = rule.bound.size) ∧ ∀ a ∈ d.actions, a.threshold ≤ rule.bound.size

theorem describes_of_build {d : Draft ε} {id : RuleId} {rule : Rule ε} (h : d.build id = .ok rule) :
    d.Describes rule := by
  obtain ⟨thresholds, -, rfl⟩ := build_eq_ok.1 h
  refine ⟨rfl, rfl, rfl, rfl, ?_, ?_⟩
  · intro n noted
    show d.retained = n
    rw [retained, noted, Option.getD_some]
  · intro silent
    show d.actions = [] ∧ d.retained = 1 ∨ (∃ a ∈ d.actions, a.threshold = d.retained) ∧
      ∀ a ∈ d.actions, a.threshold ≤ d.retained
    rw [retained, silent, Option.getD_none]
    have above : ∀ a ∈ d.actions, a.threshold ≤ d.largestThreshold := fun _ => threshold_le_largestThreshold
    rcases d.largestThreshold_eq with one | most
    · cases all : d.actions with
      | nil => exact Or.inl ⟨rfl, one⟩
      | cons a rest =>
        -- a threshold is not zero, and so it is one where none is larger
        have among : a ∈ d.actions := by simp [all]
        have least := thresholds a among
        have most := above a among
        rw [← all]
        exact Or.inr ⟨⟨a, among, by omega⟩, above⟩
    · exact Or.inr ⟨most, above⟩

/-! ## Clauses -/

/-- A draft whose clauses do not speak of the history leaves it open. -/
theorem history_ofClauses (name : String) (condition : ε) {clauses : List Clause}
    (silent : ∀ n, .history n ∉ clauses) : (ofClauses name condition clauses).history = none := by
  suffices main : ∀ d : Draft ε, (clauses.foldl add d).history = d.history from main _
  intro d
  induction clauses generalizing d with
  | nil => rfl
  | cons c rest ih =>
    have others : ∀ n, .history n ∉ rest := fun n among => silent n (List.mem_cons_of_mem c among)
    rw [List.foldl_cons, ih others]
    cases c with
    | onTrue a => rfl
    | onFalse a => rfl
    | history n => exact absurd List.mem_cons_self (silent n)

theorem ofClauses_snoc (name : String) (condition : ε) (clauses : List Clause) (c : Clause) :
    ofClauses name condition (clauses ++ [c]) = (ofClauses name condition clauses).add c := by
  rw [ofClauses, List.foldl_append]
  rfl

/-- A rule whose draft leaves the history open retains as many outcomes as its most patient
action waits for, or one. -/
theorem bound_of_silent {name : String} {condition : ε} {clauses : List Clause} {id : RuleId} {rule : Rule ε}
    (built : (ofClauses name condition clauses).build id = .ok rule) (silent : ∀ n, .history n ∉ clauses) :
    (∀ a ∈ rule.actions, a.threshold ≤ rule.bound.size) ∧
      (rule.bound.size = 1 ∨ ∃ a ∈ rule.actions, a.threshold = rule.bound.size) := by
  have bound : rule.bound.size = (ofClauses name condition clauses).largestThreshold := by
    rw [bound_of_build built, retained, history_ofClauses name condition silent, Option.getD_none]
  rw [bound, actions_of_build built]
  exact ⟨fun _ among => threshold_le_largestThreshold among, largestThreshold_eq _⟩

end RuleWatch.Draft
