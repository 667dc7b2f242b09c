import Mathlib.Data.List.Induction
import Mathlib.Order.Bounds.Defs
import RuleWatch.Proofs.Rule.Drafts
import RuleWatch.RuleBook.Loading
/-!
  Building a rule from clauses. It does not matter how the clauses for the two outcomes and
  the notes on the history are mixed: a draft is told by the actions for true, the actions for
  false and the last note (`Draft.ofClauses_eq`). Whether it is built, what the rule is, what is
  told about it and which fault is reported first follow from these three
  (`Draft.build_validates`).
-/

namespace RuleWatch

namespace Clause

/-- The action that a clause adds for an outcome. -/
def action? (outcome : Bool) : Clause → Option Action
  | .onTrue a => if outcome then some a else none
  | .onFalse a => if outcome then none else some a
  | .history _ => none

/-- The number of outcomes to retain that a clause notes. -/
def note? : Clause → Option Nat
  | .history n => some n
  | _ => none

end Clause

namespace Draft

variable {ε : Type}

/-- The actions of each outcome are kept in order, and of the notes the last. -/
theorem ofClauses_eq (name : String) (condition : ε) (clauses : List Clause) :
    ofClauses name condition clauses =
      { name, condition
        onTrue := clauses.filterMap (Clause.action? true)
        onFalse := clauses.filterMap (Clause.action? false)
        history := (clauses.filterMap Clause.note?).getLast? } := by
  induction clauses using List.reverseRecOn with
  | nil => rfl
  | append_singleton clauses c ih =>
    rw [ofClauses_snoc, ih]
    cases c <;> simp [add, Clause.action?, Clause.note?]

/-! ## What is told about a rule that has been built -/

/-- A draft that is refused is told nothing about. -/
theorem told_of_build (identity : Nat → RuleId) (i : Nat) (d : Draft ε) :
    buildAll identity i [d] = match d.build (identity i) with
      | .error e => ([], .error e)
      | .ok rule => (rule.warnings, .ok [rule]) := by
  rw [buildAll]
  cases d.build (identity i) with
  | error e => rfl
  | ok rule => simp [buildAll, Except.map]

theorem warnings_of_noted {d : Draft ε} {id : RuleId} {rule : Rule ε} (built : d.build id = .ok rule) {n : Nat}
    (noted : d.history = some n) :
    rule.warnings = (d.actions.filter (n < ·.threshold)).map fun a => .unreachable d.name a.name a.threshold n := by
  have described := describes_of_build built
  rw [Rule.warnings, Rule.unreachable, actions_of_build built, described.noted n noted, described.name]

theorem warnings_of_silent {d : Draft ε} {id : RuleId} {rule : Rule ε} (built : d.build id = .ok rule)
    (silent : d.history = none) : rule.warnings = [] := by
  have largest : rule.bound.size = d.largestThreshold := by
    rw [bound_of_build built, retained, silent, Option.getD_none]
  rw [Rule.warnings, Rule.unreachable, List.map_eq_nil_iff, List.filter_eq_nil_iff, actions_of_build built, largest]
  intro a among
  simpa using threshold_le_largestThreshold among

theorem isGreatest_largestThreshold (d : Draft ε) :
    IsGreatest {n | n = 1 ∨ ∃ a ∈ d.actions, a.threshold = n} d.largestThreshold := by
  refine ⟨d.largestThreshold_eq, ?_⟩
  rintro n (rfl | ⟨a, among, rfl⟩)
  · exact (foldl_max_le_iff.1 (Nat.le_refl d.largestThreshold)).1
  · exact threshold_le_largestThreshold among

/-- An identity is all that two rules differ in that are built from one draft. -/
theorem build_identity (d : Draft ε) (id id' : RuleId) :
    d.build id' = (d.build id).map fun rule => { rule with id := id' } := by
  unfold build
  cases d.actions.find? (·.threshold = 0) with
  | some a => rfl
  | none => by_cases h : 0 < d.retained <;> simp [h, Except.map]

/-- **Building validates.** For clauses in any order, with the actions that they add for either
outcome and their last note:

* a rule is built if and only if no action waits for no outcome and the note is not zero;
* if an action waits for no outcome, the error names the first such action, those for true
  before those for false, whatever is noted; otherwise a note of zero is the error;
* the rule has the actions, in order, and retains as many outcomes as the note says or, without
  one, as the largest threshold does, and at least one. It is warned about the actions that
  wait for more than is noted, those for true first, and about none without a note;
* nothing is told about a draft that is refused;
* clauses that add the same actions, in order, and end with the same note, are refused alike or
  give rules that differ in nothing but their identities. -/
theorem build_validates (name : String) (condition : ε) (clauses : List Clause) (id : RuleId) :
    let onTrue := clauses.filterMap (Clause.action? true)
    let onFalse := clauses.filterMap (Clause.action? false)
    let note := (clauses.filterMap Clause.note?).getLast?
    let d := ofClauses name condition clauses
    ((∃ rule, d.build id = .ok rule) ↔ (∀ a ∈ onTrue ++ onFalse, a.threshold ≠ 0) ∧ note ≠ some 0) ∧
    (∀ a, FirstWith (·.threshold = 0) (onTrue ++ onFalse) a →
      d.build id = .error (.zeroThreshold name a.name)) ∧
    ((∀ a ∈ onTrue ++ onFalse, a.threshold ≠ 0) → note = some 0 → d.build id = .error (.zeroHistory name)) ∧
    (∀ rule, d.build id = .ok rule →
      rule.id = id ∧ rule.name = name ∧ rule.condition = condition ∧
      rule.onTrue = onTrue ∧ rule.onFalse = onFalse ∧
      (∀ n, note = some n → rule.bound.size = n ∧
        rule.warnings = ((onTrue ++ onFalse).filter (n < ·.threshold)).map fun a =>
          .unreachable name a.name a.threshold n) ∧
      (note = none → IsGreatest {n | n = 1 ∨ ∃ a ∈ onTrue ++ onFalse, a.threshold = n} rule.bound.size ∧
        rule.warnings = [])) ∧
    buildAll (fun _ => id) 0 [d] = (match d.build id with
      | .error e => ([], .error e)
      | .ok rule => (rule.warnings, .ok [rule])) ∧
    ∀ clauses' id', clauses'.filterMap (Clause.action? true) = onTrue →
      clauses'.filterMap (Clause.action? false) = onFalse → (clauses'.filterMap Clause.note?).getLast? = note →
      (ofClauses name condition clauses').build id' = (d.build id).map fun rule => { rule with id := id' } := by
  intro onTrue onFalse note d
  have draft : d = ⟨name, condition, onTrue, onFalse, note⟩ := ofClauses_eq name condition clauses
  have valid : d.Valid ↔ (∀ a ∈ onTrue ++ onFalse, a.threshold ≠ 0) ∧ note ≠ some 0 := by
    rw [draft]
    exact ⟨fun v => ⟨v.thresholds, v.history⟩, fun v => ⟨v.1, v.2⟩⟩
  -- a draft that is not valid is refused, and for one fault only
  have refused : ∀ e, d.Fault e → d.build id = .error e := by
    intro e fault
    cases answer : d.build id with
    | error e' => rw [(fault_of_build answer).unique fault]
    | ok rule =>
      obtain ⟨thresholds, history⟩ := (valid_iff_build id).2 ⟨rule, answer⟩
      cases fault with
      | zeroThreshold first => exact absurd first.1 (thresholds _ first.mem)
      | zeroHistory _ zero => exact absurd zero history
  refine ⟨?_, ?_, ?_, ?_, told_of_build _ 0 d, ?_⟩
  · rw [← valid, valid_iff_build id]
  · intro a first
    rw [draft] at refused ⊢
    exact refused _ (.zeroThreshold first)
  · intro thresholds zero
    rw [draft] at refused ⊢
    exact refused _ (.zeroHistory thresholds zero)
  · intro rule built
    have described := describes_of_build built
    have identity : rule.id = id := by
      obtain ⟨-, -, rfl⟩ := build_eq_ok.1 built
      rfl
    have largest := d.isGreatest_largestThreshold
    have bound := bound_of_build built
    have noted := fun n => warnings_of_noted built (n := n)
    have silent := warnings_of_silent built
    rw [draft] at described noted silent largest bound
    refine ⟨identity, described.name, described.condition, described.onTrue, described.onFalse,
      fun n h => ⟨described.noted n h, noted n h⟩, fun h => ⟨?_, silent h⟩⟩
    rw [bound, retained, h]
    exact largest
  · intro clauses' id' same same' same''
    rw [← build_identity, ofClauses_eq, same, same', same'', draft]

/-- A note of zero and an action for false that waits for nothing come first, and still the error
names the action for true. With thresholds that are not zero, a later note makes the draft valid, and the
order in which the two actions came does not matter. -/
theorem build_validates_mixed :
    let never (name : String) : Action := ⟨name, 0, ∅⟩
    let page : Action := ⟨"page", 3, ∅⟩
    let calm : Action := ⟨"calm", 1, ∅⟩
    (ofClauses "hot" true [.history 0, .onFalse (never "calm"), .onTrue page, .onTrue (never "page")]).build
        (.ofNat 1) = .error (.zeroThreshold "hot" "page") ∧
      (ofClauses "hot" true [.onFalse calm, .history 2, .onTrue page, .history 0]).build (.ofNat 1) =
        .error (.zeroHistory "hot") ∧
      ∃ rule,
        (ofClauses "hot" true [.onFalse calm, .history 0, .onTrue page, .history 2]).build (.ofNat 1) = .ok rule ∧
        rule.bound.size = 2 ∧ rule.warnings = [.unreachable "hot" "page" 3 2] ∧
        (ofClauses "hot" true [.onTrue page, .onFalse calm, .history 2]).build (.ofNat 2) =
          .ok { rule with id := .ofNat 2 } := by
  intro never page calm
  have positive : ∀ a ∈ [page] ++ [calm], a.threshold ≠ 0 := by simp [page, calm]
  obtain ⟨-, first, -⟩ := build_validates "hot" true
    [.history 0, .onFalse (never "calm"), .onTrue page, .onTrue (never "page")] (.ofNat 1)
  obtain ⟨-, -, zero, -⟩ :=
    build_validates "hot" true [.onFalse calm, .history 2, .onTrue page, .history 0] (.ofNat 1)
  obtain ⟨valid, -, -, built, -, same⟩ :=
    build_validates "hot" true [.onFalse calm, .history 0, .onTrue page, .history 2] (.ofNat 1)
  obtain ⟨rule, answer⟩ := valid.2 ⟨positive, by decide⟩
  obtain ⟨-, -, -, -, -, noted, -⟩ := built rule answer
  obtain ⟨bound, warnings⟩ := noted 2 rfl
  have earliest : FirstWith (·.threshold = 0) ([page, never "page"] ++ [never "calm"]) (never "page") :=
    ⟨rfl, [page], [never "calm"], rfl, by simp [page]⟩
  refine ⟨first _ earliest, zero positive rfl, rule, answer, bound, warnings, ?_⟩
  rw [same [.onTrue page, .onFalse calm, .history 2] (.ofNat 2) rfl rfl rfl, answer]
  rfl

end Draft

end RuleWatch
