import Mathlib
import RuleWatch.Condition.Evaluation
import RuleWatch.Proofs.First
/-!
  The two modes of evaluation. Evaluation goes through a condition from left to right and
  reaches a leaf unless the left side of an AND or an OR around it has decided. Lenient
  evaluation always gives an outcome. Strict evaluation gives the same one if no leaf that
  is reached misses, and otherwise fails with the miss of the first that does
  (`Condition.strict_refines_lenient`).

  Which leaves are reached is told by `Condition.holds` alone, where a miss is false. That
  is what lenient evaluation goes by, and strict evaluation goes by it up to the first miss.
-/

namespace RuleWatch

/-- What a leaf comes to, if a miss counts as the mode says. -/
def Mode.settle (mode : Mode) : Except Miss Bool → Except Miss Bool
  | .ok outcome => .ok outcome
  | .error miss => mode.onMiss miss

theorem Mode.settle_strict (r : Except Miss Bool) : Mode.strict.settle r = r := by
  cases r <;> rfl

namespace Condition

/-! ## Leaves -/

/-- Whether a condition holds, if a leaf that misses does not. -/
def holds (fields : Fields) : Condition → Bool
  | const outcome => outcome
  | compare field op literal => (fields[field]?.bind (·.compare? op literal)).getD false
  | truthy field => fields[field]? = some (.bool true)
  | and left right => left.holds fields && right.holds fields
  | or left right => left.holds fields || right.holds fields
  | not inner => !inner.holds fields

/-- A step from a condition to one that it is made of. -/
inductive Turn where
  | left
  | right
  | inner
deriving DecidableEq

/-- A leaf of a condition. -/
structure Leaf where
  /-- The way to the leaf, which tells it from others that ask the same. -/
  way : List Turn
  condition : Condition
deriving DecidableEq

def Leaf.under (turn : Turn) (l : Leaf) : Leaf := { l with way := turn :: l.way }

/-- The leaves that evaluation from left to right visits, in that order. It visits the right
side of an AND only if the left side holds, and that of an OR only if it does not. -/
def reached (fields : Fields) : Condition → List Leaf
  | and left right =>
    (left.reached fields).map (Leaf.under .left) ++
      if left.holds fields then (right.reached fields).map (Leaf.under .right) else []
  | or left right =>
    (left.reached fields).map (Leaf.under .left) ++
      if left.holds fields then [] else (right.reached fields).map (Leaf.under .right)
  | not inner => (inner.reached fields).map (Leaf.under .inner)
  | leaf => [⟨[], leaf⟩]

/-- Puts a condition in the place of each leaf. -/
def replace (f : Leaf → Condition) : Condition → Condition
  | and left right => and (left.replace fun l => f (l.under .left)) (right.replace fun l => f (l.under .right))
  | or left right => or (left.replace fun l => f (l.under .left)) (right.replace fun l => f (l.under .right))
  | not inner => not (inner.replace fun l => f (l.under .inner))
  | leaf => f ⟨[], leaf⟩

/-- How a leaf misses. -/
inductive Misses (fields : Fields) : Condition → Miss → Prop where
  | unset_compared {field : String} {op : Comparison} {literal : Value} (unset : fields[field]? = none) :
      Misses fields (compare field op literal) (.absent field)
  | incomparable {field : String} {op : Comparison} {literal actual : Value}
      (held : fields[field]? = some actual) (undefined : actual.compare? op literal = none) :
      Misses fields (compare field op literal) (.incomparable field op literal actual)
  | unset_asked {field : String} (unset : fields[field]? = none) : Misses fields (truthy field) (.absent field)
  | notBool {field : String} {actual : Value} (held : fields[field]? = some actual)
      (other : ∀ b, actual ≠ .bool b) : Misses fields (truthy field) (.notBool field actual)

def Leaf.Missing (fields : Fields) (l : Leaf) : Prop := ∃ miss, Misses fields l.condition miss

theorem Misses.unique {fields : Fields} {c : Condition} {miss miss' : Miss} (h : Misses fields c miss)
    (k : Misses fields c miss') : miss = miss' := by
  cases h <;> cases k <;> simp_all

/-- Leaves are missing or not wherever they stand. -/
theorem Leaf.missing_under {fields : Fields} (turn : Turn) (l : Leaf) :
    (l.under turn).Missing fields ↔ l.Missing fields := Iff.rfl

/-! ## What is found at leaves -/

section
variable {fields : Fields}

/-- The outcome or the miss is what there is at a leaf. -/
def Leaf.Gives (fields : Fields) (l : Leaf) : Except Miss Bool → Prop
  | .ok outcome => ¬ l.Missing fields ∧ outcome = l.condition.holds fields
  | .error miss => Misses fields l.condition miss ∧ l.condition.holds fields = false

theorem gives_compareField (fields : Fields) (field : String) (op : Comparison) (literal : Value) :
    Leaf.Gives fields ⟨[], compare field op literal⟩ (compareField fields field op literal) := by
  cases held : fields[field]? with
  | none => simpa [compareField, holds, held, Leaf.Gives] using Misses.unset_compared held
  | some actual =>
    cases answer : actual.compare? op literal with
    | none => simpa [compareField, holds, held, answer, Leaf.Gives] using Misses.incomparable held answer
    | some outcome =>
      have found : ¬ Leaf.Missing fields ⟨[], compare field op literal⟩ := by
        rintro ⟨miss, misses⟩
        cases misses <;> simp_all
      simpa [compareField, holds, held, answer, Leaf.Gives] using found

theorem gives_truthOf (fields : Fields) (field : String) :
    Leaf.Gives fields ⟨[], truthy field⟩ (truthOf fields field) := by
  cases held : fields[field]? with
  | none => simpa [truthOf, holds, held, Leaf.Gives] using Misses.unset_asked held
  | some actual =>
    cases actual with
    | bool b =>
      have found : ¬ Leaf.Missing fields ⟨[], truthy field⟩ := by
        rintro ⟨miss, misses⟩
        cases misses <;> simp_all
      cases b <;> simpa [truthOf, holds, held, Leaf.Gives] using found
    | int _ | float _ | string _ =>
      simpa [truthOf, holds, held, Leaf.Gives] using Misses.notBool held (by simp)

/-! ## Steps of evaluation -/

section
variable (mode : Mode) (fields : Fields)

theorem evaluate_compare (field : String) (op : Comparison) (literal : Value) :
    (compare field op literal).evaluate mode fields = mode.settle (compareField fields field op literal) := by
  unfold evaluate
  cases compareField fields field op literal <;> rfl

theorem evaluate_truthy (field : String) :
    (truthy field).evaluate mode fields = mode.settle (truthOf fields field) := by
  unfold evaluate
  cases truthOf fields field <;> rfl

theorem evaluate_and (left right : Condition) :
    (and left right).evaluate mode fields =
      (left.evaluate mode fields).bind fun outcome => if outcome then right.evaluate mode fields else .ok false := by
  rw [evaluate]
  rcases left.evaluate mode fields with miss | _ | _ <;> rfl

theorem evaluate_or (left right : Condition) :
    (or left right).evaluate mode fields =
      (left.evaluate mode fields).bind fun outcome => if outcome then .ok true else right.evaluate mode fields := by
  rw [evaluate]
  rcases left.evaluate mode fields with miss | _ | _ <;> rfl

theorem evaluate_not (inner : Condition) :
    (not inner).evaluate mode fields = (inner.evaluate mode fields).bind fun outcome => .ok !outcome := by
  rw [evaluate]
  cases inner.evaluate mode fields <;> rfl

end

/-! ## The two modes -/

theorem Leaf.Gives.lenient {l : Leaf} {r : Except Miss Bool} (h : l.Gives fields r) :
    Mode.lenient.settle r = .ok (l.condition.holds fields) := by
  cases r with
  | ok outcome => exact congrArg Except.ok h.2
  | error miss => exact congrArg Except.ok h.2.symm

/-- Lenient evaluation is two-valued. -/
theorem evaluate_lenient (fields : Fields) (c : Condition) : c.evaluate .lenient fields = .ok (c.holds fields) := by
  induction c with
  | const outcome => rfl
  | compare field op literal =>
    rw [evaluate_compare]
    exact (gives_compareField fields field op literal).lenient
  | truthy field =>
    rw [evaluate_truthy]
    exact (gives_truthOf fields field).lenient
  | and left right ih ih' =>
    rw [evaluate_and, ih, ih', holds]
    cases left.holds fields <;> rfl
  | or left right ih ih' =>
    rw [evaluate_or, ih, ih', holds]
    cases left.holds fields <;> rfl
  | not inner ih =>
    rw [evaluate_not, ih, holds]
    rfl

/-- The outcome or the miss is told by leaves that are visited in order: none of them misses,
or the miss is that of the first one that does. -/
def Told (fields : Fields) (leaves : List Leaf) (holds : Bool) : Except Miss Bool → Prop
  | .ok outcome => (∀ l ∈ leaves, ¬ l.Missing fields) ∧ outcome = holds
  | .error miss => ∃ l, FirstWith (Leaf.Missing fields) leaves l ∧ Misses fields l.condition miss

theorem Leaf.Gives.told {l : Leaf} {r : Except Miss Bool} (h : l.Gives fields r) :
    Told fields [l] (l.condition.holds fields) r := by
  cases r with
  | ok outcome => exact ⟨by simpa using h.1, h.2⟩
  | error miss => exact ⟨l, .head ⟨miss, h.1⟩ [], h.1⟩

namespace Told

variable {leaves others : List Leaf} {outcome outcome' : Bool} {r : Except Miss Bool}

/-- Misses stand wherever the condition does. -/
theorem under (h : Told fields leaves outcome r) (turn : Turn) :
    Told fields (leaves.map (Leaf.under turn)) outcome r := by
  cases r with
  | ok _ => exact ⟨List.forall_mem_map.2 h.1, h.2⟩
  | error miss =>
    obtain ⟨l, first, misses⟩ := h
    exact ⟨l.under turn, first.map (Leaf.missing_under turn), misses⟩

/-- A miss is first whatever comes behind. -/
theorem append_left {miss : Miss} (h : Told fields leaves outcome (.error miss)) (others : List Leaf)
    (outcome' : Bool) : Told fields (leaves ++ others) outcome' (.error miss) := by
  obtain ⟨l, first, misses⟩ := h
  exact ⟨l, first.append_left others, misses⟩

theorem append_right (none : ∀ l ∈ leaves, ¬ l.Missing fields) (h : Told fields others outcome r) :
    Told fields (leaves ++ others) outcome r := by
  cases r with
  | ok _ => exact ⟨List.forall_mem_append.2 ⟨none, h.1⟩, h.2⟩
  | error miss =>
    obtain ⟨l, first, misses⟩ := h
    exact ⟨l, first.append_right none, misses⟩

/-- What comes next visits its leaves behind, unless there is a miss. -/
theorem bind {next : Bool → Except Miss Bool} (h : Told fields leaves outcome r)
    (then_next : Told fields others outcome' (next outcome)) :
    Told fields (leaves ++ others) outcome' (r.bind next) := by
  cases r with
  | error miss => exact h.append_left others outcome'
  | ok given =>
    obtain ⟨none, rfl⟩ := h
    exact append_right none then_next

/-- An outcome without any leaf. -/
theorem pure (outcome : Bool) : Told fields [] outcome (.ok outcome) := ⟨by simp, rfl⟩

/-- The leaves leave no choice between the outcome and the misses. -/
theorem eq_ok_iff (h : Told fields leaves outcome r) :
    r = .ok outcome' ↔ (∀ l ∈ leaves, ¬ l.Missing fields) ∧ outcome' = outcome := by
  cases r with
  | ok given =>
    obtain ⟨none, rfl⟩ := h
    rw [and_iff_right none, Except.ok.injEq, eq_comm]
  | error miss =>
    obtain ⟨l, first, -⟩ := h
    have some_missing : ¬ ∀ l ∈ leaves, ¬ l.Missing fields := fun none => none l first.mem first.1
    simp [some_missing]

theorem eq_error_iff (h : Told fields leaves outcome r) {miss : Miss} :
    r = .error miss ↔ ∃ l, FirstWith (Leaf.Missing fields) leaves l ∧ Misses fields l.condition miss := by
  cases r with
  | ok given =>
    refine ⟨?_, ?_⟩
    · intro e
      cases e
    · rintro ⟨l, first, -⟩
      exact absurd first.1 (h.1 l first.mem)
  | error miss' =>
    obtain ⟨l, first, misses⟩ := h
    refine ⟨?_, ?_⟩
    · intro e
      cases e
      exact ⟨l, first, misses⟩
    · rintro ⟨l', first', misses'⟩
      obtain rfl := first.unique first'
      rw [misses.unique misses']

end Told

/-- Strict evaluation is told by the leaves that are reached. -/
theorem told_strict (fields : Fields) (c : Condition) :
    Told fields (c.reached fields) (c.holds fields) (c.evaluate .strict fields) := by
  induction c with
  | const outcome =>
    refine ⟨?_, rfl⟩
    rintro l among ⟨miss, misses⟩
    rw [List.mem_singleton.1 among] at misses
    cases misses
  | compare field op literal =>
    rw [evaluate_compare, Mode.settle_strict]
    exact (gives_compareField fields field op literal).told
  | truthy field =>
    rw [evaluate_truthy, Mode.settle_strict]
    exact (gives_truthOf fields field).told
  | and left right ih ih' =>
    rw [evaluate_and, reached, holds]
    refine (ih.under .left).bind ?_
    cases left.holds fields with
    | false => exact .pure false
    | true => exact ih'.under .right
  | or left right ih ih' =>
    rw [evaluate_or, reached, holds]
    refine (ih.under .left).bind ?_
    cases left.holds fields with
    | false => exact ih'.under .right
    | true => exact .pure true
  | not inner ih =>
    rw [evaluate_not, reached, holds, ← List.append_nil (List.map _ _)]
    exact (ih.under .inner).bind (.pure _)

/-- An outcome in either mode is whether the condition holds. -/
theorem holds_of_evaluate {mode : Mode} {c : Condition} {outcome : Bool}
    (h : c.evaluate mode fields = .ok outcome) : c.holds fields = outcome := by
  cases mode with
  | lenient =>
    rw [evaluate_lenient] at h
    exact Except.ok.inj h
  | strict => exact ((told_strict fields c).eq_ok_iff.1 h).2.symm

/-- A condition looks at the fields that it names. -/
theorem evaluate_congr (mode : Mode) {f g : Fields} (c : Condition) (same : ∀ field ∈ c.fields, f[field]? = g[field]?) :
    c.evaluate mode f = c.evaluate mode g := by
  induction c with
  | const outcome => rfl
  | compare field op literal =>
    have held := same field List.mem_cons_self
    simp only [evaluate, compareField, held]
  | truthy field =>
    have held := same field List.mem_cons_self
    simp only [evaluate, truthOf, held]
  | and left right ih ih' =>
    obtain ⟨first, second⟩ := List.forall_mem_append.1 same
    rw [evaluate, evaluate, ih first, ih' second]
  | or left right ih ih' =>
    obtain ⟨first, second⟩ := List.forall_mem_append.1 same
    rw [evaluate, evaluate, ih first, ih' second]
  | not inner ih => rw [evaluate, evaluate, ih same]

theorem bind_congr_of_ok {r : Except Miss Bool} {next next' : Bool → Except Miss Bool}
    (same : ∀ outcome, r = .ok outcome → next outcome = next' outcome) : r.bind next = r.bind next' := by
  cases r with
  | error miss => rfl
  | ok outcome => exact same outcome rfl

/-- Conditions are evaluated alike if the leaves that are reached are. -/
theorem evaluate_replace {mode : Mode} {g : Fields} (c : Condition) {f : Leaf → Condition}
    (alike : ∀ l ∈ c.reached fields, (f l).evaluate mode g = l.condition.evaluate mode fields) :
    (c.replace f).evaluate mode g = c.evaluate mode fields := by
  induction c generalizing f with
  | const outcome => exact alike _ List.mem_cons_self
  | compare field op literal => exact alike _ List.mem_cons_self
  | truthy field => exact alike _ List.mem_cons_self
  | and left right ih ih' =>
    rw [reached, List.forall_mem_append, List.forall_mem_map] at alike
    obtain ⟨first, second⟩ := alike
    rw [replace, evaluate_and, evaluate_and, ih first]
    refine bind_congr_of_ok fun outcome answer => ?_
    cases outcome with
    | false => rfl
    | true =>
      rw [if_pos (holds_of_evaluate answer), List.forall_mem_map] at second
      exact ih' second
  | or left right ih ih' =>
    rw [reached, List.forall_mem_append, List.forall_mem_map] at alike
    obtain ⟨first, second⟩ := alike
    rw [replace, evaluate_or, evaluate_or, ih first]
    refine bind_congr_of_ok fun outcome answer => ?_
    cases outcome with
    | true => rfl
    | false =>
      rw [if_neg (by simp [holds_of_evaluate answer]), List.forall_mem_map] at second
      exact ih' second
  | not inner ih =>
    rw [reached, List.forall_mem_map] at alike
    rw [replace, evaluate, evaluate, ih alike]

/-- **Strict evaluation refines lenient evaluation.** For every condition and all fields:

* lenient evaluation gives an outcome, which is whether the condition holds with misses
  taken for false;
* strict evaluation gives an outcome if and only if no leaf that is reached misses, and then
  the same one;
* strict evaluation fails if and only if a leaf that is reached misses, and then as the first
  of them does;
* in both modes it matters neither what stands in the place of a leaf that is not reached
  nor what fields hold that no leaf that is reached names. -/
theorem strict_refines_lenient (fields : Fields) (c : Condition) :
    c.evaluate .lenient fields = .ok (c.holds fields) ∧
    (∀ outcome, c.evaluate .strict fields = .ok outcome ↔
      (∀ l ∈ c.reached fields, ¬ l.Missing fields) ∧ outcome = c.holds fields) ∧
    (∀ miss, c.evaluate .strict fields = .error miss ↔
      ∃ l, FirstWith (Leaf.Missing fields) (c.reached fields) l ∧ Misses fields l.condition miss) ∧
    ∀ mode f g, (∀ l ∈ c.reached fields, f l = l.condition ∧
        ∀ field ∈ l.condition.fields, g[field]? = fields[field]?) →
      (c.replace f).evaluate mode g = c.evaluate mode fields := by
  have told := told_strict fields c
  refine ⟨evaluate_lenient fields c, fun _ => told.eq_ok_iff, fun _ => told.eq_error_iff, ?_⟩
  intro mode f g unchanged
  refine evaluate_replace c fun l among => ?_
  obtain ⟨kept, same⟩ := unchanged l among
  rw [kept]
  exact l.condition.evaluate_congr mode same

end

/-- The left side of the OR decides, and so the field `spare` is not looked at. The text under
`label` cannot be compared with a number: that is false in lenient mode and an error in strict
mode, whatever becomes of the leaf that is not reached. -/
theorem strict_refines_lenient_boiler :
    let fields := ((∅ : Fields).insert "temp" (.int 85)).insert "label" (.string "boiler")
    let tagged : Condition := .compare "label" .atLeast (.int 3)
    let warm (spare : Condition) : Condition :=
      .and (.or (.compare "temp" .greater (.int 80)) spare) (.not tagged)
    let miss : Miss := .incomparable "label" .atLeast (.int 3) (.string "boiler")
    (warm (.truthy "spare")).evaluate .lenient fields = .ok true ∧
      (warm (.truthy "spare")).evaluate .strict fields = .error miss ∧
      (warm (.not (.truthy "temp"))).evaluate .strict (fields.insert "spare" (.int 0)) = .error miss := by
  intro fields tagged warm miss
  obtain ⟨lenient, -, strict, unreached⟩ := strict_refines_lenient fields (warm (.truthy "spare"))
  have reached : (warm (.truthy "spare")).reached fields =
      [⟨[.left, .left], .compare "temp" .greater (.int 80)⟩, ⟨[.right, .inner], tagged⟩] := by
    subst warm tagged fields
    cbv
  have hot : fields["temp"]? = some (.int 85) := by
    subst fields
    cbv
  have name : fields["label"]? = some (.string "boiler") := by
    subst fields
    cbv
  have first : ¬ Leaf.Missing fields ⟨[.left, .left], .compare "temp" .greater (.int 80)⟩ := by
    rintro ⟨miss, misses⟩
    cases misses with
    | unset_compared unset => exact absurd (hot.symm.trans unset) (by simp)
    | incomparable held undefined =>
      obtain rfl := Option.some.inj (hot.symm.trans held)
      exact absurd undefined (by decide)
  have second : Misses fields tagged miss := .incomparable name (by decide)
  have holds : (warm (.truthy "spare")).holds fields = true := by
    subst warm tagged fields
    cbv
  have fails : (warm (.truthy "spare")).evaluate .strict fields = .error miss := by
    rw [strict, reached]
    exact ⟨⟨[.right, .inner], tagged⟩, .tail first (.head ⟨miss, second⟩ []), second⟩
  have kept : ∀ field, field ≠ "spare" → (fields.insert "spare" (.int 0))[field]? = fields[field]? := by
    intro field other
    refine Std.ExtTreeMap.getElem?_insert.trans (if_neg ?_)
    rw [Std.LawfulEqCmp.compare_eq_iff_eq]
    exact other.symm
  refine ⟨lenient.trans (congrArg _ holds), fails, ?_⟩
  rw [← fails]
  refine unreached .strict
    (fun l => if l.way = [.left, .right] then .not (.truthy "temp") else l.condition) (fields.insert "spare" (.int 0)) ?_
  rw [reached]
  refine List.forall_mem_cons.2 ⟨⟨rfl, ?_⟩, List.forall_mem_singleton.2 ⟨rfl, ?_⟩⟩
  · exact List.forall_mem_singleton.2 (kept "temp" (by decide))
  · exact List.forall_mem_singleton.2 (kept "label" (by decide))

end Condition

end RuleWatch
