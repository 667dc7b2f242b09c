import RuleWatch.Proofs.Number.Exact
import RuleWatch.Proofs.Text.Bytes
import RuleWatch.Value.Comparison
/-!
  Comparing values. The six questions about two values fit together: asked from the other side
  they get the same answer, and about two values either all are answered, as the one order
  between them says, or none is. Truth values are apart, being only equal or different
  (`Value.compare_coherent`).
-/

namespace RuleWatch

namespace Comparison

/-- The same question from the side of the second value. -/
def exchanged : Comparison → Comparison
  | equal => equal
  | different => different
  | greater => less
  | atLeast => atMost
  | less => greater
  | atMost => atLeast

theorem accepts_swap (op : Comparison) (o : Ordering) : op.exchanged.accepts o.swap = op.accepts o := by
  cases op <;> cases o <;> rfl

end Comparison

/-! ## Orders -/

section
variable {α : Type} [Ord α] [Std.TransOrd α]

theorem compare_trans {x y z : α} {o : Ordering} (first : compare x y = o) (second : compare y z = o) :
    compare x z = o := by
  cases o with
  | lt => exact Std.TransCmp.lt_trans first second
  | eq => exact Std.TransCmp.eq_trans first second
  | gt => exact Std.TransCmp.gt_trans first second

end

namespace Binary64

theorem compare?_eq_none {x y : Binary64} : x.compare? y = none ↔ x.isNaN = true ∨ y.isNaN = true := by
  unfold compare?
  cases x.isNaN <;> cases y.isNaN <;> simp

theorem compare?_eq_some {x y : Binary64} {o : Ordering} :
    x.compare? y = some o ↔ x.isNaN = false ∧ y.isNaN = false ∧ compare x.rank y.rank = o := by
  unfold compare?
  cases x.isNaN <;> cases y.isNaN <;> simp

theorem compare?_swap (x y : Binary64) : (x.compare? y).map Ordering.swap = y.compare? x := by
  unfold compare?
  rw [Bool.or_comm, Std.OrientedOrd.eq_swap (a := x.rank)]
  cases y.isNaN || x.isNaN
  · simp
  · rfl

theorem compare?_trans {x y z : Binary64} {o : Ordering} (first : x.compare? y = some o)
    (second : y.compare? z = some o) : x.compare? z = some o := by
  rw [compare?_eq_some] at *
  exact ⟨first.1, second.2.1, compare_trans first.2.2 second.2.2⟩

theorem compare?_self {x : Binary64} (number : x.isNaN = false) : x.compare? x = some .eq :=
  compare?_eq_some.2 ⟨number, number, Std.ReflOrd.compare_self⟩

end Binary64

namespace Value

def isNaN : Value → Bool
  | float x => x.isNaN
  | _ => false

/-- Whether two values have an order, truth values apart: values of one kind do, and so do an
integer and a double, unless one of them is NaN. -/
@[mk_iff]
structure Comparable (a b : Value) : Prop where
  kinds : a.kind = b.kind ∨ a.kind = "int" ∧ b.kind = "float" ∨ a.kind = "float" ∧ b.kind = "int"
  left : a.isNaN = false
  right : b.isNaN = false

/-- The laws of asking questions about two values. Where NaN is one of them, no answer is given,
so that it needs no mention where an answer is assumed. -/
structure Coherent (ask : Value → Comparison → Value → Option Bool) : Prop where
  /-- It does not matter from which side a question is asked. -/
  exchanged : ∀ a op b, ask a op b = ask b op.exchanged a
  /-- Truth values are equal or different. -/
  bools : ∀ x y : Bool,
    ask (bool x) .equal (bool y) = some (x == y) ∧ ask (bool x) .different (bool y) = some !(x == y)
  /-- Truth values have no order. -/
  bools_unordered : ∀ x y : Bool, ∀ op ∈ [Comparison.less, .atMost, .greater, .atLeast],
    ask (bool x) op (bool y) = none
  /-- About two values of different kinds, or about NaN, no question is answered. -/
  undefined : ∀ a b, ¬ (a.kind = "bool" ∧ b.kind = "bool") → ¬ Comparable a b → ∀ op, ask a op b = none
  /-- About other values all questions are answered, and the first value is either less than
  the second, equal to it or greater. -/
  defined : ∀ a b, ¬ (a.kind = "bool" ∧ b.kind = "bool") → Comparable a b →
    ∃ less equal greater : Bool, [less, equal, greater].count true = 1 ∧
      ask a .less b = some less ∧ ask a .equal b = some equal ∧ ask a .greater b = some greater ∧
      ask a .atLeast b = some (!less) ∧ ask a .different b = some (!equal) ∧ ask a .atMost b = some (!greater)
  less_trans : ∀ a b c, a.kind = b.kind → b.kind = c.kind →
    ask a .less b = some true → ask b .less c = some true → ask a .less c = some true
  equal_refl : ∀ a, a.isNaN = false → ask a .equal a = some true
  equal_symm : ∀ a b, ask a .equal b = some true → ask b .equal a = some true
  equal_trans : ∀ a b c, a.kind = b.kind → b.kind = c.kind →
    ask a .equal b = some true → ask b .equal c = some true → ask a .equal c = some true
  ints : ∀ i j : Int64, ask (int i) .equal (int j) = some true ↔ i = j
  strings : ∀ s t : String, ask (string s) .equal (string t) = some true ↔ s = t
  /-- Strings have the order of their bytes, which is that of their characters' numbers. -/
  strings_less : ∀ s t : String,
    (ask (string s) .less (string t) = some true ↔ Text.bytes s < Text.bytes t) ∧
    (ask (string s) .less (string t) = some true ↔ Text.codePoints s < Text.codePoints t)

/-! ## The order of two values -/

theorem order?_swap (a b : Value) : (order? a b).map Ordering.swap = order? b a := by
  cases a <;> cases b <;> simp only [order?, Option.map_some, Option.map_none, Binary64.compare?_swap]
  all_goals rw [Std.OrientedOrd.eq_swap, Ordering.swap_swap]

/-- Two values are compared by their order, unless both are truth values. -/
theorem compare?_eq {a b : Value} (values : ¬ (a.kind = "bool" ∧ b.kind = "bool")) (op : Comparison) :
    compare? a op b = (order? a b).map op.accepts := by
  unfold compare?
  split
  · exact absurd ⟨rfl, rfl⟩ values
  · rfl

/-- Two values have no order if and only if they cannot be compared, truth values apart. -/
theorem order?_eq_none {a b : Value} (values : ¬ (a.kind = "bool" ∧ b.kind = "bool")) :
    order? a b = none ↔ ¬ Comparable a b := by
  rw [comparable_iff]
  cases a <;> cases b <;>
    simp [order?, kind, isNaN, Binary64.isNaN_ofInt, Binary64.compare?_eq_none, or_iff_not_imp_left] at values ⊢

/-! ## Values of one kind -/

theorem order?_trans {a b c : Value} (ab : a.kind = b.kind) (bc : b.kind = c.kind) {o : Ordering}
    (first : order? a b = some o) (second : order? b c = some o) : order? a c = some o := by
  cases a <;> cases b <;> simp [kind, order?] at ab first <;> cases c <;> simp [kind, order?] at bc second ⊢
  · exact compare_trans first second
  · exact Binary64.compare?_trans first second
  · exact compare_trans first second

theorem order?_self {a : Value} (values : a.kind ≠ "bool") (number : a.isNaN = false) : order? a a = some .eq := by
  cases a with
  | bool b => exact absurd rfl values
  | int i => exact congrArg some Std.ReflOrd.compare_self
  | float x => exact Binary64.compare?_self number
  | string s => exact congrArg some Std.ReflOrd.compare_self

/-! ## The answers -/

theorem eq_bool_of_kind {a : Value} (h : a.kind = "bool") : ∃ b, a = bool b := by
  cases a <;> first | exact ⟨_, rfl⟩ | simp [kind] at h

theorem compare?_exchanged (a : Value) (op : Comparison) (b : Value) :
    compare? a op b = compare? b op.exchanged a := by
  by_cases values : a.kind = "bool" ∧ b.kind = "bool"
  · obtain ⟨x, rfl⟩ := eq_bool_of_kind values.1
    obtain ⟨y, rfl⟩ := eq_bool_of_kind values.2
    cases op <;> cases x <;> cases y <;> rfl
  · rw [compare?_eq values, compare?_eq (mt And.symm values), ← order?_swap a b, Option.map_map]
    congr 1
    funext o
    exact (op.accepts_swap o).symm

theorem less_iff {a b : Value} : compare? a .less b = some true ↔ order? a b = some .lt := by
  by_cases values : a.kind = "bool" ∧ b.kind = "bool"
  · obtain ⟨x, rfl⟩ := eq_bool_of_kind values.1
    obtain ⟨y, rfl⟩ := eq_bool_of_kind values.2
    simp [compare?, order?]
  · rw [compare?_eq values]
    simp [Comparison.accepts]

theorem equal_iff {a b : Value} (values : ¬ (a.kind = "bool" ∧ b.kind = "bool")) :
    compare? a .equal b = some true ↔ order? a b = some .eq := by
  rw [compare?_eq values]
  simp [Comparison.accepts]

theorem equal_trans {a b c : Value} (ab : a.kind = b.kind) (bc : b.kind = c.kind)
    (first : compare? a .equal b = some true) (second : compare? b .equal c = some true) :
    compare? a .equal c = some true := by
  by_cases values : a.kind = "bool"
  · obtain ⟨x, rfl⟩ := eq_bool_of_kind values
    obtain ⟨y, rfl⟩ := eq_bool_of_kind ab.symm
    obtain ⟨z, rfl⟩ := eq_bool_of_kind bc.symm
    simp only [compare?, Option.some.injEq, beq_iff_eq] at first second ⊢
    rw [first, second]
  · have values' : b.kind ≠ "bool" := by rwa [← ab]
    rw [equal_iff (fun h => values h.1)] at first ⊢
    rw [equal_iff (fun h => values' h.1)] at second
    exact order?_trans ab bc first second

theorem equal_self {a : Value} (number : a.isNaN = false) : compare? a .equal a = some true := by
  by_cases values : a.kind = "bool"
  · obtain ⟨x, rfl⟩ := eq_bool_of_kind values
    simp [compare?]
  · exact (equal_iff fun h => values h.1).2 (order?_self values number)

/-- **Comparing is coherent.** For all values the answers obey the laws: they are the same from
either side, given to all six questions or to none, and those of one order, which is transitive
within a kind. Equal integers and equal strings are the same, and strings have the order of
their bytes. -/
theorem compare_coherent : Coherent compare? where
  exchanged := compare?_exchanged
  bools x y := ⟨rfl, rfl⟩
  bools_unordered x y op ordering := by
    simp at ordering
    rcases ordering with rfl | rfl | rfl | rfl <;> rfl
  undefined a b values apart op := by
    rw [compare?_eq values, (order?_eq_none values).2 apart, Option.map_none]
  defined a b values comparable := by
    cases order : order? a b with
    | none => exact absurd comparable ((order?_eq_none values).1 order)
    | some o =>
      simp only [compare?_eq values, order, Option.map_some]
      refine ⟨_, _, _, ?_, rfl, rfl, rfl, ?_⟩ <;> cases o <;> decide
  less_trans a b c ab bc first second :=
    less_iff.2 (order?_trans ab bc (less_iff.1 first) (less_iff.1 second))
  equal_refl _ := equal_self
  equal_symm a b same := by rwa [compare?_exchanged]
  equal_trans _ _ _ := equal_trans
  ints i j := by
    rw [equal_iff (by simp [kind]), order?, Option.some.injEq, Std.compare_eq_iff_eq, Int64.toInt_inj]
  strings s t := by
    rw [equal_iff (by simp [kind]), order?, Option.some.injEq, Std.compare_eq_iff_eq]
  strings_less s t := by
    rw [less_iff, order?, Option.some.injEq, ← Text.lt_iff_bytes, ← Text.lt_iff_codePoints]
    have : compare s t = .lt ↔ s < t := compareOfLessAndEq_eq_lt
    exact ⟨this, this⟩

end Value

end RuleWatch
