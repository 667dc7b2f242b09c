import RuleWatch.Proofs.Value.Comparison
/-!
  Comparing an integer with a double. The integer is taken as the double nearest to it, and
  still the answers are right about the exact numbers, but for one kind of mistake: an integer
  of more than 53 bits passes for equal to the double nearest to it
  (`Value.compare_int_float`). No answer is the wrong way round, because a number lies on the
  same side of every other double as the double nearest to it.
-/

namespace RuleWatch

namespace Comparison

variable {α : Type} [LinearOrder α]

/-- What a question asks about two numbers. -/
def Holds : Comparison → α → α → Prop
  | equal, x, y => x = y
  | different, x, y => x ≠ y
  | greater, x, y => y < x
  | atLeast, x, y => y ≤ x
  | less, x, y => x < y
  | atMost, x, y => x ≤ y

instance (op : Comparison) (x y : α) : Decidable (op.Holds x y) :=
  match op with
  | equal => inferInstanceAs (Decidable (x = y))
  | different => inferInstanceAs (Decidable (x ≠ y))
  | greater => inferInstanceAs (Decidable (y < x))
  | atLeast => inferInstanceAs (Decidable (y ≤ x))
  | less => inferInstanceAs (Decidable (x < y))
  | atMost => inferInstanceAs (Decidable (x ≤ y))

/-- The answer for the order of two numbers is the right one. -/
theorem accepts_cmp (op : Comparison) (x y : α) : op.accepts (cmp x y) = decide (op.Holds x y) := by
  rcases lt_trichotomy x y with less | rfl | more
  · rw [less.cmp_eq_lt]
    cases op <;> simp [accepts, Holds, less, less.le, less.ne, less.le.not_gt, less.not_ge]
  · rw [cmp_self_eq_eq]
    cases op <;> simp [accepts, Holds]
  · rw [more.cmp_eq_gt]
    cases op <;> simp [accepts, Holds, more, more.le, more.ne', more.le.not_gt, more.not_ge]

theorem exchanged_holds (op : Comparison) (x y : α) : op.exchanged.Holds x y ↔ op.Holds y x := by
  cases op
  case equal => exact eq_comm
  case different => exact ne_comm
  all_goals exact Iff.rfl

end Comparison

namespace Value

/-- A question about an integer and a double, asked from either side, gets the answer that is
right about the exact numbers. -/
structure AnsweredExactly (a : Int64) (f : Binary64) (op : Comparison) : Prop where
  int_first : compare? (int a) op (float f) = some (decide (op.Holds (.ofRat a.toInt) f.exact))
  float_first : compare? (float f) op (int a) = some (decide (op.Holds f.exact (.ofRat a.toInt)))

/-- An integer passes for equal to a double: the answers are those for equal numbers. -/
structure PassesForEqual (a : Int64) (f : Binary64) : Prop where
  int_first : ∀ op, compare? (int a) op (float f) = some (decide (op ∈ [.equal, .atMost, .atLeast]))
  float_first : ∀ op, compare? (float f) op (int a) = some (decide (op ∈ [.equal, .atMost, .atLeast]))

variable {a : Int64} {f : Binary64}

theorem compare?_eq_cmp (number : f.isNaN = false) (op : Comparison) :
    compare? (int a) op (float f) = some (op.accepts (cmp (Binary64.ofInt a.toInt).exact f.exact)) := by
  rw [compare?_eq (by simp [kind]), order?, Binary64.compare?_exact (Binary64.isNaN_ofInt _) number, Option.map_some]

theorem answeredExactly_of_cmp (number : f.isNaN = false)
    (same : cmp (Binary64.ofInt a.toInt).exact f.exact = cmp (.ofRat a.toInt) f.exact) (op : Comparison) :
    AnsweredExactly a f op := by
  constructor
  · rw [compare?_eq_cmp number, same, op.accepts_cmp]
  · rw [compare?_exchanged, compare?_eq_cmp number, same, op.exchanged.accepts_cmp]
    simp only [op.exchanged_holds]

theorem passesForEqual_of_eq (number : f.isNaN = false)
    (same : f.exact = (Binary64.ofInt a.toInt).exact) : PassesForEqual a f := by
  constructor
  · intro op
    rw [compare?_eq_cmp number, same, cmp_self_eq_eq]
    cases op <;> rfl
  · intro op
    rw [compare?_exchanged, compare?_eq_cmp number, same, cmp_self_eq_eq]
    cases op <;> rfl

/-- **An integer and a double compare as the exact numbers do, up to the rounding of the
integer.** The integer is taken as the double nearest to it, a half going to the even last bit.
For every integer and every double that is not NaN, and from either side:

* an answer that one is less or greater than the other is right about the exact numbers;
* if the integer has at most 53 bits, or is the power of two behind them, all answers are right;
* if any answer is wrong, then the integer is larger than that, the double is the one nearest
  to it, and all answers are those for equal numbers. -/
theorem compare_int_float (a : Int64) (f : Binary64) (number : f.isNaN = false) :
    let i : ℚ := a.toInt
    (Binary64.ofInt a.toInt).IsNearest i ∧
    (compare? (int a) .less (float f) = some true → .ofRat i < f.exact) ∧
    (compare? (int a) .greater (float f) = some true → f.exact < .ofRat i) ∧
    (compare? (float f) .less (int a) = some true → f.exact < .ofRat i) ∧
    (compare? (float f) .greater (int a) = some true → .ofRat i < f.exact) ∧
    (a.toInt.natAbs ≤ 2 ^ 53 → ∀ op, AnsweredExactly a f op) ∧
    ((∃ op, ¬ AnsweredExactly a f op) →
      2 ^ 53 < a.toInt.natAbs ∧ f = .ofInt a.toInt ∧ PassesForEqual a f) := by
  intro i
  have bits : a.toInt.natAbs < 2 ^ 64 := by
    have := a.le_toInt
    have := a.toInt_lt
    omega
  have near : (Binary64.ofInt a.toInt).IsNearest i := Binary64.isNearest_ofInt bits
  have below : compare? (int a) .less (float f) = some true → .ofRat i < f.exact := by
    intro answer
    rw [compare?_eq_cmp number, Option.some.injEq, Comparison.accepts_cmp, decide_eq_true_eq] at answer
    exact near.lt_of_lt number answer
  have above : compare? (int a) .greater (float f) = some true → f.exact < .ofRat i := by
    intro answer
    rw [compare?_eq_cmp number, Option.some.injEq, Comparison.accepts_cmp, decide_eq_true_eq] at answer
    exact near.gt_of_gt number answer
  have small : a.toInt.natAbs ≤ 2 ^ 53 → ∀ op, AnsweredExactly a f op := by
    intro small
    apply answeredExactly_of_cmp number
    rw [near.exact_eq, Binary64.number_ofInt small]
  refine ⟨near, below, above, ?_, ?_, small, ?_⟩
  · rwa [compare?_exchanged]
  · rwa [compare?_exchanged]
  · rintro ⟨op, wrong⟩
    have large : 2 ^ 53 < a.toInt.natAbs := by
      by_contra le
      exact wrong (small (Nat.le_of_not_lt le) op)
    have same : f.exact = (Binary64.ofInt a.toInt).exact := by
      by_contra apart
      exact wrong (answeredExactly_of_cmp number (near.cmp_eq number (Ne.symm apart)) op)
    have nonzero : a.toInt ≠ 0 := by
      rw [← Int.natAbs_pos]
      omega
    exact ⟨large, Binary64.eq_ofInt bits nonzero number same, passesForEqual_of_eq number same⟩

/-- The first integer that is no double lies halfway between two, and passes for equal to the
even one below it. -/
theorem compare_int_float_halfway :
    let a : Int64 := 9007199254740993
    let f : Binary64 := ⟨0x4340000000000000⟩
    f.isNaN = false ∧ f.exact = .ofRat 9007199254740992 ∧ ¬ AnsweredExactly a f .equal ∧
      f.IsNearest 9007199254740993 ∧ PassesForEqual a f := by
  intro a f
  have number : f.isNaN = false := by decide
  have even : f = .ofInt 9007199254740992 := by decide +kernel
  have exact : f.exact = .ofRat 9007199254740992 := by
    have whole : f.number = (9007199254740992 : Int) := by
      rw [even]
      exact Binary64.number_ofInt (by decide)
    rw [Binary64.exact, if_pos (by decide), whole, Int.cast_ofNat]
  have wrong : ¬ AnsweredExactly a f .equal := by
    intro right
    have given : compare? (int a) .equal (float f) = some true := by decide +kernel
    have different : (9007199254740993 : ℚ) ≠ 9007199254740992 := by decide
    rw [right.int_first, exact, Option.some.injEq, decide_eq_true_eq] at given
    exact different (Extended.ofRat_inj.1 given)
  obtain ⟨near, -, -, -, -, -, passes⟩ := compare_int_float a f number
  obtain ⟨-, nearest, equal⟩ := passes ⟨_, wrong⟩
  rw [← nearest] at near
  exact ⟨number, exact, wrong, near, equal⟩

end Value

end RuleWatch
