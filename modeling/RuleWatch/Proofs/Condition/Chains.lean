import Mathlib
import RuleWatch.Proofs.Condition.Reached
import RuleWatch.Proofs.RuleText.Conditions
/-!
  Chains of AND or of OR. However its parts are grouped, a chain comes to what the first
  part comes to that decides it: of ANDs the first that is false or misses, of ORs the first
  that is true or misses. If no part decides, a chain of ANDs is true and one of ORs false.
  NOT goes into a chain and turns its operator round (`Condition.chains_scan`).

  The laws hold for misses as they do for outcomes, since the part that decides is the same
  one however the parts are grouped.
-/

namespace RuleWatch.Condition

open RuleWatch.Parser (Many Reads)
open RuleWatch.RuleText (chain conjunction disjunction either link skipTrivia)

/-! ## The two operators -/

/-- The operators that chains are made with. -/
inductive Connective where
  | and
  | or
deriving DecidableEq

namespace Connective

def join : Connective → Condition → Condition → Condition
  | and => Condition.and
  | or => Condition.or

/-- The outcome of a part that leaves the chain undecided. -/
def neutral : Connective → Bool
  | and => true
  | or => false

def dual : Connective → Connective
  | and => or
  | or => and

end Connective

variable (k : Connective) (mode : Mode) (fields : Fields)

theorem evaluate_join (a b : Condition) :
    (k.join a b).evaluate mode fields = (a.evaluate mode fields).bind fun outcome =>
      if outcome = k.neutral then b.evaluate mode fields else .ok outcome := by
  cases k with
  | and =>
    refine (evaluate_and mode fields a b).trans (bind_congr_of_ok fun outcome _ => ?_)
    cases outcome <;> rfl
  | or =>
    refine (evaluate_or mode fields a b).trans (bind_congr_of_ok fun outcome _ => ?_)
    cases outcome <;> rfl

/-! ## Scanning -/

/-- What conditions come to, in order, up to the first that decides. -/
def scan (cs : List Condition) : Except Miss Bool :=
  ((cs.map (evaluate mode fields)).find? (· ≠ .ok k.neutral)).getD (.ok k.neutral)

@[simp] theorem scan_nil : scan k mode fields [] = .ok k.neutral := rfl

theorem scan_cons (c : Condition) (cs : List Condition) :
    scan k mode fields (c :: cs) = (c.evaluate mode fields).bind fun outcome =>
      if outcome = k.neutral then scan k mode fields cs else .ok outcome := by
  unfold scan
  rw [List.map_cons, List.find?_cons]
  cases c.evaluate mode fields with
  | error miss => simp [Except.bind]
  | ok outcome => by_cases h : outcome = k.neutral <;> simp [Except.bind, h]

theorem scan_append (cs ds : List Condition) :
    scan k mode fields (cs ++ ds) = (scan k mode fields cs).bind fun outcome =>
      if outcome = k.neutral then scan k mode fields ds else .ok outcome := by
  induction cs with
  | nil => exact (if_pos rfl).symm
  | cons c cs ih =>
    rw [List.cons_append, scan_cons, scan_cons]
    cases c.evaluate mode fields with
    | error miss => rfl
    | ok outcome => by_cases h : outcome = k.neutral <;> simp [Except.bind, h, ih]

/-! ## Groupings -/

/-- Conditions joined by an operator, in their order and in any grouping. -/
inductive Grouped : List Condition → Condition → Prop where
  | single (c : Condition) : Grouped [c] c
  | join {cs ds : List Condition} {c d : Condition} (left : Grouped cs c) (right : Grouped ds d) :
      Grouped (cs ++ ds) (k.join c d)

variable {k}

theorem Grouped.evaluate_eq {cs : List Condition} {c : Condition} (h : Grouped k cs c) :
    c.evaluate mode fields = scan k mode fields cs := by
  induction h with
  | single c =>
    rw [scan_cons, scan_nil]
    cases c.evaluate mode fields with
    | error miss => rfl
    | ok outcome => by_cases h : outcome = k.neutral <;> simp [Except.bind, h]
  | join _ _ ih ih' => rw [evaluate_join, scan_append, ih, ih']

/-- Further parts are joined on the right, one at a time. -/
theorem Grouped.foldl {cs : List Condition} {c : Condition} (h : Grouped k cs c) (others : List Condition) :
    Grouped k (cs ++ others) (others.foldl k.join c) := by
  induction others generalizing cs c with
  | nil => rwa [List.append_nil]
  | cons d others ih =>
    have longer := ih (h.join (.single d))
    rwa [List.append_assoc] at longer

theorem grouped_foldl (first : Condition) (others : List Condition) :
    Grouped k (first :: others) (others.foldl k.join first) :=
  (Grouped.single first).foldl others

/-- The text up to `r` is read as parts with a sign between each two of them. -/
def ReadAsParts (item : Parser Condition) (sign : Parser Unit) (s : List Char) (cs : List Condition)
    (r : List Char) : Prop :=
  ∃ first t others, cs = first :: others ∧ item s = .ok first t ∧ Many (Reads (link item sign)) t others r

/-- A chain that is read is a grouping of the parts that are read. -/
theorem grouped_chain {item : Parser Condition} {sign : Parser Unit} {s r : List Char} {c : Condition}
    (h : chain item sign k.join s = .ok c r) : ∃ cs, ReadAsParts item sign s cs r ∧ Grouped k cs c := by
  simp only [chain, Parser.bind_ok, Parser.pure_ok, Parser.many, Parser.upTo_ok] at h
  obtain ⟨first, t, read, others, t', ⟨items, -⟩, rfl, rfl⟩ := h
  exact ⟨first :: others, ⟨first, t, others, rfl, read, items⟩, grouped_foldl first others⟩

/-! ## Negation -/

/-- NOT goes into a chain and turns its operator round. -/
theorem evaluate_not_join (a b : Condition) :
    (not (k.join a b)).evaluate mode fields = (k.dual.join (not a) (not b)).evaluate mode fields := by
  rw [evaluate_not, evaluate_join, evaluate_join, evaluate_not, evaluate_not]
  cases a.evaluate mode fields with
  | error miss => rfl
  | ok outcome => cases k <;> cases outcome <;> rfl

theorem evaluate_not_not (a : Condition) : (not (not a)).evaluate mode fields = a.evaluate mode fields := by
  rw [evaluate_not, evaluate_not]
  cases a.evaluate mode fields with
  | error miss => rfl
  | ok outcome => exact congrArg Except.ok (Bool.not_not outcome)

/-- **Chains are scanned from left to right.** For both modes and all fields:

* conditions joined to the left one after another come to what scanning them comes to, and so
  does every other grouping that keeps their order; any two groupings come to the same, the
  miss included;
* what is read as conjunctions and disjunctions comes to what scanning the parts comes to that
  are read between the operators;
* NOT turns AND into OR and OR into AND, and two NOTs make no difference. -/
theorem chains_scan (mode : Mode) (fields : Fields) :
    (∀ first others,
      (others.foldl and first).evaluate mode fields = scan .and mode fields (first :: others) ∧
      (others.foldl or first).evaluate mode fields = scan .or mode fields (first :: others)) ∧
    (∀ k cs c d, Grouped k cs c → Grouped k cs d →
      c.evaluate mode fields = scan k mode fields cs ∧ d.evaluate mode fields = c.evaluate mode fields) ∧
    (∀ operand s c r, conjunction operand s = .ok c r →
      ∃ cs, ReadAsParts operand (either "AND" "and") s cs r ∧
        c.evaluate mode fields = scan .and mode fields cs) ∧
    (∀ operand s c r, disjunction operand s = .ok c r →
      ∃ cs, ReadAsParts (conjunction operand) (either "OR" "or") (skipTrivia none s) cs r ∧
        c.evaluate mode fields = scan .or mode fields cs) ∧
    ∀ a b : Condition,
      (not (and a b)).evaluate mode fields = (or (not a) (not b)).evaluate mode fields ∧
      (not (or a b)).evaluate mode fields = (and (not a) (not b)).evaluate mode fields ∧
      (not (not a)).evaluate mode fields = a.evaluate mode fields := by
  refine ⟨?_, ?_, ?_, ?_, ?_⟩
  · intro first others
    exact ⟨(grouped_foldl (k := .and) first others).evaluate_eq mode fields,
      (grouped_foldl (k := .or) first others).evaluate_eq mode fields⟩
  · intro k cs c d grouped grouped'
    have scanned := grouped.evaluate_eq mode fields
    exact ⟨scanned, (grouped'.evaluate_eq mode fields).trans scanned.symm⟩
  · intro operand s c r read
    obtain ⟨cs, parts, grouped⟩ := grouped_chain (k := .and) read
    exact ⟨cs, parts, grouped.evaluate_eq mode fields⟩
  · intro operand s c r read
    simp only [disjunction, Parser.bind_ok, RuleText.trivia_ok] at read
    obtain ⟨-, -, rfl, read⟩ := read
    obtain ⟨cs, parts, grouped⟩ := grouped_chain (k := .or) read
    exact ⟨cs, parts, grouped.evaluate_eq mode fields⟩
  · intro a b
    exact ⟨evaluate_not_join (k := .and) mode fields a b, evaluate_not_join (k := .or) mode fields a b,
      evaluate_not_not mode fields a⟩

/-- The second part of three misses, so that in strict mode its miss is what all groupings of
the chain come to; the third misses as well, but is not looked at. -/
theorem chains_scan_missing :
    let fields := (∅ : Fields).insert "lit" (.bool true)
    let parts := [truthy "lit", truthy "warm", truthy "full"]
    let left := and (and (truthy "lit") (truthy "warm")) (truthy "full")
    let right := and (truthy "lit") (and (truthy "warm") (truthy "full"))
    Grouped .and parts left ∧ Grouped .and parts right ∧
      left.evaluate .strict fields = .error (.absent "warm") ∧
      right.evaluate .strict fields = .error (.absent "warm") := by
  intro fields parts left right
  have grouped : Grouped .and parts left := ((Grouped.single _).join (.single _)).join (.single _)
  have grouped' : Grouped .and parts right := (Grouped.single _).join ((Grouped.single _).join (.single _))
  obtain ⟨scanned, same⟩ := (chains_scan .strict fields).2.1 .and parts left right grouped grouped'
  have miss : scan .and .strict fields parts = .error (.absent "warm") := by
    subst fields parts
    cbv
  exact ⟨grouped, grouped', scanned.trans miss, same.trans (scanned.trans miss)⟩

end RuleWatch.Condition
