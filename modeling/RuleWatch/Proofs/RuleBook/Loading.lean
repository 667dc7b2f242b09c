import Mathlib
import RuleWatch.Proofs.Rule.Drafts
import RuleWatch.RuleBook.Loading
/-!
  Rule books are loaded whole or not at all. A text that is read gives drafts, of which the
  first that is not valid stops the loading, whatever else is wrong with the text; then the
  first name that repeats an earlier one does; and if nothing does, the book has one rule for
  each draft (`RuleBook.load_in_order`).
-/

namespace RuleWatch

/-! ## Repeated names -/

/-- The name is the first in the list that repeats an earlier one. -/
def FirstRepeat (names : List String) (name : String) : Prop :=
  ∃ before after, names = before ++ name :: after ∧ before.Nodup ∧ name ∈ before

theorem FirstRepeat.not_nodup {names : List String} {name : String} (h : FirstRepeat names name) :
    ¬ names.Nodup := by
  obtain ⟨before, after, rfl, -, again⟩ := h
  intro distinct
  exact List.disjoint_of_nodup_append distinct again List.mem_cons_self

/-- The names before are kept with the newest in front. -/
theorem split_of_firstRepeated {before names : List String} {name : String} (distinct : before.Nodup)
    (h : firstRepeated before names = some name) :
    ∃ front after, names = front ++ name :: after ∧ (front.reverse ++ before).Nodup ∧
      name ∈ front.reverse ++ before := by
  induction names generalizing before with
  | nil => cases h
  | cons first rest ih =>
    unfold firstRepeated at h
    split at h
    · next again =>
      cases h
      exact ⟨[], rest, rfl, distinct, again⟩
    · next fresh =>
      obtain ⟨front, after, rfl, distinct, again⟩ := ih (List.nodup_cons.2 ⟨fresh, distinct⟩) h
      refine ⟨first :: front, after, rfl, ?_, ?_⟩
      · simpa using distinct
      · simpa using again

theorem firstRepeat_of_firstRepeated {names : List String} {name : String}
    (h : firstRepeated [] names = some name) : FirstRepeat names name := by
  obtain ⟨front, after, split, distinct, again⟩ := split_of_firstRepeated List.nodup_nil h
  rw [List.append_nil] at distinct again
  exact ⟨front, after, split, List.nodup_reverse.1 distinct, List.mem_reverse.1 again⟩

/-! ## Books of rules -/

namespace RuleBook

theorem ofRules_of_nodup {rules : List (Rule Condition)} (distinct : (rules.map Rule.name).Nodup) :
    ofRules rules = .ok ⟨rules, distinct⟩ := by
  unfold ofRules
  split
  · next name found => exact absurd distinct (firstRepeat_of_firstRepeated found).not_nodup
  · rfl

theorem ofRules_of_repeat {rules : List (Rule Condition)} (repeated : ¬ (rules.map Rule.name).Nodup) :
    ∃ name, FirstRepeat (rules.map Rule.name) name ∧ ofRules rules = .error (.duplicateName name) := by
  unfold ofRules
  split
  · next name found => exact ⟨name, firstRepeat_of_firstRepeated found, rfl⟩
  · next none => exact absurd (firstRepeated_eq_none none).1 repeated

/-- A book has no two rules of one name, and so a name finds its only rule. -/
theorem get?_eq_some_iff {book : RuleBook} {name : String} {rule : Rule Condition} :
    book.get? name = some rule ↔ rule ∈ book.rules ∧ rule.name = name := by
  refine ⟨?_, ?_⟩
  · intro found
    exact ⟨List.mem_of_find?_eq_some found, by simpa using List.find?_some found⟩
  · rintro ⟨among, rfl⟩
    cases found : book.get? rule.name with
    | none => simpa using List.find?_eq_none.1 found rule among
    | some other =>
      have among' := List.mem_of_find?_eq_some found
      have same : other.name = rule.name := by simpa using List.find?_some found
      rw [List.inj_on_of_nodup_map book.distinct among' among same]

end RuleBook

/-! ## Loading -/

/-- Building drafts in order gives a rule for each, or fails at the first that is not valid. -/
theorem Draft.buildAll_spec (identity : Nat → RuleId) (i : Nat) (drafts : List (Draft Condition)) :
    match (buildAll identity i drafts).2 with
    | .ok rules => (∀ d ∈ drafts, d.Valid) ∧ List.Forall₂ Draft.Describes drafts rules
    | .error e => ∃ d, FirstWith (fun d => ¬ d.Valid) drafts d ∧ d.Fault e := by
  induction drafts generalizing i with
  | nil => exact ⟨by simp, .nil⟩
  | cons d rest ih =>
    rw [buildAll]
    cases built : d.build (identity i) with
    | error e =>
      have invalid : ¬ d.Valid := by simp [valid_iff_build (identity i), built]
      exact ⟨d, .head (x := d) invalid rest, fault_of_build built⟩
    | ok rule =>
      have valid : d.Valid := (valid_iff_build (identity i)).2 ⟨rule, built⟩
      replace ih := ih (i + 1)
      cases others : (buildAll identity (i + 1) rest).2 with
      | error e =>
        rw [others] at ih
        obtain ⟨refused, first, fault⟩ := ih
        simp only [others]
        exact ⟨refused, first.tail (not_not.2 valid), fault⟩
      | ok rules =>
        rw [others] at ih
        simp only [others]
        exact ⟨List.forall_mem_cons.2 ⟨valid, ih.1⟩, .cons (describes_of_build built) ih.2⟩

namespace RuleBook

/-- What becomes of a text that can be read. -/
theorem load_of_read (identity : Nat → RuleId) {text : String} {drafts : List (Draft Condition)}
    (read : RuleText.parseRules text = .ok drafts) :
    (load identity text).2 = match (Draft.buildAll identity 0 drafts).2 with
      | .error e => .error (.refused e)
      | .ok rules => (ofRules rules).mapError .refused := by
  unfold load
  rw [read]
  rcases all : Draft.buildAll identity 0 drafts with ⟨events, _ | rules⟩
  · simp only [all]
  · simp only [all]
    cases ofRules rules <;> rfl

theorem names_of_describes {drafts : List (Draft Condition)} {rules : List (Rule Condition)}
    (h : List.Forall₂ Draft.Describes drafts rules) : rules.map Rule.name = drafts.map Draft.name := by
  induction h with
  | nil => rfl
  | cons described _ ih => rw [List.map_cons, List.map_cons, described.name, ih]

/-- **Loading is all or nothing, and errors come in a fixed order.** For every text:

* if it cannot be read, that is the error;
* otherwise, if a rule is not valid, the error is the fault of the first such rule, whatever
  names are repeated;
* otherwise, if a name is repeated, it is that of the earliest rule that repeats one;
* otherwise there is a book of as many rules, each of which is what the text says.

Rules are made into a book if and only if no two have one name, which no list has in which a
rule stands twice. In a book, names are distinct, and a name finds the rule that has it. -/
theorem load_in_order (identity : Nat → RuleId) (text : String) :
    (∀ mistake, RuleText.parseRules text = .error mistake →
      (load identity text).2 = .error (.unreadable mistake)) ∧
    (∀ drafts, RuleText.parseRules text = .ok drafts →
      ((∃ d ∈ drafts, ¬ d.Valid) → ∃ d e, FirstWith (fun d => ¬ d.Valid) drafts d ∧ d.Fault e ∧
        (load identity text).2 = .error (.refused e)) ∧
      ((∀ d ∈ drafts, d.Valid) → ¬ (drafts.map Draft.name).Nodup →
        ∃ name, FirstRepeat (drafts.map Draft.name) name ∧
          (load identity text).2 = .error (.refused (.duplicateName name))) ∧
      ((∀ d ∈ drafts, d.Valid) → (drafts.map Draft.name).Nodup →
        ∃ book, (load identity text).2 = .ok book ∧ List.Forall₂ Draft.Describes drafts book.rules)) ∧
    (∀ rules, ((∃ book, ofRules rules = .ok book) ↔ (rules.map Rule.name).Nodup) ∧
      (∀ book, ofRules rules = .ok book → book.rules = rules) ∧
      (∀ e, ofRules rules = .error e → ∃ name, e = .duplicateName name ∧ FirstRepeat (rules.map Rule.name) name) ∧
      ∀ rule, [rule, rule].Sublist rules → ∃ e, ofRules rules = .error e) ∧
    ∀ book : RuleBook, (book.rules.map Rule.name).Nodup ∧
      ∀ name rule, book.get? name = some rule ↔ rule ∈ book.rules ∧ rule.name = name := by
  refine ⟨?_, ?_, ?_, fun book => ⟨book.distinct, fun name rule => get?_eq_some_iff⟩⟩
  · intro mistake unread
    unfold load
    rw [unread]
  · intro drafts read
    have built := Draft.buildAll_spec identity 0 drafts
    rw [load_of_read identity read]
    cases all : (Draft.buildAll identity 0 drafts).2 with
    | error e =>
      rw [all] at built
      obtain ⟨d, first, fault⟩ := built
      have invalid : ¬ ∀ d ∈ drafts, d.Valid := fun valid => first.1 (valid d first.mem)
      exact ⟨fun _ => ⟨d, e, first, fault, rfl⟩, fun valid => absurd valid invalid, fun valid => absurd valid invalid⟩
    | ok rules =>
      rw [all] at built
      obtain ⟨valid, described⟩ := built
      rw [← names_of_describes described]
      refine ⟨?_, fun _ repeated => ?_, fun _ distinct => ?_⟩
      · rintro ⟨d, among, invalid⟩
        exact absurd (valid d among) invalid
      · obtain ⟨name, first, refused⟩ := ofRules_of_repeat repeated
        exact ⟨name, first, congrArg (Except.mapError LoadError.refused) refused⟩
      · exact ⟨⟨rules, distinct⟩, congrArg (Except.mapError LoadError.refused) (ofRules_of_nodup distinct), described⟩
  · intro rules
    by_cases distinct : (rules.map Rule.name).Nodup
    · rw [ofRules_of_nodup distinct]
      refine ⟨by simp [distinct], ?_, by simp, ?_⟩
      · intro book made
        cases made
        rfl
      · intro rule twice
        have names := (twice.map Rule.name).nodup distinct
        simp at names
    · obtain ⟨name, first, refused⟩ := ofRules_of_repeat distinct
      rw [refused]
      refine ⟨by simp [distinct], by simp, ?_, fun _ _ => ⟨_, rfl⟩⟩
      intro e made
      cases made
      exact ⟨name, rfl, first⟩

/-- Nothing is wrong with the first rule of a text. In the first two texts the second rule
repeats its name, and in the first of them its action waits for no outcome besides. -/
theorem load_in_order_second :
    let identity := RuleId.ofNat
    let file (name threshold : String) := "rule a: x rule " ++ name ++ ": y on true: page after " ++ threshold
    (load identity (file "a" "0")).2 = .error (.refused (.zeroThreshold "a" "page")) ∧
      (load identity (file "a" "2")).2 = .error (.refused (.duplicateName "a")) ∧
      ∃ book, (load identity (file "b" "2")).2 = .ok book ∧
        book.rules.map Rule.name = ["a", "b"] ∧ book.rules.map (·.bound.size) = [1, 2] := by
  intro identity file
  let first : Draft Condition := { name := "a", condition := .truthy "x" }
  let second (name : String) (threshold : Nat) : Draft Condition :=
    { name, condition := .truthy "y", onTrue := [.ofParams "page" threshold []] }
  have valid : first.Valid := ⟨by simp [first, Draft.actions], by simp [first]⟩
  refine ⟨?_, ?_, ?_⟩
  · have read : RuleText.parseRules (file "a" "0") = .ok [first, second "a" 0] := by cbv
    have fault : (second "a" 0).Fault (.zeroThreshold "a" "page") :=
      .zeroThreshold (d := second "a" 0) (a := .ofParams "page" 0 []) ⟨rfl, [], [], rfl, by simp⟩
    have invalid : ¬ (second "a" 0).Valid := fun valid => valid.thresholds _ List.mem_cons_self rfl
    obtain ⟨-, laws, -⟩ := load_in_order identity (file "a" "0")
    obtain ⟨d, e, first_invalid, fault', answer⟩ := (laws _ read).1 ⟨_, by simp, invalid⟩
    have second_invalid : FirstWith (fun d : Draft Condition => ¬ d.Valid) [first, second "a" 0] (second "a" 0) :=
      .tail (not_not.2 valid) (.head (x := second "a" 0) invalid [])
    obtain rfl := second_invalid.unique first_invalid
    obtain rfl := fault.unique fault'
    exact answer
  · have read : RuleText.parseRules (file "a" "2") = .ok [first, second "a" 2] := by cbv
    have valid' : (second "a" 2).Valid := ⟨by decide, by decide⟩
    obtain ⟨-, laws, -⟩ := load_in_order identity (file "a" "2")
    obtain ⟨name, ⟨before, after, split, -⟩, answer⟩ := (laws _ read).2.1 (by simp [valid, valid']) (by decide)
    have among : name ∈ [first, second "a" 2].map Draft.name := by
      rw [split]
      simp
    obtain rfl : name = "a" := by simpa [first, second] using among
    exact answer
  · have read : RuleText.parseRules (file "b" "2") = .ok [first, second "b" 2] := by cbv
    have valid' : (second "b" 2).Valid := ⟨by decide, by decide⟩
    obtain ⟨-, laws, -⟩ := load_in_order identity (file "b" "2")
    obtain ⟨book, answer, described⟩ := (laws _ read).2.2 (by simp [valid, valid']) (by decide)
    refine ⟨book, answer, ?_⟩
    generalize book.rules = rules at described
    obtain ⟨rule, others, d, described', rfl⟩ := List.forall₂_cons_left_iff.1 described
    obtain ⟨rule', rest, d', none, rfl⟩ := List.forall₂_cons_left_iff.1 described'
    obtain rfl := List.forall₂_nil_left_iff.1 none
    have silent : rule.bound.size = 1 := by simpa [first, Draft.actions] using d.silent rfl
    have silent' : 2 = rule'.bound.size ∧ 2 ≤ rule'.bound.size := by
      simpa [second, Draft.actions, Action.ofParams] using d'.silent rfl
    simp [d.name, d'.name, silent, ← silent'.1, first, second]

end RuleBook

end RuleWatch
