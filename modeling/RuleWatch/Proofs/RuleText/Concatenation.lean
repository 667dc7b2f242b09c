import Mathlib
import RuleWatch.Proofs.RuleText.Fronts
import RuleWatch.RuleText.Mistake
/-!
  Rule files one after another. A file ends with blanks and comments behind its last
  rule, and a line break ends an open comment: what the next file begins with is a rule
  or nothing at all, and neither goes on with anything that the last rule of the first
  file has left open. Hence the rules of two files on end are those of the first and then
  those of the second (`parseRules_append`).
-/

namespace RuleWatch.RuleText

open Grammar
open RuleWatch.Parser (Many)

/-- Blanks and comments may stand in front of a rule. -/
theorem ruleItem_gap {s t r : List Char} {d : Draft Condition} (gap : Trivia s t) (h : RuleItem t d r) :
    RuleItem s d r := by
  obtain ⟨gap₁, word, gap₂, is_name, note, colon, expression, items, gathered⟩ := h
  exact RuleItem.mk (trivia_trans gap gap₁) word gap₂ is_name note colon expression items gathered

/-- Blanks and comments may stand in front of a file. -/
theorem file_gap {s t : List Char} {ds : List (Draft Condition)} (gap : Trivia s t) (h : File t ds) :
    File s ds := by
  obtain ⟨r, items, ended⟩ := h
  cases items with
  | nil => exact ⟨s, Many.nil s, trivia_trans gap ended⟩
  | cons first others => exact ⟨r, Many.cons (ruleItem_gap gap first) others, ended⟩

/-- What follows at the beginning of a file calls for nothing from the text in front
of it: a rule, or nothing. -/
theorem calm_of_file {r s : List Char} {ds : List (Draft Condition)} (h : File s ds) : Calm r s := by
  obtain ⟨t, items, ended⟩ := h
  cases items with
  | nil => exact calm_of_end ended
  | cons first _ => exact calm_of_rule (follows_of_rule first)

/-- Files on end are one file. -/
theorem file_append {s t : List Char} {ds es : List (Draft Condition)} (h : File s ds) (k : File t es) :
    File (s ++ '\n' :: t) (ds ++ es) := by
  obtain ⟨r, items, ended⟩ := h
  -- the first file is resumed with the second: first its end, then its rules in front of that
  obtain ⟨r', resumed, gap⟩ := trivia_resumed ended (Resumed.here [] t)
  have second : File r' es := file_gap (trivia_trans gap (Trivia.blank (by decide) (Trivia.none t))) k
  obtain ⟨s', ⟨front, rfl, rfl⟩, -, items'⟩ := many_resumes rule_resumes items resumed (calm_of_file second)
  obtain ⟨q, others, ended'⟩ := second
  rw [List.append_nil]
  exact ⟨q, items'.append others, ended'⟩

/-- **Rule files concatenate.** If two texts are read as rules, so is the first with the
second on a new line behind it: as the rules of the first and then those of the second. -/
theorem parseRules_append {s t : String} {ds es : List (Draft Condition)} (first : parseRules s = .ok ds)
    (second : parseRules t = .ok es) : parseRules (s ++ "\n" ++ t) = .ok (ds ++ es) := by
  rw [parseRules_iff] at first second ⊢
  have text : (s ++ "\n" ++ t).toList = s.toList ++ '\n' :: t.toList := by simp
  rw [text]
  exact file_append first second

/-- The first text ends with an action that has no clause and an open comment that looks
like one, and the rule of the second is called `with`. -/
theorem parseRules_append_comment :
    let unfinished := "rule a: low on true: act # after 2"
    let next := "rule with: ok > 1"
    let first : Draft Condition := { name := "a", condition := .truthy "low", onTrue := [.ofParams "act" 1 []] }
    let second : Draft Condition := { name := "with", condition := .compare "ok" .greater (.int 1) }
    parseRules unfinished = .ok [first] ∧ parseRules next = .ok [second] ∧
      parseRules (unfinished ++ "\n" ++ next) = .ok [first, second] := by
  intro unfinished next first second
  have read : parseRules unfinished = .ok [first] := by cbv
  have read' : parseRules next = .ok [second] := by cbv
  exact ⟨read, read', parseRules_append read read'⟩

end RuleWatch.RuleText
