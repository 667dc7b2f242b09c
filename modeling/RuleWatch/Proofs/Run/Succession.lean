import Mathlib
import RuleWatch.Proofs.Run.Moments
/-!
  Running a list of rules is running them one after another, each from the state that
  the one before has left, and it stops where a condition cannot be evaluated: nothing
  comes of that run, and nothing after it (`Runner.runAll_stops`).

  `Runner.Succession` says what one run after another is. It is told by single runs and
  knows nothing of lists of rules being run.
-/

namespace RuleWatch.Runner

variable {σ ε ι : Type}

/-- Runs of rules one after another, all of which gave reports: from the first state,
through the moments of each, to the last state. -/
inductive Succession (e : Runner σ ε ι) (depth : Nat) :
    State σ → List (Rule ε) → List Report → List (Moment σ ε) → State σ → Prop where
  | nil (s : State σ) : Succession e depth s [] [] [] s
  | cons {s s' s'' : State σ} {rule : Rule ε} {rules : List (Rule ε)} {report : Report}
      {reports : List Report} {ms : List (Moment σ ε)} (ran : e.run depth rule s = (.ok report, s'))
      (rest : Succession e depth s' rules reports ms s'') :
      Succession e depth s (rule :: rules) (report :: reports) (e.moments depth rule s ++ ms) s''

theorem moments_of_error {e : Runner σ ε ι} {depth : Nat} {rule : Rule ε} {s : State σ} {error : ι}
    (h : e.evaluate s.context rule.condition = .error error) :
    e.moments depth rule s = [⟨.began rule, s⟩] := by
  have told := e.run_moments depth rule s
  rw [run_error_iff.2 ⟨h, rfl⟩] at told
  exact told.2

section
variable {e : Runner σ ε ι} {depth : Nat} {s s' : State σ} {rules : List (Rule ε)} {reports : List Report}
  {ms : List (Moment σ ε)}

/-- If all runs give reports, they are what is answered, in order. -/
theorem runAll_of_succession (h : e.Succession depth s rules reports ms s') :
    e.runAll depth rules s = (.ok reports, s') ∧ e.runAllMoments depth rules s = ms := by
  induction h with
  | nil s => exact ⟨rfl, rfl⟩
  | cons ran _ ih =>
    obtain ⟨answer, moments⟩ := ih
    simp only [runAll, runAllMoments, ran, answer, moments, and_true]
    rfl

/-- The runs before the first that fails are all that has happened, but that the
condition of that one has been looked at. -/
theorem runAll_of_failure {before after : List (Rule ε)} {rule : Rule ε} {error : ι}
    (h : e.Succession depth s before reports ms s') (fails : e.evaluate s'.context rule.condition = .error error) :
    e.runAll depth (before ++ rule :: after) s = (.error error, s') ∧
      e.runAllMoments depth (before ++ rule :: after) s = ms ++ [⟨.began rule, s'⟩] := by
  induction h with
  | nil s =>
    have ran : e.run depth rule s = (.error error, s) := run_error_iff.2 ⟨fails, rfl⟩
    simp only [List.nil_append, runAll, runAllMoments, ran, moments_of_error fails, List.append_nil, and_true]
  | cons ran _ ih =>
    obtain ⟨answer, moments⟩ := ih fails
    simp only [List.cons_append, runAll, runAllMoments, ran, answer, moments, List.append_assoc, and_true]
    rfl

end

/-- Either all runs give reports, or there is a first that fails. -/
theorem succession_or_failure (e : Runner σ ε ι) (depth : Nat) (rules : List (Rule ε)) (s : State σ) :
    (∃ reports ms s', e.Succession depth s rules reports ms s') ∨
      ∃ before rule after reports ms s' error, rules = before ++ rule :: after ∧
        e.Succession depth s before reports ms s' ∧ e.evaluate s'.context rule.condition = .error error := by
  induction rules generalizing s with
  | nil => exact Or.inl ⟨_, _, _, .nil s⟩
  | cons rule rest ih =>
    cases ran : e.run depth rule s with
    | mk answer s₁ =>
      cases answer with
      | error error =>
        obtain ⟨fails, -⟩ := run_error_iff.1 ran
        exact Or.inr ⟨[], rule, rest, _, _, s, error, rfl, .nil s, fails⟩
      | ok report =>
        rcases ih s₁ with ⟨reports, ms, s', all⟩ | ⟨before, other, after, reports, ms, s', error, split, front, fails⟩
        · exact Or.inl ⟨_, _, _, .cons ran all⟩
        · exact Or.inr ⟨rule :: before, other, after, _, _, s', error, by rw [split]; rfl, .cons ran front, fails⟩

/-- **Lists of rules are run up to the first that cannot be evaluated.** For whatever
handlers, rules and state:

* all rules give reports, run one after another, if and only if their reports are the
  answer, in order, and what has happened is what happens in those runs;
* the answer is an error if and only if it is the error of a condition in the state that
  the rules before have left, all of which give reports;
* then the context, the history, the clock and the journal are those that running the
  rules before that one leaves, and nothing else has happened on the way, but that its
  run began. -/
theorem runAll_stops (e : Runner σ ε ι) (depth : Nat) (rules : List (Rule ε)) (s : State σ) :
    (∀ reports ms s', e.Succession depth s rules reports ms s' ↔
      e.runAll depth rules s = (.ok reports, s') ∧ e.runAllMoments depth rules s = ms) ∧
    (∀ error s', e.runAll depth rules s = (.error error, s') ↔
      ∃ before rule after reports ms, rules = before ++ rule :: after ∧
        e.Succession depth s before reports ms s' ∧ e.evaluate s'.context rule.condition = .error error) ∧
    ∀ before rule after reports ms s' error, rules = before ++ rule :: after →
      e.Succession depth s before reports ms s' → e.evaluate s'.context rule.condition = .error error →
      e.runAll depth before s = (.ok reports, s') ∧ e.runAllMoments depth before s = ms ∧
        e.run depth rule s' = (.error error, s') ∧
        e.runAllMoments depth rules s = ms ++ [⟨.began rule, s'⟩] := by
  refine ⟨?_, ?_, ?_⟩
  · intro reports ms s'
    refine ⟨runAll_of_succession, ?_⟩
    intro answered
    obtain ⟨answer, rfl⟩ := answered
    rcases e.succession_or_failure depth rules s with ⟨reports', ms, s'', all⟩ | ⟨_, _, _, _, _, _, _, rfl, front, fails⟩
    · obtain ⟨answer', moments⟩ := runAll_of_succession all
      rw [answer] at answer'
      cases answer'
      rwa [moments]
    · rw [(runAll_of_failure front fails).1] at answer
      cases answer
  · intro error s'
    refine ⟨?_, ?_⟩
    · intro answer
      rcases e.succession_or_failure depth rules s with ⟨_, _, _, all⟩ | ⟨before, rule, after, _, _, _, _, rfl, front, fails⟩
      · rw [(runAll_of_succession all).1] at answer
        cases answer
      · rw [(runAll_of_failure front fails).1] at answer
        cases answer
        exact ⟨before, rule, after, _, _, rfl, front, fails⟩
    · intro given
      obtain ⟨before, rule, after, _, _, rfl, front, fails⟩ := given
      exact (runAll_of_failure front fails).1
  · intro before rule after reports ms s' error split front fails
    obtain ⟨answer, moments⟩ := runAll_of_succession front
    refine ⟨answer, moments, run_error_iff.2 ⟨fails, rfl⟩, ?_⟩
    rw [split]
    exact (runAll_of_failure front fails).2

/-- Conditions are limits, and cannot be evaluated once the context has reached them. Every
action adds one to the context. -/
def filling : Runner Nat Nat String :=
  ⟨fun level limit => if level < limit then .ok true else .error "full",
    fun _ => .ok fun _ _ => .look fun level => .write (level + 1) (.done (.ok ()))⟩

def upToTwo : Rule Nat := ⟨.ofNat 1, "up to two", 2, [⟨"fill", 1, ∅⟩], [], ⟨3, Nat.succ_pos 2⟩⟩

/-- Of four runs of one rule the third fails, because of what the actions of the first two
have written, and the fourth does not begin. -/
theorem runAll_stops_full :
    let start : State Nat := .start 0 (.stopped ⟨0, 0⟩)
    ∃ reports s', filling.runAll 0 [upToTwo, upToTwo] start = (.ok reports, s') ∧
      s'.context = 2 ∧ s'.history.sequence = 2 ∧ s'.journal.length = 6 ∧
      filling.runAll 0 [upToTwo, upToTwo, upToTwo, upToTwo] start = (.error "full", s') ∧
      filling.runAllMoments 0 [upToTwo, upToTwo, upToTwo, upToTwo] start =
        filling.runAllMoments 0 [upToTwo, upToTwo] start ++ [⟨.began upToTwo, s'⟩] := by
  intro start
  have facts : (filling.runAll 0 [upToTwo, upToTwo] start).1.isOk = true ∧
      (filling.runAll 0 [upToTwo, upToTwo] start).2.context = 2 ∧
      (filling.runAll 0 [upToTwo, upToTwo] start).2.history.sequence = 2 ∧
      (filling.runAll 0 [upToTwo, upToTwo] start).2.journal.length = 6 := by
    cbv
  rcases both : filling.runAll 0 [upToTwo, upToTwo] start with ⟨_ | reports, s'⟩ <;> rw [both] at facts
  · cases facts.1
  obtain ⟨-, context, sequence, journal⟩ := facts
  obtain ⟨all, -, -⟩ := runAll_stops filling 0 [upToTwo, upToTwo] start
  have front := (all reports _ s').2 ⟨both, rfl⟩
  have fails : filling.evaluate s'.context upToTwo.condition = .error "full" := by
    rw [context]
    rfl
  obtain ⟨-, failure, rest⟩ := runAll_stops filling 0 ([upToTwo, upToTwo] ++ upToTwo :: [upToTwo]) start
  have stopped := (failure "full" s').2 ⟨_, _, _, _, _, rfl, front, fails⟩
  obtain ⟨-, -, -, moments⟩ := rest _ _ _ _ _ _ _ rfl front fails
  exact ⟨reports, s', rfl, context, sequence, journal, stopped, moments⟩

end RuleWatch.Runner
