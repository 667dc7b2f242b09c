import Mathlib
import RuleWatch.Proofs.Run.Endings
/-!
  Going through the actions of a rule is carrying out those that are due, one after another:
  each is found and carried out once, in the context that those before it have left, whatever
  became of them, and the others are not looked for (`Runner.considerAll_composes`).

  `Runner.performAll` and `Runner.turns` say what one after another is. They know nothing of
  thresholds and reports, and they tell no events. Events do not matter, because nothing that
  is carried out looks at the events so far: everything is `Blind` to them.
-/

namespace RuleWatch

variable {σ ε ι : Type}

/-! ## Nothing looks at the events -/

/-- From states that agree in all but their events, the answers are the same and the states
agree in all but their events. -/
def Blind {α : Type} (run : State σ → α × State σ) : Prop :=
  ∀ {s t : State σ}, s.Alike t → (run s).1 = (run t).1 ∧ (run s).2.Alike (run t).2

section
variable {nested : NestedRun σ ε ι}

theorem Script.blind_play (within : ∀ rule, Blind (nested rule)) (script : Script σ ε ι) :
    Blind (script.play nested) := by
  intro s t h
  induction script generalizing s t with
  | done ending => exact ⟨rfl, h⟩
  | look next ih =>
    simp only [play, ← h.context]
    exact ih _ h
  | write context next ih => exact ih ⟨rfl, h.history, h.clock⟩
  | run rule next ih =>
    obtain ⟨answer, state⟩ := within rule h
    simp only [play, ← answer]
    exact ih _ state
  | «recall» rule next ih =>
    simp only [play, ← h.history]
    exact ih _ h
  | forget rule next ih =>
    simp only [play, ← h.history]
    exact ih _ (h.forget rule)
  | clear next ih => exact ih h.clear

namespace Runner

variable (e : Runner σ ε ι)

theorem blind_perform (within : ∀ rule, Blind (nested rule)) (rule : Rule ε) (action : Action) :
    Blind (e.perform nested rule action) := by
  intro s t h
  rw [perform_eq, perform_eq]
  exact (e.invocation rule action).blind_play within h

section
variable (rule : Rule ε) {hits : Nat} {action : Action} {s t : State σ}

/-- An action that is not due leaves all as it was, but for an event. -/
theorem consider_waiting (nested : NestedRun σ ε ι) (waits : hits < action.threshold) (h : s.Alike t) :
    (e.consider nested rule hits action s).1 = .skipped ∧ (e.consider nested rule hits action s).2.Alike t := by
  rw [consider, if_pos waits]
  exact ⟨rfl, h.context, h.history, h.clock⟩

/-- An action that is due is carried out, and its status says how that ended. -/
theorem consider_carried (within : ∀ rule, Blind (nested rule)) (due : ¬ hits < action.threshold) (h : s.Alike t) :
    (e.consider nested rule hits action s).1 = .ofEnding (some (e.perform nested rule action t).1) ∧
      (e.consider nested rule hits action s).2.Alike (e.perform nested rule action t).2 := by
  obtain ⟨answer, state⟩ := e.blind_perform within rule action h
  obtain ⟨event, told⟩ := consider_due e nested rule hits action s due
  rw [told, ← perform_eq, answer]
  exact ⟨rfl, state.context, state.history, state.clock⟩

end

theorem blind_consider (within : ∀ rule, Blind (nested rule)) (rule : Rule ε) (hits : Nat) (action : Action) :
    Blind (e.consider nested rule hits action) := by
  intro s t h
  by_cases waits : hits < action.threshold
  · simp only [consider, if_pos waits, true_and]
    exact h.tell _ _
  · obtain ⟨status, state⟩ := e.consider_carried rule within waits h
    obtain ⟨status', state'⟩ := e.consider_carried rule within waits (.refl t)
    exact ⟨status.trans status'.symm, state.trans state'.symm⟩

theorem blind_considerAll (within : ∀ rule, Blind (nested rule)) (rule : Rule ε) (hits : Nat)
    (actions : List Action) : Blind (e.considerAll nested rule hits actions) := by
  induction actions with
  | nil => exact fun h => ⟨rfl, h⟩
  | cons action rest ih =>
    intro s t h
    obtain ⟨status, state⟩ := e.blind_consider within rule hits action h
    obtain ⟨reports, state⟩ := ih state
    simp only [considerAll, status, reports, true_and]
    exact state

theorem blind_runWith (within : ∀ rule, Blind (nested rule)) (rule : Rule ε) : Blind (e.runWith nested rule) := by
  intro s t h
  unfold runWith
  rw [← h.context]
  cases e.evaluate s.context rule.condition with
  | error error => exact ⟨rfl, h⟩
  | ok outcome =>
    have streak := h.streak rule.id rule.bound outcome
    have recorded := (h.record rule.id rule.bound outcome).tell
      (.evaluated rule.name outcome (s.record rule.id rule.bound outcome).1.size)
      (.evaluated rule.name outcome (t.record rule.id rule.bound outcome).1.size)
    obtain ⟨reports, state⟩ := e.blind_considerAll within rule (s.record rule.id rule.bound outcome).1.size
      (rule.actionsFor outcome) recorded
    simp only [← streak] at reports state ⊢
    exact ⟨by rw [reports], state⟩

theorem blind_nested (depth : Nat) (rule : Rule ε) : Blind (e.nested depth rule) := by
  induction depth generalizing rule with
  | zero => exact fun h => ⟨rfl, h⟩
  | succ depth ih =>
    intro s t h
    obtain ⟨answer, state⟩ := e.blind_runWith ih rule h
    rw [nested_answer, nested_answer, nested_state, nested_state, run_eq, answer]
    exact ⟨rfl, state⟩

end Runner

end

/-! ## One action after another -/

/-- The actions that so many equal outcomes in a row are enough for. -/
def due (hits : Nat) (actions : List Action) : List Action := actions.filter (·.threshold ≤ hits)

theorem due_cons_of_lt {hits : Nat} {action : Action} (waits : hits < action.threshold) (rest : List Action) :
    due hits (action :: rest) = due hits rest :=
  List.filter_cons_of_neg (by simpa using waits)

theorem due_cons_of_not_lt {hits : Nat} {action : Action} (h : ¬ hits < action.threshold) (rest : List Action) :
    due hits (action :: rest) = action :: due hits rest :=
  List.filter_cons_of_pos (by simpa using h)

namespace Runner

/-- Carries out actions, each from where the one before has left off. -/
def performAll (e : Runner σ ε ι) (nested : NestedRun σ ε ι) (rule : Rule ε) (actions : List Action)
    (s : State σ) : State σ :=
  actions.foldl (fun s action => (e.perform nested rule action s).2) s

/-- The actions with the states that they are carried out in. -/
def turns (e : Runner σ ε ι) (nested : NestedRun σ ε ι) (rule : Rule ε) :
    List Action → State σ → List (Action × State σ)
  | [], _ => []
  | action :: rest, s => (action, s) :: e.turns nested rule rest (e.perform nested rule action s).2

variable {e inner : Runner σ ε ι} {nested : NestedRun σ ε ι} {rule : Rule ε} {hits : Nat} {s t : State σ}

/-- Going through actions leaves what carrying out those that are due leaves. -/
theorem alike_performAll (within : ∀ rule, Blind (nested rule)) (actions : List Action) (h : s.Alike t) :
    (e.considerAll nested rule hits actions s).2.Alike (e.performAll nested rule (due hits actions) t) := by
  induction actions generalizing s t with
  | nil => exact h
  | cons action rest ih =>
    by_cases waits : hits < action.threshold
    · rw [due_cons_of_lt waits]
      exact ih (e.consider_waiting rule nested waits h).2
    · rw [due_cons_of_not_lt waits]
      exact ih (e.consider_carried rule within waits h).2

/-- The report of an action at its turn. -/
def turnReport (e : Runner σ ε ι) (nested : NestedRun σ ε ι) (rule : Rule ε) (turn : Action × State σ) :
    ActionReport :=
  ⟨turn.1.name, turn.1.threshold, .ofEnding (some (e.perform nested rule turn.1 turn.2).1)⟩

/-- The reports of the actions that were triggered are those of the turns. -/
theorem triggered_reports (within : ∀ rule, Blind (nested rule)) (actions : List Action) (h : s.Alike t) :
    (e.considerAll nested rule hits actions s).1.filter ActionReport.triggered =
      (e.turns nested rule (due hits actions) t).map (e.turnReport nested rule) := by
  induction actions generalizing s t with
  | nil => rfl
  | cons action rest ih =>
    rw [considerAll, List.filter_cons]
    by_cases waits : hits < action.threshold
    · obtain ⟨status, state⟩ := e.consider_waiting rule nested waits h
      rw [due_cons_of_lt waits, ← ih state, if_neg (by simp [ActionReport.triggered, status])]
    · obtain ⟨status, state⟩ := e.consider_carried rule within waits h
      have triggered : ∀ ending, (Status.ofEnding (some ending) != .skipped) = true := by simp
      rw [due_cons_of_not_lt waits, turns, List.map_cons, ← ih state,
        if_pos (by simp only [ActionReport.triggered, status, triggered])]
      simp only [turnReport, status]

/-- The reports that a property of statuses picks, if it does not pick what waits. -/
theorem reports_of_turns (within : ∀ rule, Blind (nested rule)) (actions : List Action) (s : State σ)
    (p : Status → Bool) (waiting : p .skipped = false) :
    ((e.considerAll nested rule hits actions s).1.filter (p ·.status)).map ActionReport.name =
      ((e.turns nested rule (due hits actions) s).filter
        fun turn => p (.ofEnding (some (e.perform nested rule turn.1 turn.2).1))).map (·.1.name) := by
  have narrow : ∀ reports : List ActionReport,
      reports.filter (p ·.status) = (reports.filter ActionReport.triggered).filter (p ·.status) := by
    intro reports
    rw [List.filter_filter]
    refine List.filter_congr fun r _ => ?_
    by_cases skipped : r.status = .skipped <;> simp [ActionReport.triggered, skipped, waiting]
  rw [narrow, triggered_reports within actions (.refl s), List.filter_map, List.map_map]
  rfl

/-- Going through a list in two parts. -/
theorem considerAll_append (before after : List Action) (s : State σ) :
    e.considerAll nested rule hits (before ++ after) s =
      ((e.considerAll nested rule hits before s).1 ++
          (e.considerAll nested rule hits after (e.considerAll nested rule hits before s).2).1,
        (e.considerAll nested rule hits after (e.considerAll nested rule hits before s).2).2) := by
  induction before generalizing s with
  | nil => rfl
  | cons action rest ih => simp only [List.cons_append, considerAll, ih]

/-- What an action finds when its turn comes. -/
theorem considerAll_at (before : List Action) (action : Action) (after : List Action) (s : State σ) :
    (e.considerAll nested rule hits (before ++ action :: after) s).1[before.length]? =
      some ⟨action.name, action.threshold,
        (e.consider nested rule hits action (e.considerAll nested rule hits before s).2).1⟩ := by
  have length : (e.considerAll nested rule hits before s).1.length = before.length := by
    simpa using congrArg List.length (considerAll_headings e nested rule hits before s)
  rw [considerAll_append, ← length, List.getElem?_append_right (Nat.le_refl _), Nat.sub_self]
  rfl

/-- Where an action waits, nothing is looked for. -/
theorem considerAll_lookup (lookup : Lookup σ ε ι) (actions : List Action) (s : State σ)
    (same : ∀ action ∈ due hits actions, lookup action = e.lookup action) :
    ({ e with lookup } : Runner σ ε ι).considerAll nested rule hits actions s =
      e.considerAll nested rule hits actions s := by
  induction actions generalizing s with
  | nil => rfl
  | cons action rest ih =>
    by_cases waits : hits < action.threshold
    · rw [due_cons_of_lt waits] at same
      simp only [considerAll, consider, if_pos waits, ih _ same]
    · rw [due_cons_of_not_lt waits] at same
      obtain ⟨first, others⟩ := List.forall_mem_cons.1 same
      have performed : ({ e with lookup } : Runner σ ε ι).perform nested rule action s =
          e.perform nested rule action s := by
        simp only [perform, first]
      simp only [considerAll, consider, if_neg waits, performed, ih _ others]

end Runner

/-! ## What is looked for -/

/-- The action that is about to be looked for, and the context then. -/
def Moment.invocation? (m : Moment σ ε) : Option (Action × σ) :=
  match m.occasion with
  | .invoked _ action => some (action, m.state.context)
  | _ => none

/-- A script looks for nothing but through the runs that it sets off. -/
theorem Script.no_invocation (nested : NestedRun σ ε ι) (script : Script σ ε ι) (s : State σ) :
    (script.moments nested (fun _ _ => []) s).filterMap Moment.invocation? = [] := by
  induction script generalizing s with
  | done ending => rfl
  | look next ih => exact ih _ s
  | write context next ih => exact ih _
  | run rule next ih => exact ih _ _
  | «recall» rule next ih => exact ih _ s
  | forget rule next ih => exact ih _ _
  | clear next ih => exact ih _

namespace Runner

variable {e : Runner σ ε ι} {nested : NestedRun σ ε ι} {rule : Rule ε} {hits : Nat} {s t : State σ}

/-- Each action that is due is looked for once, in the context of its turn. -/
theorem invocations_eq_turns (within : ∀ rule, Blind (nested rule)) (actions : List Action) (h : s.Alike t) :
    (e.considerAllMoments nested (fun _ _ => []) rule hits actions s).filterMap Moment.invocation? =
      (e.turns nested rule (due hits actions) t).map fun turn => (turn.1, turn.2.context) := by
  induction actions generalizing s t with
  | nil => rfl
  | cons action rest ih =>
    rw [considerAllMoments, considerMoments, List.filterMap_append]
    by_cases waits : hits < action.threshold
    · rw [if_pos waits, due_cons_of_lt waits]
      exact ih (e.consider_waiting rule nested waits h).2
    · have found : Moment.invocation? ⟨.invoked rule action, s⟩ = some (action, t.context) :=
        congrArg (fun context => some (action, context)) h.context
      rw [if_neg waits, due_cons_of_not_lt waits, turns, List.map_cons, ← ih (e.consider_carried rule within waits h).2,
        List.filterMap_cons_some found, Script.no_invocation]
      rfl

/-! ## The composition -/

/-- **Actions are carried out one after another.** For every runner, list of actions, streak and
state, and for all handlers, which may run rules in turn:

* the report lists the actions in order, with their names and thresholds;
* an action that waits for more than the streak is skipped; every other is carried out in the
  state that those before it that are due have left, however they ended, and its status is how
  that ended: well, with the text of an error, or with what it broke off with;
* the actions that are due, and no others, are looked for, each once and in the context of
  its turn (runs within runs are not counted here), and it does not matter what would be
  found for the others;
* but for events, what is left in the end is what the last action that is due leaves;
* the actions that fired are those that are due and ended well, in order, and those that failed
  are the others that are due. -/
theorem considerAll_composes (e inner : Runner σ ε ι) (depth : Nat) (rule : Rule ε) (streak : Streak)
    (actions : List Action) (s : State σ) :
    let nested := inner.nested depth
    let hits := streak.size
    let answer := e.considerAll nested rule hits actions s
    let report : Report := ⟨rule.name, streak, answer.1⟩
    let turns := e.turns nested rule (due hits actions) s
    answer.1.map ActionReport.heading = actions.map Action.heading ∧
    (∀ before action after, actions = before ++ action :: after →
      let found := e.performAll nested rule (due hits before) s
      ∃ status, answer.1[before.length]? = some ⟨action.name, action.threshold, status⟩ ∧
        (hits < action.threshold → status = .skipped) ∧
        (action.threshold ≤ hits → match (e.perform nested rule action found).1 with
          | .ok () => status = .fired
          | .error (.error text) => status = .failed text
          | .error (.crash (some text)) => status = .failed ("panicked: " ++ text)
          | .error (.crash none) => status = .failed "panicked: non-string panic payload")) ∧
    (e.considerAllMoments nested (fun _ _ => []) rule hits actions s).filterMap Moment.invocation? =
      turns.map (fun turn => (turn.1, turn.2.context)) ∧
    (∀ lookup : Lookup σ ε ι, (∀ action ∈ due hits actions, lookup action = e.lookup action) →
      ({ e with lookup } : Runner σ ε ι).considerAll nested rule hits actions s = answer) ∧
    answer.2.Alike (e.performAll nested rule (due hits actions) s) ∧
    report.fired = (turns.filter fun turn => (e.perform nested rule turn.1 turn.2).1.isOk).map (·.1.name) ∧
    report.failed = (turns.filter fun turn => !(e.perform nested rule turn.1 turn.2).1.isOk).map (·.1.name) := by
  intro nested hits answer report turns
  have within : ∀ rule, Blind (nested rule) := inner.blind_nested depth
  refine ⟨considerAll_headings e nested rule hits actions s, ?_, invocations_eq_turns within actions (.refl s),
    fun lookup => considerAll_lookup lookup actions s, alike_performAll within actions (.refl s), ?_, ?_⟩
  · rintro before action after split found
    have alike : (e.considerAll nested rule hits before s).2.Alike found := alike_performAll within before (.refl s)
    refine ⟨(e.consider nested rule hits action (e.considerAll nested rule hits before s).2).1, ?_,
      fun waits => (e.consider_waiting rule nested waits alike).1, ?_⟩
    · simp only [answer, split, considerAll_at]
    intro reached
    have status := (e.consider_carried rule within (Nat.not_lt.2 reached) alike).1
    rw [status]
    rcases (e.perform nested rule action found).1 with (text | _ | text) | ⟨⟩ <;> rfl
  · refine (reports_of_turns within actions s (· == .fired) rfl).trans ?_
    congr 2
    funext turn
    rcases (e.perform nested rule turn.1 turn.2).1 with failure | ⟨⟩ <;> rfl
  · refine (reports_of_turns within actions s (fun status => status != .skipped && status != .fired) rfl).trans ?_
    congr 2
    funext turn
    rcases (e.perform nested rule turn.1 turn.2).1 with failure | ⟨⟩ <;> rfl

/-- Carries out actions by counting, each with an ending of its own; for one, nothing is found. -/
def faltering : Runner Nat Bool Unit :=
  ⟨fun _ holds => .ok holds, fun action =>
    let count (ending : Except Failure Unit) : Handler Nat Bool Unit :=
      fun _ _ => .look fun n => .write (n + 1) (.done ending)
    match action.name with
    | "missing" => .error (.error "not found")
    | "stumble" => .ok (count (.error (.error "stumbled")))
    | "break" => .ok (count (.error (.crash none)))
    | _ => .ok (count (.ok ()))⟩

/-- After two outcomes the second action waits still. The last finds the context as the two
that counted and failed have left it, whatever would be found for the one that waits. -/
theorem considerAll_composes_faltering :
    let stumble : Action := ⟨"stumble", 1, ∅⟩
    let waiting : Action := ⟨"count", 3, ∅⟩
    let missing : Action := ⟨"missing", 1, ∅⟩
    let broken : Action := ⟨"break", 2, ∅⟩
    let count : Action := ⟨"count", 2, ∅⟩
    let actions := [stumble, waiting, missing, broken, count]
    let rule : Rule Bool := ⟨.ofNat 1, "tally", true, actions, [], ⟨3, by decide⟩⟩
    let streak : Streak := ⟨true, [⟨rule.id, true, ⟨0, 0⟩, 1⟩, ⟨rule.id, true, ⟨0, 0⟩, 2⟩], by simp⟩
    let s : State Nat := .start 0 (.stopped ⟨0, 0⟩)
    let nested := faltering.nested 0
    let lookup : Lookup Nat Bool Unit := fun action =>
      if streak.size < action.threshold then .error (.crash none) else faltering.lookup action
    let answer := faltering.considerAll nested rule streak.size actions s
    let report : Report := ⟨rule.name, streak, answer.1⟩
    answer.1[1]? = some ⟨"count", 3, .skipped⟩ ∧
    answer.1[2]? = some ⟨"missing", 1, .failed "not found"⟩ ∧
    answer.1[3]? = some ⟨"break", 2, .failed "panicked: non-string panic payload"⟩ ∧
    answer.1[4]? = some ⟨"count", 2, .fired⟩ ∧
    (faltering.considerAllMoments nested (fun _ _ => []) rule streak.size actions s).filterMap Moment.invocation? =
      [(stumble, 0), (missing, 1), (broken, 1), (count, 2)] ∧
    ({ faltering with lookup } : Runner Nat Bool Unit).considerAll nested rule streak.size actions s = answer ∧
    answer.2.context = 3 ∧
    report.fired = ["count"] ∧ report.failed = ["stumble", "missing", "break"] := by
  intro stumble waiting missing broken count actions rule streak s nested lookup answer report
  obtain ⟨-, status, looked, others, left, fired, failed⟩ :=
    considerAll_composes faltering faltering 0 rule streak actions s
  obtain ⟨_, second, skipped, -⟩ := status [stumble] waiting _ rfl
  obtain ⟨_, third, -, sought⟩ := status [stumble, waiting] missing _ rfl
  obtain ⟨_, fourth, -, broke⟩ := status [stumble, waiting, missing] broken _ rfl
  obtain ⟨_, last, -, ended⟩ := status [stumble, waiting, missing, broken] count _ rfl
  refine ⟨?_, ?_, ?_, ?_, looked.trans (by cbv), others lookup ?_, left.context.trans (by cbv), fired.trans (by cbv),
    failed.trans (by cbv)⟩
  · rwa [skipped (by decide)] at second
  · rwa [show _ = Status.failed "not found" from sought (by decide)] at third
  · rwa [show _ = Status.failed "panicked: non-string panic payload" from broke (by decide)] at fourth
  · rwa [show _ = Status.fired from ended (by decide)] at last
  · intro action due
    exact if_neg (Nat.not_lt.2 (of_decide_eq_true (List.mem_filter.1 due).2))

end Runner

end RuleWatch
