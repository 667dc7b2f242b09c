import RuleWatch.Proofs.Run.Moments
/-!
  What runs tell. The journal only grows, and what a run adds to it mirrors the report of the
  run: that it has recorded, that it has evaluated, and then, action by action, all that is
  told by the runs which the handler sets off, followed by one event that tells what became
  of the action (`Runner.journal_mirrors_report`). Nothing else is told, so that the events of
  runs within runs stand wholly between two events of the run around them.

  `told` is how much the journal grows by. There is one lemma for each kind of computation,
  and the runs within are a hypothesis of each: that they take nothing back.
-/

namespace RuleWatch

variable {σ ε ι : Type}

/-! ## Events -/

/-- What is shown of an event: its level, its message and its details. -/
def Event.shown (nameOf : RuleId → String) (e : Event) : Level × String × List (String × String) :=
  (e.level, e.message, e.details nameOf)

/-- The event that tells what became of an action of a rule, the streak being `hits` long. -/
def ActionReport.event (rule : Rule ε) (hits : Nat) (a : ActionReport) : Event :=
  match a.status with
  | .skipped => .waiting a.name rule.name hits a.threshold
  | .fired => .fired a.name rule.name hits a.threshold
  | .failed message => .failed a.name rule.name hits a.threshold message

/-- What a computation tells: the events by which the journal grows. -/
def told {α : Type} (run : State σ → α × State σ) (s : State σ) : List Event :=
  (run s).2.journal.drop s.journal.length

theorem told_eq {α : Type} {run : State σ → α × State σ} {s : State σ} {events : List Event}
    (h : (run s).2.journal = s.journal ++ events) : told run s = events := by
  rw [told, h, List.drop_left]

theorem told_append {α : Type} {run : State σ → α × State σ} {s : State σ}
    (h : s.journal <+: (run s).2.journal) : (run s).2.journal = s.journal ++ told run s := by
  obtain ⟨events, grown⟩ := h
  rw [told_eq grown.symm, grown]

theorem Record.length_insert (r : Record) (records : List Record) :
    (r.insert records).length = records.length + 1 := by
  have parts := congrArg List.length (List.takeWhile_append_dropWhile (p := (·.notAfter r)) (l := records))
  rw [List.length_append] at parts
  rw [insert, List.length_append, List.length_cons]
  omega

/-- As many records are gone after a recording as it says, and one is new. -/
theorem History.length_of_record (h : History) (rule : RuleId) (bound : Bound) (result : Bool) (now : Instant) :
    ((h.record rule bound result now).history.of rule).length + (h.record rule bound result now).evicted =
      (h.of rule).length + 1 := by
  let grown := (h.record rule bound result now).record.insert (h.of rule)
  have length : grown.length = (h.of rule).length + 1 := Record.length_insert _ _
  have evicted : (h.record rule bound result now).evicted = grown.length - bound.size := rfl
  have retained : ((h.record rule bound result now).history.of rule).length =
      grown.length - (grown.length - bound.size) := by
    rw [of_record, if_pos rfl]
    exact List.length_drop
  omega

/-! ## Runs within a run -/

/-- The runs that a script sets off, each with the state in which it begins. -/
def Script.runs (nested : NestedRun σ ε ι) : Script σ ε ι → State σ → List (Rule ε × State σ)
  | .done _, _ => []
  | .look next, s => (next s.context).runs nested s
  | .write context next, s => next.runs nested { s with context }
  | .run rule next, s => (rule, s) :: (next (nested rule s).1).runs nested (nested rule s).2
  | .recall rule next, s => (next (s.history.of rule)).runs nested s
  | .forget rule next, s => (next (s.history.remembers rule)).runs nested (s.forget rule)
  | .clear next, s => next.runs nested s.clear

/-- One action of a run: the runs that its handler sets off, and what becomes of it. -/
structure Stage (σ ε : Type) where
  runs : List (Rule ε × State σ)
  report : ActionReport

/-- What is told at a stage of a run, given what the runs within it tell. -/
def Stage.events (within : Rule ε → State σ → List Event) (rule : Rule ε) (hits : Nat) (stage : Stage σ ε) :
    List Event :=
  (stage.runs.flatMap fun run => within run.1 run.2) ++ [stage.report.event rule hits]

namespace Runner

def stage (e : Runner σ ε ι) (nested : NestedRun σ ε ι) (rule : Rule ε) (hits : Nat) (action : Action)
    (s : State σ) : Stage σ ε where
  runs := if hits < action.threshold then [] else (e.invocation rule action).runs nested s
  report := ⟨action.name, action.threshold, (e.consider nested rule hits action s).1⟩

/-- The stages of going through actions, each in the state that those before it have left. -/
def stages (e : Runner σ ε ι) (nested : NestedRun σ ε ι) (rule : Rule ε) (hits : Nat) :
    List Action → State σ → List (Stage σ ε)
  | [], _ => []
  | action :: rest, s =>
    e.stage nested rule hits action s ::
      e.stages nested rule hits rest (e.consider nested rule hits action s).2

/-- The stages of a run. There are none if the condition cannot be evaluated. -/
def runStages (e : Runner σ ε ι) (depth : Nat) (rule : Rule ε) (s : State σ) : List (Stage σ ε) :=
  match e.evaluate s.context rule.condition with
  | .error _ => []
  | .ok outcome =>
    let (streak, s) := s.record rule.id rule.bound outcome
    let s := s.tell (.evaluated rule.name outcome streak.size)
    e.stages (e.nested depth) rule streak.size (rule.actionsFor outcome) s

/-- What is told by a run that a handler sets off: nothing if it is refused, and otherwise what
the run tells, which has one level less below it. -/
def toldWithin (e : Runner σ ε ι) : Nat → Rule ε → State σ → List Event
  | 0, _, _ => []
  | depth + 1, rule, s => told (e.run depth rule) s

end Runner

/-! ## How the journal grows -/

section
variable {nested : NestedRun σ ε ι} {within : Rule ε → State σ → List Event}

/-- A script tells nothing but what the runs tell that it sets off. -/
theorem Script.journal_play (inner : ∀ rule s, (nested rule s).2.journal = s.journal ++ within rule s)
    (script : Script σ ε ι) (s : State σ) :
    (script.play nested s).2.journal =
      s.journal ++ (script.runs nested s).flatMap fun run => within run.1 run.2 := by
  induction script generalizing s with
  | done ending => exact (List.append_nil _).symm
  | look next ih => exact ih _ s
  | write context next ih => exact ih { s with context }
  | run rule next ih =>
    rw [runs, List.flatMap_cons, ← List.append_assoc, ← inner rule s]
    exact ih _ (nested rule s).2
  | «recall» rule next ih => exact ih _ s
  | forget rule next ih => exact ih _ (s.forget rule)
  | clear next ih => exact ih s.clear

namespace Runner

variable (e : Runner σ ε ι) (rule : Rule ε) (hits : Nat)

/-- At a stage its events are told. -/
theorem journal_consider (inner : ∀ rule s, (nested rule s).2.journal = s.journal ++ within rule s)
    (action : Action) (s : State σ) :
    (e.consider nested rule hits action s).2.journal =
      s.journal ++ (e.stage nested rule hits action s).events within rule hits := by
  unfold Stage.events stage
  by_cases waits : hits < action.threshold
  · simp only [consider, if_pos waits]
    rfl
  · have grown := Script.journal_play inner (e.invocation rule action) s
    rw [← perform_eq] at grown
    simp only [consider, if_neg waits]
    rw [← List.append_assoc, ← grown]
    cases e.perform nested rule action s with
    | mk ending s' => cases ending <;> rfl

theorem journal_considerAll (inner : ∀ rule s, (nested rule s).2.journal = s.journal ++ within rule s)
    (actions : List Action) (s : State σ) :
    (e.considerAll nested rule hits actions s).2.journal =
      s.journal ++ (e.stages nested rule hits actions s).flatMap (Stage.events within rule hits) := by
  induction actions generalizing s with
  | nil => exact (List.append_nil _).symm
  | cons action rest ih =>
    rw [stages, List.flatMap_cons, ← List.append_assoc, ← e.journal_consider rule hits inner]
    exact ih _

theorem reports_stages (actions : List Action) (s : State σ) :
    (e.stages nested rule hits actions s).map Stage.report = (e.considerAll nested rule hits actions s).1 := by
  induction actions generalizing s with
  | nil => rfl
  | cons action rest ih =>
    rw [stages, List.map_cons, ih]
    rfl

/-- An action that waits sets off no run. -/
theorem runs_of_skipped (actions : List Action) (s : State σ) :
    ∀ stage ∈ e.stages nested rule hits actions s, stage.report.status = .skipped → stage.runs = [] := by
  induction actions generalizing s with
  | nil => simp [stages]
  | cons action rest ih =>
    refine List.forall_mem_cons.2 ⟨?_, ih _⟩
    intro skipped
    exact if_pos ((consider_status e nested rule hits action s).1 skipped)

end Runner

end

namespace Runner

/-- A run whose condition can be evaluated tells of itself and then goes through its stages, if
the runs within it tell what they should. -/
theorem journal_run_of_ok (e : Runner σ ε ι) {depth : Nat}
    (inner : ∀ rule s, (e.nested depth rule s).2.journal = s.journal ++ e.toldWithin depth rule s)
    {rule : Rule ε} {s : State σ} {outcome : Bool} (gives : e.evaluate s.context rule.condition = .ok outcome) :
    let made := s.history.record rule.id rule.bound outcome s.clock.now
    (e.run depth rule s).2.journal = s.journal ++
      .recorded rule.id made.record.sequence outcome made.evicted ::
      .evaluated rule.name outcome made.streak.size ::
      (e.runStages depth rule s).flatMap (Stage.events (e.toldWithin depth) rule made.streak.size) := by
  intro made
  simp only [run_eq, runWith, runStages, gives, e.journal_considerAll rule _ inner]
  simp only [State.record, State.tell, List.append_assoc, List.cons_append]
  rfl

/-- Runs within runs take nothing back that has been told. The induction is on how deep they
may lie. -/
theorem journal_nested (e : Runner σ ε ι) (depth : Nat) (rule : Rule ε) (s : State σ) :
    (e.nested depth rule s).2.journal = s.journal ++ e.toldWithin depth rule s := by
  induction depth generalizing rule s with
  | zero => exact (List.append_nil _).symm
  | succ depth ih =>
    rw [nested_state]
    apply told_append
    cases gives : e.evaluate s.context rule.condition with
    | error error => exact ⟨[], by rw [run_error_iff.2 ⟨gives, rfl⟩, List.append_nil]⟩
    | ok outcome =>
      rw [e.journal_run_of_ok ih gives]
      exact List.prefix_append _ _

/-- **What is told mirrors what is reported.** For every run, whatever its handlers do and
within whatever other run it may lie: the journal only grows, and by nothing if the condition
cannot be evaluated. Otherwise what is told is, in order,

* that the outcome has been recorded, with the sequence of the new record, which is the next
  one of the history, and the number of records that have made room for it;
* that the rule has been evaluated, with the streak of the report;
* for each action of the outcome, of those for true or of those for false, in the order of the
  rule, all that is told by the runs that its handler sets off, and then one event about the
  action. It says what the report says, with the names, the streak and the threshold of this
  run. An action that waits sets off no run.

A run that a handler sets off is either refused or itself such a run, one level below. -/
theorem journal_mirrors_report (e : Runner σ ε ι) (depth : Nat) (rule : Rule ε) (s : State σ) :
    (e.run depth rule s).2.journal = s.journal ++ told (e.run depth rule) s ∧
    match (e.run depth rule s).1 with
    | .error error => e.evaluate s.context rule.condition = .error error ∧ told (e.run depth rule) s = []
    | .ok report =>
      let outcome := report.outcome
      let hits := report.streak.size
      let made := s.history.record rule.id rule.bound outcome s.clock.now
      let recorded := Event.recorded rule.id made.record.sequence outcome made.evicted
      let evaluated := Event.evaluated rule.name outcome hits
      let stages := e.runStages depth rule s
      e.evaluate s.context rule.condition = .ok outcome ∧ report.streak = made.streak ∧
      made.record.result = outcome ∧ made.record.sequence = s.history.sequence + 1 ∧
      (made.history.of rule.id).length + made.evicted = (s.history.of rule.id).length + 1 ∧
      told (e.run depth rule) s =
        recorded :: evaluated :: stages.flatMap (Stage.events (e.toldWithin depth) rule hits) ∧
      stages.map Stage.report = report.actions ∧
      report.actions.map ActionReport.heading =
        (if outcome then rule.onTrue else rule.onFalse).map Action.heading ∧
      (∀ stage ∈ stages, stage.report.status = .skipped → stage.runs = []) ∧
      ∀ nameOf,
        recorded.shown nameOf = (.trace, "recorded evaluation",
          [("rule", nameOf rule.id), ("sequence", made.record.sequence.repr),
            ("result", Value.boolText outcome), ("evicted", made.evicted.repr)]) ∧
        evaluated.shown nameOf = (.debug, "rule evaluated",
          [("rule", rule.name), ("outcome", Value.boolText outcome), ("streak", hits.repr)]) ∧
        ∀ a ∈ report.actions,
          let details := [("action", a.name), ("rule", rule.name), ("hits", hits.repr),
            ("threshold", a.threshold.repr)]
          (a.event rule hits).shown nameOf = match a.status with
            | .skipped => (.trace, "action below threshold", details)
            | .fired => (.info, "action fired", details)
            | .failed message => (.error, "action failed", details ++ [("error", message)]) := by
  cases gives : e.evaluate s.context rule.condition with
  | error error =>
    have same : e.run depth rule s = (.error error, s) := run_error_iff.2 ⟨gives, rfl⟩
    have nothing : told (e.run depth rule) s = [] := told_eq (by rw [same, List.append_nil])
    rw [nothing, same]
    exact ⟨(List.append_nil _).symm, rfl, rfl⟩
  | ok outcome =>
    have grown := e.journal_run_of_ok (e.journal_nested depth) gives
    have all := told_eq grown
    refine ⟨by rw [all, grown], ?_⟩
    rw [all]
    simp only [run_eq, runWith, runStages, gives]
    refine ⟨rfl, rfl, rfl, rfl, s.history.length_of_record _ _ _ _, rfl, e.reports_stages _ _ _ _,
      considerAll_headings _ _ _ _ _ _, e.runs_of_skipped _ _ _ _, ?_⟩
    refine fun nameOf => ⟨rfl, rfl, fun a _ => ?_⟩
    unfold ActionReport.event
    cases a.status <;> rfl

/-- A handler runs its rule once more, and so the streak grows while the first run goes through
its actions. That run still tells of its own streak, for which the second action waits. -/
example :
    let rule : Rule Bool := ⟨.ofNat 1, "echo", true, [⟨"call", 1, ∅⟩, ⟨"shout", 2, ∅⟩], [], ⟨2, by decide⟩⟩
    let calling : Runner Unit Bool Unit :=
      ⟨fun _ holds => .ok holds, fun _ => .ok fun rule _ => .run rule fun _ => .done (.ok ())⟩
    (calling.run 1 rule (.start () (.stopped ⟨0, 0⟩))).2.journal =
      [.recorded rule.id 1 true 0, .evaluated "echo" true 1,
        .recorded rule.id 2 true 0, .evaluated "echo" true 2,
        .fired "call" "echo" 2 1, .fired "shout" "echo" 2 2,
        .fired "call" "echo" 1 1, .waiting "shout" "echo" 1 2] := by
  cbv

end Runner

end RuleWatch
