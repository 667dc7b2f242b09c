import Mathlib
import RuleWatch.Proofs.Run.Moments
/-!
  How the handler of an action ends is written in the report of its run, and nowhere
  else. Two runners are compared whose handlers take the same steps, whatever they
  end with; one that cannot be found is a handler that takes no step
  (`Runner.invocation`).

  Every computation is taken from two states that agree in all but their journals
  to two such states, and through moments that agree one by one: there are lemmas for
  scripts, actions, lists of actions, runs, lists of rules and errands, and
  `Runner.endings_change_nothing` for whatever runners are asked to do.
-/

namespace RuleWatch

variable {σ ε ι : Type}

/-! ## Equal but for endings -/

/-- Both say that the action waited, or both say that it was carried out. -/
structure ActionReport.Alike (a₁ a₂ : ActionReport) : Prop where
  heading : a₁.heading = a₂.heading
  waits : a₁.status = .skipped ↔ a₂.status = .skipped

structure Report.Alike (r₁ r₂ : Report) : Prop where
  rule : r₁.rule = r₂.rule
  streak : r₁.streak = r₂.streak
  actions : List.Forall₂ ActionReport.Alike r₁.actions r₂.actions

/-- One error twice, or answers that are alike. -/
inductive Reply.Alike {α : Type} (alike : α → α → Prop) : Except ι α → Except ι α → Prop where
  | error (error : ι) : Alike alike (.error error) (.error error)
  | ok {answer₁ answer₂ : α} (answers : alike answer₁ answer₂) : Alike alike (.ok answer₁) (.ok answer₂)

/-- The scripts take the same steps after the same answers, and may end otherwise. -/
inductive Script.Alike : Script σ ε ι → Script σ ε ι → Prop where
  | done (ending₁ ending₂ : Except Failure Unit) : Alike (.done ending₁) (.done ending₂)
  | look {next₁ next₂ : σ → Script σ ε ι} (rest : ∀ context, Alike (next₁ context) (next₂ context)) :
      Alike (.look next₁) (.look next₂)
  | write (context : σ) {next₁ next₂ : Script σ ε ι} (rest : Alike next₁ next₂) :
      Alike (.write context next₁) (.write context next₂)
  /-- A report may say otherwise how invocations ended, and that changes no step. -/
  | run (rule : Rule ε) {next₁ next₂ : Except (Refusal ι) Report → Script σ ε ι}
      (rest : ∀ answer₁ answer₂, Reply.Alike Report.Alike answer₁ answer₂ →
        Alike (next₁ answer₁) (next₂ answer₂)) : Alike (.run rule next₁) (.run rule next₂)
  | «recall» (rule : RuleId) {next₁ next₂ : List Record → Script σ ε ι}
      (rest : ∀ records, Alike (next₁ records) (next₂ records)) :
      Alike (.recall rule next₁) (.recall rule next₂)
  | forget (rule : RuleId) {next₁ next₂ : Bool → Script σ ε ι}
      (rest : ∀ answer, Alike (next₁ answer) (next₂ answer)) :
      Alike (.forget rule next₁) (.forget rule next₂)
  | clear {next₁ next₂ : Script σ ε ι} (rest : Alike next₁ next₂) : Alike (.clear next₁) (.clear next₂)

/-- The runners evaluate conditions in one way, and what they carry out for an action
takes the same steps. -/
structure Runner.Alike (e₁ e₂ : Runner σ ε ι) : Prop where
  evaluate : e₁.evaluate = e₂.evaluate
  invocation : ∀ rule action, (e₁.invocation rule action).Alike (e₂.invocation rule action)

/-- The states agree in all but what their journals tell. -/
structure State.Alike (s₁ s₂ : State σ) : Prop where
  context : s₁.context = s₂.context
  history : s₁.history = s₂.history
  clock : s₁.clock = s₂.clock

/-- One action waited twice, or was carried out twice. -/
structure Fate.Alike (f₁ f₂ : Fate) : Prop where
  action : f₁.action = f₂.action
  waits : f₁.ending = none ↔ f₂.ending = none

inductive Occasion.Alike : Occasion ε → Occasion ε → Prop where
  | same (o : Occasion ε) : Alike o o
  | recorded (rule : Rule ε) (record : Record) (streak : Streak) {fates₁ fates₂ : List Fate}
      (fates : List.Forall₂ Fate.Alike fates₁ fates₂) :
      Alike (.recorded rule record streak fates₁) (.recorded rule record streak fates₂)

structure Moment.Alike (m₁ m₂ : Moment σ ε) : Prop where
  occasion : m₁.occasion.Alike m₂.occasion
  state : m₁.state.Alike m₂.state

@[simp] theorem Status.ofEnding_eq_skipped {ending : Option (Except Failure Unit)} :
    Status.ofEnding ending = .skipped ↔ ending = none := by
  rcases ending with _ | failure | ⟨⟩ <;> simp [Status.ofEnding]

/-! ## Steps of alike states -/

namespace State.Alike

variable {s₁ s₂ : State σ}

theorem refl (s : State σ) : s.Alike s := ⟨rfl, rfl, rfl⟩

theorem symm (h : s₁.Alike s₂) : s₂.Alike s₁ := ⟨h.context.symm, h.history.symm, h.clock.symm⟩

theorem trans {s₃ : State σ} (h : s₁.Alike s₂) (k : s₂.Alike s₃) : s₁.Alike s₃ :=
  ⟨h.context.trans k.context, h.history.trans k.history, h.clock.trans k.clock⟩

theorem tell (h : s₁.Alike s₂) (event₁ event₂ : Event) : (s₁.tell event₁).Alike (s₂.tell event₂) :=
  ⟨h.context, h.history, h.clock⟩

theorem forget (h : s₁.Alike s₂) (rule : RuleId) : (s₁.forget rule).Alike (s₂.forget rule) :=
  ⟨h.context, congrArg (·.forget rule) h.history, h.clock⟩

theorem clear (h : s₁.Alike s₂) : s₁.clear.Alike s₂.clear :=
  ⟨h.context, congrArg History.clear h.history, h.clock⟩

theorem streak (h : s₁.Alike s₂) (rule : RuleId) (bound : Bound) (outcome : Bool) :
    (s₁.record rule bound outcome).1 = (s₂.record rule bound outcome).1 := by
  simp only [State.record, h.history, h.clock]

theorem record (h : s₁.Alike s₂) (rule : RuleId) (bound : Bound) (outcome : Bool) :
    (s₁.record rule bound outcome).2.Alike (s₂.record rule bound outcome).2 := by
  refine ⟨h.context, ?_, ?_⟩
  · simp only [State.record, State.tell, h.history, h.clock]
  · simp only [State.record, State.tell, h.clock]

end State.Alike

theorem Moment.Alike.same {s₁ s₂ : State σ} (h : s₁.Alike s₂) (o : Occasion ε) :
    Moment.Alike ⟨o, s₁⟩ ⟨o, s₂⟩ := ⟨.same o, h⟩

theorem Occasion.Alike.of_recorded {rule₁ rule₂ : Rule ε} {record₁ record₂ : Record}
    {streak₁ streak₂ : Streak} {fates₁ fates₂ : List Fate}
    (h : Occasion.Alike (.recorded rule₁ record₁ streak₁ fates₁) (.recorded rule₂ record₂ streak₂ fates₂)) :
    record₁ = record₂ ∧ streak₁ = streak₂ ∧ List.Forall₂ Fate.Alike fates₁ fates₂ := by
  cases h with
  | same => exact ⟨rfl, rfl, List.forall₂_same.2 fun _ _ => ⟨rfl, Iff.rfl⟩⟩
  | recorded _ _ _ fates => exact ⟨rfl, rfl, fates⟩

namespace Reply.Alike

variable {α β : Type} {alike : α → α → Prop} {alike' : β → β → Prop} {r₁ r₂ : Except ι α}

theorem map (h : Reply.Alike alike r₁ r₂) {f₁ f₂ : α → β}
    (maps : ∀ a₁ a₂, alike a₁ a₂ → alike' (f₁ a₁) (f₂ a₂)) :
    Reply.Alike alike' (r₁.map f₁) (r₂.map f₂) := by
  cases h with
  | error error => exact .error error
  | ok answers => exact .ok (maps _ _ answers)

theorem mapError (h : Reply.Alike alike r₁ r₂) {κ : Type} (f : ι → κ) :
    Reply.Alike alike (r₁.mapError f) (r₂.mapError f) := by
  cases h with
  | error error => exact .error (f error)
  | ok answers => exact .ok answers

end Reply.Alike

/-! ## Steps of alike runners -/

/-- Runs within runs agree: from alike states they answer the same and go through alike
moments to alike states. -/
structure NestedRun.Alike (nested₁ nested₂ : NestedRun σ ε ι)
    (inner₁ inner₂ : Rule ε → State σ → List (Moment σ ε)) : Prop where
  answer : ∀ rule {s₁ s₂ : State σ}, s₁.Alike s₂ →
    Reply.Alike Report.Alike (nested₁ rule s₁).1 (nested₂ rule s₂).1
  state : ∀ rule {s₁ s₂ : State σ}, s₁.Alike s₂ → (nested₁ rule s₁).2.Alike (nested₂ rule s₂).2
  moments : ∀ rule {s₁ s₂ : State σ}, s₁.Alike s₂ →
    List.Forall₂ Moment.Alike (inner₁ rule s₁) (inner₂ rule s₂)

section
variable {nested₁ nested₂ : NestedRun σ ε ι} {inner₁ inner₂ : Rule ε → State σ → List (Moment σ ε)}

/-- Alike scripts lead from alike states through alike moments to alike states. -/
theorem Script.Alike.play (within : NestedRun.Alike nested₁ nested₂ inner₁ inner₂)
    {script₁ script₂ : Script σ ε ι} (a : script₁.Alike script₂) {s₁ s₂ : State σ} (h : s₁.Alike s₂) :
    (script₁.play nested₁ s₁).2.Alike (script₂.play nested₂ s₂).2 ∧
      List.Forall₂ Moment.Alike (script₁.moments nested₁ inner₁ s₁) (script₂.moments nested₂ inner₂ s₂) := by
  induction a generalizing s₁ s₂ with
  | done => exact ⟨h, .cons (.same h _) .nil⟩
  | look rest ih =>
    obtain ⟨state, moments⟩ := ih s₁.context h
    simp only [Script.play, Script.moments, ← h.context]
    exact ⟨state, .cons (.same h _) moments⟩
  | write context rest ih =>
    have written : State.Alike { s₁ with context } { s₂ with context } := ⟨rfl, h.history, h.clock⟩
    obtain ⟨state, moments⟩ := ih written
    exact ⟨state, .cons (.same h _) moments⟩
  | run rule rest ih =>
    obtain ⟨state, moments⟩ := ih _ _ (within.answer rule h) (within.state rule h)
    exact ⟨state, .cons (.same h _) (List.rel_append (within.moments rule h) moments)⟩
  | «recall» rule rest ih =>
    obtain ⟨state, moments⟩ := ih (s₁.history.of rule) h
    simp only [Script.play, Script.moments, ← h.history]
    exact ⟨state, .cons (.same h _) moments⟩
  | forget rule rest ih =>
    obtain ⟨state, moments⟩ := ih (s₁.history.remembers rule) (h.forget rule)
    simp only [Script.play, Script.moments, ← h.history]
    exact ⟨state, .cons (.same h _) moments⟩
  | clear rest ih =>
    obtain ⟨state, moments⟩ := ih h.clear
    exact ⟨state, .cons (.same h _) moments⟩

namespace Runner

variable {e₁ e₂ : Runner σ ε ι} {s₁ s₂ : State σ}

theorem alike_consider (a : e₁.Alike e₂) (within : NestedRun.Alike nested₁ nested₂ inner₁ inner₂)
    (rule : Rule ε) (hits : Nat) (action : Action) (h : s₁.Alike s₂) :
    (e₁.consider nested₁ rule hits action s₁).2.Alike (e₂.consider nested₂ rule hits action s₂).2 ∧
      List.Forall₂ Moment.Alike (e₁.considerMoments nested₁ inner₁ rule hits action s₁)
        (e₂.considerMoments nested₂ inner₂ rule hits action s₂) := by
  unfold considerMoments
  by_cases waits : hits < action.threshold
  · simp only [consider, if_pos waits]
    exact ⟨h.tell _ _, .nil⟩
  · obtain ⟨event₁, told₁⟩ := consider_due e₁ nested₁ rule hits action s₁ waits
    obtain ⟨event₂, told₂⟩ := consider_due e₂ nested₂ rule hits action s₂ waits
    obtain ⟨state, moments⟩ := (a.invocation rule action).play within h
    rw [told₁, told₂, if_neg waits, if_neg waits]
    exact ⟨state.tell _ _, .cons (.same h _) moments⟩

/-- Whether an action waits depends on the streak alone. -/
theorem alike_fate (rule : Rule ε) (hits : Nat) (action : Action) :
    Fate.Alike ⟨action, e₁.ending nested₁ rule hits action s₁⟩
      ⟨action, e₂.ending nested₂ rule hits action s₂⟩ := by
  refine ⟨rfl, ?_⟩
  unfold ending
  by_cases waits : hits < action.threshold <;> simp [waits]

theorem alike_reports {fates₁ fates₂ : List Fate} (h : List.Forall₂ Fate.Alike fates₁ fates₂) :
    List.Forall₂ ActionReport.Alike (fates₁.map Fate.report) (fates₂.map Fate.report) := by
  rw [List.forall₂_map_left_iff, List.forall₂_map_right_iff]
  refine h.imp fun f₁ f₂ alike => ⟨?_, ?_⟩
  · simp only [ActionReport.heading, Fate.report, alike.action]
  · simp only [Fate.report, Status.ofEnding_eq_skipped]
    exact alike.waits

theorem alike_considerAll (a : e₁.Alike e₂) (within : NestedRun.Alike nested₁ nested₂ inner₁ inner₂)
    (rule : Rule ε) (hits : Nat) (actions : List Action) (h : s₁.Alike s₂) :
    (e₁.considerAll nested₁ rule hits actions s₁).2.Alike (e₂.considerAll nested₂ rule hits actions s₂).2 ∧
      List.Forall₂ Fate.Alike (e₁.fates nested₁ rule hits actions s₁)
        (e₂.fates nested₂ rule hits actions s₂) ∧
      List.Forall₂ Moment.Alike (e₁.considerAllMoments nested₁ inner₁ rule hits actions s₁)
        (e₂.considerAllMoments nested₂ inner₂ rule hits actions s₂) := by
  induction actions generalizing s₁ s₂ with
  | nil => exact ⟨h, .nil, .nil⟩
  | cons action rest ih =>
    obtain ⟨next, moments⟩ := alike_consider a within rule hits action h
    obtain ⟨state, fates, later⟩ := ih next
    exact ⟨state, .cons (alike_fate rule hits action) fates, List.rel_append moments later⟩

/-- A run evaluates and records before any handler is found. -/
theorem alike_runWith (a : e₁.Alike e₂) (within : NestedRun.Alike nested₁ nested₂ inner₁ inner₂)
    (rule : Rule ε) (h : s₁.Alike s₂) :
    (e₁.runWith nested₁ rule s₁).2.Alike (e₂.runWith nested₂ rule s₂).2 ∧
      Reply.Alike Report.Alike (e₁.runWith nested₁ rule s₁).1 (e₂.runWith nested₂ rule s₂).1 ∧
      List.Forall₂ Moment.Alike (e₁.runWithMoments nested₁ inner₁ rule s₁)
        (e₂.runWithMoments nested₂ inner₂ rule s₂) := by
  unfold runWith runWithMoments
  rw [← a.evaluate, ← h.context]
  cases e₁.evaluate s₁.context rule.condition with
  | error error => exact ⟨h, .error error, .cons (.same h _) .nil⟩
  | ok outcome =>
    have streak := h.streak rule.id rule.bound outcome
    have recorded := (h.record rule.id rule.bound outcome).tell
      (.evaluated rule.name outcome (s₁.record rule.id rule.bound outcome).1.size)
      (.evaluated rule.name outcome (s₂.record rule.id rule.bound outcome).1.size)
    obtain ⟨state, fates, moments⟩ := alike_considerAll a within rule
      (s₁.record rule.id rule.bound outcome).1.size (rule.actionsFor outcome) recorded
    simp only [← streak, ← h.history, ← h.clock] at recorded state fates moments ⊢
    refine ⟨state, .ok ⟨rfl, rfl, ?_⟩, .cons (.same h _) (.cons ⟨?_, recorded⟩ moments)⟩
    · simp only [considerAll_reports]
      exact alike_reports fates
    · exact .recorded _ _ _ fates

theorem nested_answer (e : Runner σ ε ι) (depth : Nat) (rule : Rule ε) (s : State σ) :
    (e.nested (depth + 1) rule s).1 = (e.run depth rule s).1.mapError .evaluation := by
  simp only [nested]
  cases e.run depth rule s with
  | mk answer s' => cases answer <;> rfl

theorem alike_run (a : e₁.Alike e₂) (depth : Nat) (rule : Rule ε) (h : s₁.Alike s₂) :
    (e₁.run depth rule s₁).2.Alike (e₂.run depth rule s₂).2 ∧
      Reply.Alike Report.Alike (e₁.run depth rule s₁).1 (e₂.run depth rule s₂).1 ∧
      List.Forall₂ Moment.Alike (e₁.moments depth rule s₁) (e₂.moments depth rule s₂) := by
  induction depth generalizing rule s₁ s₂ with
  | zero =>
    have within : NestedRun.Alike (e₁.nested 0) (e₂.nested 0) (fun _ _ => []) fun _ _ => [] :=
      ⟨fun _ _ _ _ => .error Refusal.tooDeep, fun _ _ _ h => h, fun _ _ _ _ => .nil⟩
    exact alike_runWith a within rule h
  | succ depth ih =>
    have within : NestedRun.Alike (e₁.nested (depth + 1)) (e₂.nested (depth + 1)) (e₁.moments depth)
        (e₂.moments depth) := by
      refine ⟨?_, ?_, fun rule _ _ h => (ih rule h).2.2⟩
      · intro rule s₁ s₂ h
        rw [nested_answer, nested_answer]
        exact (ih rule h).2.1.mapError _
      · intro rule s₁ s₂ h
        rw [nested_state, nested_state]
        exact (ih rule h).1
    exact alike_runWith a within rule h

theorem alike_runAll (a : e₁.Alike e₂) (depth : Nat) (rules : List (Rule ε)) (h : s₁.Alike s₂) :
    (e₁.runAll depth rules s₁).2.Alike (e₂.runAll depth rules s₂).2 ∧
      Reply.Alike (List.Forall₂ Report.Alike) (e₁.runAll depth rules s₁).1 (e₂.runAll depth rules s₂).1 ∧
      List.Forall₂ Moment.Alike (e₁.runAllMoments depth rules s₁) (e₂.runAllMoments depth rules s₂) := by
  induction rules generalizing s₁ s₂ with
  | nil => exact ⟨h, .ok .nil, .nil⟩
  | cons rule rest ih =>
    obtain ⟨state, answer, moments⟩ := alike_run a depth rule h
    simp only [runAll, runAllMoments]
    cases ran₁ : e₁.run depth rule s₁ with
    | mk answer₁ s₁' =>
      cases ran₂ : e₂.run depth rule s₂ with
      | mk answer₂ s₂' =>
        rw [ran₁, ran₂] at state answer
        cases answer with
        | error error => exact ⟨state, .error error, List.rel_append moments .nil⟩
        | ok report =>
          obtain ⟨state', answer', moments'⟩ := ih state
          exact ⟨state', answer'.map fun _ _ reports => .cons report reports,
            List.rel_append moments moments'⟩

theorem alike_serve (a : e₁.Alike e₂) (depth : Nat) (errand : Errand σ ε) (h : s₁.Alike s₂) :
    (e₁.serve depth s₁ errand).Alike (e₂.serve depth s₂ errand) ∧
      Reply.Alike (List.Forall₂ Report.Alike) (e₁.reply depth s₁ errand) (e₂.reply depth s₂ errand) ∧
      List.Forall₂ Moment.Alike (e₁.serveMoments depth s₁ errand) (e₂.serveMoments depth s₂ errand) := by
  cases errand with
  | run rule =>
    obtain ⟨state, answer, moments⟩ := alike_run a depth rule h
    exact ⟨state, answer.map fun _ _ report => .cons report .nil, moments⟩
  | runAll rules => exact alike_runAll a depth rules h
  | forget rule => exact ⟨h.forget rule, .ok .nil, .nil⟩
  | clear => exact ⟨h.clear, .ok .nil, .nil⟩
  | setClock clock => exact ⟨⟨h.context, h.history, rfl⟩, .ok .nil, .nil⟩
  | setContext context => exact ⟨⟨rfl, h.history, h.clock⟩, .ok .nil, .nil⟩

theorem alike_serveAll (a : e₁.Alike e₂) (depth : Nat) (errands : List (Errand σ ε)) (h : s₁.Alike s₂) :
    (e₁.serveAll depth errands s₁).Alike (e₂.serveAll depth errands s₂) ∧
      List.Forall₂ (Reply.Alike (List.Forall₂ Report.Alike)) (e₁.replies depth errands s₁)
        (e₂.replies depth errands s₂) ∧
      List.Forall₂ Moment.Alike (e₁.serveAllMoments depth errands s₁)
        (e₂.serveAllMoments depth errands s₂) := by
  induction errands generalizing s₁ s₂ with
  | nil => exact ⟨h, .nil, .cons (.same h _) .nil⟩
  | cons errand rest ih =>
    obtain ⟨state, answer, moments⟩ := alike_serve a depth errand h
    obtain ⟨state', answers, moments'⟩ := ih state
    exact ⟨state', .cons answer answers, .cons (.same h _) (List.rel_append moments moments')⟩

/-- The reports of two runs are told by the fates that the runs recorded with, and so
an entry differs only where an invocation ended otherwise. -/
theorem alike_told (a : e₁.Alike e₂) (depth : Nat) (rule : Rule ε) (h : s₁.Alike s₂) {r₁ r₂ : Report}
    (ran₁ : (e₁.run depth rule s₁).1 = .ok r₁) (ran₂ : (e₂.run depth rule s₂).1 = .ok r₂) :
    ∃ record streak fates₁ fates₂ s₁' s₂' rest₁ rest₂,
      List.Forall₂ Fate.Alike fates₁ fates₂ ∧
      r₁ = .told rule streak fates₁ ∧ r₂ = .told rule streak fates₂ ∧
      e₁.moments depth rule s₁ =
        ⟨.began rule, s₁⟩ :: ⟨.recorded rule record streak fates₁, s₁'⟩ :: rest₁ ∧
      e₂.moments depth rule s₂ =
        ⟨.began rule, s₂⟩ :: ⟨.recorded rule record streak fates₂, s₂'⟩ :: rest₂ := by
  have first := e₁.run_moments depth rule s₁
  have second := e₂.run_moments depth rule s₂
  rw [ran₁] at first
  rw [ran₂] at second
  obtain ⟨streak, fates₁, s₁', rest₁, -, told₁, moments₁⟩ := first
  obtain ⟨_, fates₂, s₂', rest₂, -, told₂, moments₂⟩ := second
  have moments := (alike_run a depth rule h).2.2
  rw [moments₁, moments₂] at moments
  obtain ⟨recorded, -⟩ := List.forall₂_cons.1 (List.forall₂_cons.1 moments).2
  obtain ⟨record, rfl, fates⟩ := recorded.occasion.of_recorded
  rw [← record] at moments₂
  exact ⟨_, streak, fates₁, fates₂, s₁', s₂', rest₁, rest₂, fates, told₁, told₂, moments₁, moments₂⟩

/-- **How handlers end changes nothing else.** Take runners that evaluate conditions in
one way and whose handlers take the same steps, whatever they end with and whatever
the reports of runs that they set off say of other endings: some may end well for one
runner and fail or break off for the other, and a handler that takes no step may be
one that is not found. Asked for the same things from the same state,

* they are left in one context, with one history and one count of all recordings, at
  one reading of the clock;
* they give the same errors, and reports of the same streaks that differ at most in
  what became of actions that both carried out;
* everything happens in the same order and is seen in the same states: runs begin and
  record, actions are invoked and handlers take their steps;
* each report, of a run at any depth, is told by the fates that its run recorded
  with, so that an entry differs only if the invocation ended otherwise. -/
theorem endings_change_nothing (a : e₁.Alike e₂) (depth : Nat) (errands : List (Errand σ ε))
    (s : State σ) :
    (e₁.serveAll depth errands s).Alike (e₂.serveAll depth errands s) ∧
    List.Forall₂ (Reply.Alike (List.Forall₂ Report.Alike)) (e₁.replies depth errands s)
      (e₂.replies depth errands s) ∧
    List.Forall₂ Moment.Alike (e₁.serveAllMoments depth errands s)
      (e₂.serveAllMoments depth errands s) ∧
    ∀ d rule s₁ s₂ r₁ r₂, State.Alike s₁ s₂ →
      (e₁.run d rule s₁).1 = .ok r₁ → (e₂.run d rule s₂).1 = .ok r₂ →
      ∃ record streak fates₁ fates₂ s₁' s₂' rest₁ rest₂,
        List.Forall₂ Fate.Alike fates₁ fates₂ ∧
        r₁ = .told rule streak fates₁ ∧ r₂ = .told rule streak fates₂ ∧
        e₁.moments d rule s₁ =
          ⟨.began rule, s₁⟩ :: ⟨.recorded rule record streak fates₁, s₁'⟩ :: rest₁ ∧
        e₂.moments d rule s₂ =
          ⟨.began rule, s₂⟩ :: ⟨.recorded rule record streak fates₂, s₂'⟩ :: rest₂ := by
  obtain ⟨state, replies, moments⟩ := alike_serveAll a depth errands (.refl s)
  exact ⟨state, replies, moments, fun d rule s₁ s₂ r₁ r₂ h ran₁ ran₂ => alike_told a d rule h ran₁ ran₂⟩

end Runner

end

namespace Runner

/-- A rule with one action, which does not wait. -/
def alarm : Rule Bool := ⟨.ofNat 1, "alarm", true, [⟨"count", 1, ∅⟩], [], ⟨2, Nat.two_pos⟩⟩

/-- Carries out every action by counting, running the rule again and ending as given. -/
def counting (ending : Except Failure Unit) : Runner Nat Bool Unit :=
  ⟨fun _ holds => .ok holds,
    fun _ => .ok fun rule _ => .look fun n => .write (n + 1) (.run rule fun _ => .done ending)⟩

/-- The handlers of one runner end well and those of the other break off, in a run
and in the run within it. Both have counted and recorded the same. -/
theorem endings_change_nothing_counting :
    let well := counting (.ok ())
    let broken := counting (.error (.crash none))
    let s : State Nat := .start 0 (.stopped ⟨0, 0⟩)
    (∃ r₁ r₂, well.replies 1 [.run alarm] s = [.ok [r₁]] ∧ broken.replies 1 [.run alarm] s = [.ok [r₂]] ∧
      r₁.actions = [⟨"count", 1, .fired⟩] ∧
      r₂.actions = [⟨"count", 1, .failed "panicked: non-string panic payload"⟩] ∧
      List.Forall₂ (Reply.Alike (List.Forall₂ Report.Alike)) [.ok [r₁]] [(.ok [r₂] : Except Unit _)]) ∧
    (well.serveAll 1 [.run alarm] s).context = 2 ∧
    (well.serveAll 1 [.run alarm] s).Alike (broken.serveAll 1 [.run alarm] s) := by
  intro well broken s
  have alike : well.Alike broken := by
    refine ⟨rfl, fun rule action => ?_⟩
    exact .look fun n => .write _ (.run rule fun _ _ _ => .done _ _)
  obtain ⟨state, replies, -, -⟩ := endings_change_nothing alike 1 [.run alarm] s
  have first : well.replies 1 [.run alarm] s =
      [.ok [⟨"alarm", ⟨true, [⟨alarm.id, true, ⟨0, 0⟩, 1⟩], by simp⟩, [⟨"count", 1, .fired⟩]⟩]] := by
    cbv
  have second : broken.replies 1 [.run alarm] s =
      [.ok [⟨"alarm", ⟨true, [⟨alarm.id, true, ⟨0, 0⟩, 1⟩], by simp⟩,
        [⟨"count", 1, .failed "panicked: non-string panic payload"⟩]⟩]] := by
    cbv
  refine ⟨⟨_, _, first, second, rfl, rfl, ?_⟩, by cbv, state⟩
  rwa [first, second] at replies

end Runner

end RuleWatch
