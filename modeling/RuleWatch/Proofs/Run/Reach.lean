import RuleWatch.Event
import RuleWatch.Proofs.Rule.Drafts
import RuleWatch.Proofs.Run.Firing
import RuleWatch.Proofs.Run.Moments
/-!
  Which actions can be carried out at all. A streak is never longer than the bound of
  its rule, whatever a runner is asked to do and whatever its handlers do, so that an
  action which waits for more is out of reach. Every other action is within reach: enough
  evaluations in a row, by handlers that leave the history alone, carry it out
  (`Rule.reaches_iff`).

  Hence what is told when a rule has been built is what runs can do and cannot do, and the
  bound of a rule whose draft leaves the history open is the least that puts each of its
  actions within reach (`Draft.warned_iff_not_reaches`).
-/

namespace RuleWatch

variable {σ ε ι : Type}

/-- The deed is a recording of the outcome of the rule. -/
def Deed.Records (rule : Rule ε) (outcome : Bool) (d : Deed ε) : Prop :=
  ∃ now report, d = .ran rule outcome now report

/-- The deed is a recording of the outcome of the rule, at which the action at the place
among those for the outcome is carried out. -/
def Deed.CarriesOut (rule : Rule ε) (outcome : Bool) (place : Nat) (d : Deed ε) : Prop :=
  ∃ now report a, d = .ran rule outcome now report ∧ report.actions[place]? = some a ∧ a.triggered = true

theorem Deed.CarriesOut.records {rule : Rule ε} {outcome : Bool} {place : Nat} {d : Deed ε}
    (h : d.CarriesOut rule outcome place) : d.Records rule outcome := by
  obtain ⟨now, report, -, rfl, -⟩ := h
  exact ⟨now, report, rfl⟩

/-- Some runner, asked for something from the start, carries out the action at the place
among those for the outcome. -/
def Rule.Reaches (rule : Rule ε) (outcome : Bool) (place : Nat) : Prop :=
  ∃ (σ ι : Type) (e : Runner σ ε ι) (depth : Nat) (errands : List (Errand σ ε)) (context : σ)
    (clock : Clock), ∃ d ∈ e.serveAllDeeds depth errands (.start context clock),
      d.CarriesOut rule outcome place

/-! ## No streak is longer than the bound -/

theorem History.size_streak_le (h : History) (rule : RuleId) (bound : Bound) (result : Bool) (now : Instant) :
    (h.record rule bound result now).streak.size ≤ bound.size := by
  let grown := (h.record rule bound result now).record.insert (h.of rule)
  let retained := grown.drop (grown.length - bound.size)
  calc (h.record rule bound result now).streak.size
      = ((retained.mergeSort fun a b => b.notAfter a).takeWhile (·.result == result)).length :=
        List.length_reverse
    _ ≤ (retained.mergeSort fun a b => b.notAfter a).length := (List.takeWhile_prefix _).length_le
    _ = grown.length - (grown.length - bound.size) := by rw [List.length_mergeSort, List.length_drop]
    _ ≤ bound.size := by omega

/-- Whatever a runner is asked to do, at each of its recordings the report fits the
streak that the history answers. -/
theorem Runner.fits_of_split {e : Runner σ ε ι} {depth : Nat} {errands : List (Errand σ ε)} {context : σ}
    {clock : Clock} {before after : List (Deed ε)} {rule : Rule ε} {outcome : Bool} {now : Instant}
    {report : Report}
    (split : e.serveAllDeeds depth errands (.start context clock) =
      before ++ .ran rule outcome now report :: after) :
    report.Fits rule outcome
      ((History.after (before.map Deed.change)).record rule.id rule.bound outcome now).streak := by
  have asked : ∀ errand ∈ errands, errand.RunsOnly Set.univ := fun errand _ => errand.runsOnly_univ
  have course := course_serveAll e.runsOnly_univ depth asked (.start context clock)
  rw [split] at course
  exact course.honest_of_split.2

/-- Where a report fits, an action is carried out if and only if the streak is long
enough. -/
theorem Report.Fits.carriesOut_iff {report : Report} {rule : Rule ε} {outcome : Bool} {streak : Streak}
    (fits : report.Fits rule outcome streak) {place : Nat} {action : Action}
    (found : (rule.actionsFor outcome)[place]? = some action) (now : Instant) :
    (Deed.ran rule outcome now report).CarriesOut rule outcome place ↔ action.threshold ≤ streak.size := by
  have headings := congrArg (·[place]?) fits.actions
  simp only [List.getElem?_map, found, Option.map_some] at headings
  obtain ⟨a, told, heading⟩ := Option.map_eq_some_iff.1 headings
  have threshold : a.threshold = action.threshold := congrArg Prod.snd heading
  have waits := fits.waiting a (List.mem_of_getElem? told)
  have due : a.triggered = true ↔ action.threshold ≤ streak.size := by
    rw [ActionReport.triggered, bne_iff_ne, Ne, waits, threshold, not_lt]
  rw [← due]
  refine ⟨?_, fun triggered => ⟨now, report, a, rfl, told, triggered⟩⟩
  intro given
  obtain ⟨_, _, _, same, told', triggered⟩ := given
  cases same
  rw [told] at told'
  cases told'
  exact triggered

/-- An action within reach waits for no more outcomes than are retained. -/
theorem Rule.threshold_le_of_reaches {rule : Rule ε} {outcome : Bool} {place : Nat} {action : Action}
    (found : (rule.actionsFor outcome)[place]? = some action) (h : rule.Reaches outcome place) :
    action.threshold ≤ rule.bound.size := by
  obtain ⟨σ, ι, e, depth, errands, context, clock, d, among, carried⟩ := h
  obtain ⟨now, report, rfl⟩ := carried.records
  obtain ⟨before, after, split⟩ := List.append_of_mem among
  have long_enough := ((Runner.fits_of_split split).carriesOut_iff found now).1 carried
  exact long_enough.trans (History.size_streak_le _ _ _ _ _)

/-! ## Evaluations in a row -/

/-- The script runs no rule and forgets none. -/
def Script.LeavesHistory : Script σ ε ι → Prop
  | .done _ => True
  | .look next => ∀ context, (next context).LeavesHistory
  | .write _ next => next.LeavesHistory
  | .recall _ next => ∀ records, (next records).LeavesHistory
  | .run _ _ => False
  | .forget _ _ => False
  | .clear _ => False

theorem Script.LeavesHistory.deeds_eq_nil {script : Script σ ε ι} (h : script.LeavesHistory)
    (nested : NestedRun σ ε ι) (within : Rule ε → State σ → List (Deed ε)) (s : State σ) :
    script.deeds nested within s = [] := by
  induction script generalizing s with
  | done ending => rfl
  | look next ih => exact ih _ (h _) s
  | write context next ih => exact ih h _
  | «recall» rule next ih => exact ih _ (h _) s
  | run rule next => exact absurd h id
  | forget rule next => exact absurd h id
  | clear next => exact absurd h id

/-- The handlers of the actions of a rule leave the history alone. -/
def Runner.Undisturbing (e : Runner σ ε ι) (rule : Rule ε) : Prop :=
  ∀ action ∈ rule.actions, (e.invocation rule action).LeavesHistory

/-- What is asked to evaluate a rule in one context after another. -/
def Errand.evaluations (rule : Rule ε) (contexts : List σ) : List (Errand σ ε) :=
  contexts.flatMap fun context => [.setContext context, .run rule]

namespace Runner

variable {e : Runner σ ε ι} {rule : Rule ε}

theorem considerAllDeeds_eq_nil {nested : NestedRun σ ε ι} {within : Rule ε → State σ → List (Deed ε)}
    {hits : Nat} {actions : List Action} (quiet : ∀ action ∈ actions, (e.invocation rule action).LeavesHistory)
    (s : State σ) : e.considerAllDeeds nested within rule hits actions s = [] := by
  induction actions generalizing s with
  | nil => rfl
  | cons action rest ih =>
    obtain ⟨first, others⟩ := List.forall_mem_cons.1 quiet
    have none : e.considerDeeds nested within rule hits action s = [] := by
      unfold considerDeeds performDeeds
      unfold invocation at first
      split
      · rfl
      · cases found : e.lookup action with
        | error failure => rfl
        | ok handler =>
          rw [found] at first
          exact first.deeds_eq_nil nested within s
    rw [considerAllDeeds, none, ih others]
    rfl

/-- A run of a rule whose handlers leave the history alone does nothing to the history
but to record. -/
theorem deeds_of_undisturbing (quiet : e.Undisturbing rule) (depth : Nat) {s : State σ} {outcome : Bool}
    (gives : e.evaluate s.context rule.condition = .ok outcome) :
    ∃ d : Deed ε, e.deeds depth rule s = [d] ∧ d.Records rule outcome := by
  obtain ⟨within, deeds⟩ := deeds_eq e depth
  rw [deeds, runWithDeeds, gives]
  have actions : ∀ action ∈ rule.actionsFor outcome, (e.invocation rule action).LeavesHistory :=
    fun action among => quiet action (Rule.mem_actions_iff.2 ⟨outcome, among⟩)
  simp only [considerAllDeeds_eq_nil actions]
  exact ⟨_, rfl, _, _, rfl⟩

/-- Evaluations in a row are recorded one by one, and nothing else happens. -/
theorem deeds_evaluations (quiet : e.Undisturbing rule) (depth : Nat) {contexts : List σ} {outcome : Bool}
    (gives : ∀ context ∈ contexts, e.evaluate context rule.condition = .ok outcome) (s : State σ) :
    (e.serveAllDeeds depth (Errand.evaluations rule contexts) s).length = contexts.length ∧
      ∀ d ∈ e.serveAllDeeds depth (Errand.evaluations rule contexts) s, d.Records rule outcome := by
  induction contexts generalizing s with
  | nil => exact ⟨rfl, by simp [Errand.evaluations, serveAllDeeds]⟩
  | cons context rest ih =>
    obtain ⟨now, others⟩ := List.forall_mem_cons.1 gives
    obtain ⟨d, first, recorded⟩ := deeds_of_undisturbing quiet depth (s := { s with context }) now
    obtain ⟨length, later⟩ := ih others (e.run depth rule { s with context }).2
    have split : e.serveAllDeeds depth (Errand.evaluations rule (context :: rest)) s =
        d :: e.serveAllDeeds depth (Errand.evaluations rule rest) (e.run depth rule { s with context }).2 :=
      congrArg (· ++ _) first
    rw [split]
    exact ⟨by rw [List.length_cons, length, List.length_cons], List.forall_mem_cons.2 ⟨recorded, later⟩⟩

end Runner

theorem Deed.outcomes_of_records {rule : Rule ε} {outcome : Bool} {deeds : List (Deed ε)}
    (h : ∀ d ∈ deeds, d.Records rule outcome) :
    Deed.outcomes rule.id deeds = List.replicate deeds.length outcome := by
  induction deeds using List.reverseRecOn with
  | nil => rfl
  | append_singleton deeds d ih =>
    obtain ⟨now, report, rfl⟩ := h d (by simp)
    rw [outcomes_snoc, ih fun d hd => h d (by simp [hd]), List.length_append, List.length_singleton,
      List.replicate_succ']
    exact if_pos rfl

theorem runLength_replicate (outcome : Bool) (n : Nat) :
    runLength outcome (List.replicate n outcome) = n := by
  have := (replicate_suffix_iff n outcome (List.replicate n outcome)).1 List.suffix_rfl
  have := runLength_le outcome (List.replicate n outcome)
  rw [List.length_replicate] at this
  omega

/-- Of evaluations in a row that give one outcome, each carries an action out if and only if
it is the last of at least as many as the action waits for. -/
theorem Runner.carriesOut_evaluations {e : Runner σ ε ι} {rule : Rule ε} (quiet : e.Undisturbing rule)
    {outcome : Bool} {place : Nat} {action : Action} (found : (rule.actionsFor outcome)[place]? = some action)
    (within : action.threshold ≤ rule.bound.size) {contexts : List σ}
    (gives : ∀ context ∈ contexts, e.evaluate context rule.condition = .ok outcome)
    (depth : Nat) (context : σ) (clock : Clock) {i : Nat} {d : Deed ε}
    (hd : (e.serveAllDeeds depth (Errand.evaluations rule contexts) (.start context clock))[i]? = some d) :
    d.CarriesOut rule outcome place ↔ action.threshold ≤ i + 1 := by
  obtain ⟨-, recorded⟩ := deeds_evaluations quiet depth gives (.start context clock)
  generalize made : e.serveAllDeeds depth (Errand.evaluations rule contexts) (.start context clock) = deeds
    at hd recorded
  obtain ⟨short, rfl⟩ := List.getElem?_eq_some_iff.1 hd
  have earlier : ∀ d ∈ deeds.take i, d.Records rule outcome := fun d among => recorded d (List.mem_of_mem_take among)
  obtain ⟨now, report, this⟩ := recorded deeds[i] (List.getElem_mem short)
  have split : deeds = deeds.take i ++ .ran rule outcome now report :: deeds.drop (i + 1) := by
    rw [← this, List.getElem_cons_drop, List.take_append_drop]
  have fits := Runner.fits_of_split (made.trans split)
  have members : ∀ other o t r, Deed.ran other o t r ∈ deeds.take i → other ∈ ({rule} : Set (Rule ε)) := by
    intro other o t r among
    obtain ⟨_, _, same⟩ := earlier _ among
    cases same
    rfl
  have size := Deed.size_streak (Set.injOn_singleton Rule.id rule) members rfl outcome now
  rw [Deed.outcomes_of_records earlier, ← List.replicate_succ', runLength_replicate, List.length_take] at size
  rw [this, fits.carriesOut_iff found now, size]
  omega

/-- The context tells the outcome, and no action does anything. -/
def Runner.obliging : Runner Bool ε Unit := ⟨fun outcome _ => .ok outcome, fun _ => .ok fun _ _ => .done (.ok ())⟩

/-- **What is within reach.** Some runner carries an action out if and only if it waits for
no more outcomes than its rule retains. -/
theorem Rule.reaches_iff {rule : Rule ε} {outcome : Bool} {place : Nat} {action : Action}
    (found : (rule.actionsFor outcome)[place]? = some action) :
    rule.Reaches outcome place ↔ action.threshold ≤ rule.bound.size := by
  refine ⟨threshold_le_of_reaches found, ?_⟩
  intro within
  have quiet : Runner.obliging.Undisturbing rule := fun _ _ => trivial
  let contexts := List.replicate (action.threshold + 1) outcome
  have gives : ∀ context ∈ contexts, Runner.obliging.evaluate context rule.condition = .ok outcome := by
    intro context among
    rw [List.eq_of_mem_replicate among]
    rfl
  let clock := Clock.stopped ⟨0, 0⟩
  let deeds := Runner.obliging.serveAllDeeds 0 (Errand.evaluations rule contexts) (.start outcome clock)
  obtain ⟨length, -⟩ := Runner.deeds_evaluations quiet 0 gives (.start outcome clock)
  have last : action.threshold < deeds.length := by
    rw [length, List.length_replicate]
    exact Nat.lt_succ_self _
  have carried := (Runner.carriesOut_evaluations quiet found within gives 0 outcome clock
    (List.getElem?_eq_getElem last)).2 (Nat.le_succ _)
  exact ⟨Bool, Unit, Runner.obliging, 0, _, outcome, clock, _, List.getElem_mem last, carried⟩

/-! ## Warnings and bounds of what is built -/

/-- As many evaluations in a row as it says, by handlers that leave the history alone,
carry the action out at the last of them and not before. -/
def Rule.FiresAfter (rule : Rule ε) (outcome : Bool) (place n : Nat) : Prop :=
  ∀ (σ ι : Type) (e : Runner σ ε ι) (depth : Nat) (contexts : List σ) (context : σ) (clock : Clock),
    e.Undisturbing rule → (∀ c ∈ contexts, e.evaluate c rule.condition = .ok outcome) → contexts.length = n →
      let deeds := e.serveAllDeeds depth (Errand.evaluations rule contexts) (.start context clock)
      deeds.length = n ∧ ∀ i d, deeds[i]? = some d →
        d.Records rule outcome ∧ (d.CarriesOut rule outcome place ↔ i + 1 = n)

theorem Rule.firesAfter_threshold {rule : Rule ε} {outcome : Bool} {place : Nat} {action : Action}
    (found : (rule.actionsFor outcome)[place]? = some action) (within : action.threshold ≤ rule.bound.size) :
    rule.FiresAfter outcome place action.threshold := by
  intro σ ι e depth contexts context clock quiet gives many deeds
  obtain ⟨length, recorded⟩ := Runner.deeds_evaluations quiet depth gives (.start context clock)
  have all : deeds.length = action.threshold := length.trans many
  refine ⟨all, ?_⟩
  intro i d hd
  have short : i < deeds.length := (List.getElem?_eq_some_iff.1 hd).1
  refine ⟨recorded d (List.mem_of_getElem? hd), ?_⟩
  rw [Runner.carriesOut_evaluations quiet found within gives depth context clock hd]
  omega

/-- A warning about an action is told if and only if it waits for more outcomes than are
retained. -/
theorem Rule.mem_warnings {rule : Rule ε} {action : Action} (among : action ∈ rule.actions) :
    .unreachable rule.name action.name action.threshold rule.bound.size ∈ rule.warnings ↔
      rule.bound.size < action.threshold := by
  simp only [warnings, unreachable, List.mem_map, List.mem_filter, decide_eq_true_eq, Event.unreachable.injEq,
    true_and, and_true]
  refine ⟨?_, fun beyond => ⟨action, ⟨among, beyond⟩, rfl, rfl⟩⟩
  intro given
  obtain ⟨other, ⟨-, beyond⟩, -, threshold⟩ := given
  exact threshold ▸ beyond

/-- An action that waits for as many outcomes as are retained is out of reach of the same
rule with a smaller bound. -/
theorem Rule.not_reaches_of_smaller {rule : Rule ε} {action : Action} (among : action ∈ rule.actions)
    {bound : Bound} (less : bound.size < action.threshold) :
    ∃ outcome place action, (rule.actionsFor outcome)[place]? = some action ∧
      ¬ ({ rule with bound } : Rule ε).Reaches outcome place := by
  obtain ⟨outcome, branch⟩ := mem_actions_iff.1 among
  obtain ⟨place, found⟩ := List.mem_iff_getElem?.1 branch
  have narrow : (({ rule with bound } : Rule ε).actionsFor outcome)[place]? = some action := found
  refine ⟨outcome, place, action, found, ?_⟩
  rw [reaches_iff narrow, not_le]
  exact less

/-- **Warnings and bounds tell what runs can do.** Of a rule that has been built:

* an action is warned about if and only if no runner ever carries it out, whatever it is
  asked to do;
* if the draft leaves the history open, nothing is warned about, the rule retains as many
  outcomes as the largest threshold says, or one if there are no actions, and each action
  is within reach: as many evaluations in a row as it waits for carry it out;
* with any smaller bound the same rule has an action that no runner ever carries out. -/
theorem Draft.warned_iff_not_reaches {name : String} {condition : ε} {clauses : List Clause} {id : RuleId}
    {rule : Rule ε} (built : (ofClauses name condition clauses).build id = .ok rule) :
    (∀ outcome place action, (rule.actionsFor outcome)[place]? = some action →
      (.unreachable rule.name action.name action.threshold rule.bound.size ∈ rule.warnings ↔
        ¬ rule.Reaches outcome place)) ∧
    ((∀ n, .history n ∉ clauses) →
      rule.warnings = [] ∧
      (rule.actions = [] → rule.bound.size = 1) ∧
      (rule.actions ≠ [] → ∃ a ∈ rule.actions, a.threshold = rule.bound.size) ∧
      (∀ outcome place action, (rule.actionsFor outcome)[place]? = some action →
        action.threshold ≤ rule.bound.size ∧ rule.Reaches outcome place ∧
          rule.FiresAfter outcome place action.threshold) ∧
      ∀ bound : Bound, bound.size < rule.bound.size →
        (ofClauses name condition (clauses ++ [.history bound.size])).build id = .ok { rule with bound } ∧
        ∃ outcome place action, (rule.actionsFor outcome)[place]? = some action ∧
          ¬ ({ rule with bound } : Rule ε).Reaches outcome place) := by
  refine ⟨?_, ?_⟩
  · intro outcome place action found
    rw [Rule.mem_warnings (Rule.mem_actions_iff.2 ⟨outcome, List.mem_of_getElem? found⟩), Rule.reaches_iff found, not_le]
  · intro silent
    obtain ⟨within, largest⟩ := bound_of_silent built silent
    refine ⟨?_, ?_, ?_, ?_, ?_⟩
    · rw [Rule.warnings, Rule.unreachable, List.map_eq_nil_iff, List.filter_eq_nil_iff]
      intro a among
      simpa using within a among
    · intro none
      rcases largest with one | ⟨a, among, -⟩
      · exact one
      · rw [none] at among
        cases among
    · intro some_action
      rcases largest with one | found
      · obtain ⟨a, among⟩ := List.exists_mem_of_ne_nil _ some_action
        have := threshold_pos_of_build built among
        have := within a among
        exact ⟨a, among, by omega⟩
      · exact found
    · intro outcome place action found
      have short := within action (Rule.mem_actions_iff.2 ⟨outcome, List.mem_of_getElem? found⟩)
      exact ⟨short, (Rule.reaches_iff found).2 short, Rule.firesAfter_threshold found short⟩
    · intro smaller less
      have positive := smaller.size_pos
      refine ⟨?_, ?_⟩
      · obtain ⟨checked, -, rfl⟩ := build_eq_ok.1 built
        rw [ofClauses_snoc]
        exact build_eq_ok.2 ⟨checked, positive, rfl⟩
      · rcases largest with one | ⟨a, among, threshold⟩
        · omega
        · exact Rule.not_reaches_of_smaller among (threshold ▸ less)

/-- Two actions, one for each outcome. -/
def twoActions : List Clause := [.onTrue ⟨"late", 3, ∅⟩, .onFalse ⟨"soon", 2, ∅⟩]

def twoActionsRule (bound : Bound) : Rule Bool :=
  ⟨.ofNat 1, "r", true, [⟨"late", 3, ∅⟩], [⟨"soon", 2, ∅⟩], bound⟩

/-- Under a bound of two the more patient action is warned about and out of reach. Without
one the rule retains three outcomes, and three in a row carry that action out. -/
theorem Draft.warned_iff_not_reaches_late :
    let narrow := twoActionsRule ⟨2, by decide⟩
    let wide := twoActionsRule ⟨3, by decide⟩
    (Draft.ofClauses "r" true (.history 2 :: twoActions)).build (.ofNat 1) = .ok narrow ∧
      .unreachable "r" "late" 3 2 ∈ narrow.warnings ∧ ¬ narrow.Reaches true 0 ∧ narrow.Reaches false 0 ∧
      (Draft.ofClauses "r" true twoActions).build (.ofNat 1) = .ok wide ∧
      wide.warnings = [] ∧ wide.FiresAfter true 0 3 := by
  intro narrow wide
  have built : (ofClauses "r" true (.history 2 :: twoActions)).build (.ofNat 1) = .ok narrow := rfl
  have built' : (ofClauses "r" true twoActions).build (.ofNat 1) = .ok wide := rfl
  obtain ⟨warned, -⟩ := warned_iff_not_reaches built
  obtain ⟨-, silent⟩ := warned_iff_not_reaches built'
  obtain ⟨none, -, -, reached, -⟩ := silent (by simp [twoActions])
  have told : .unreachable "r" "late" 3 2 ∈ narrow.warnings := by decide
  refine ⟨built, told, (warned true 0 _ rfl).1 told, ?_, built', none, (reached true 0 _ rfl).2.2⟩
  by_contra out
  have told' := (warned false 0 _ rfl).2 out
  exact absurd told' (by decide)

end RuleWatch
