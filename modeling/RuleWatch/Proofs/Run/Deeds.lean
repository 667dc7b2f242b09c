import Mathlib.Data.Set.Basic
import RuleWatch.Proofs.History.Log
import RuleWatch.Run.Runner
/-!
  What runs do to the history, in the order in which they do it. A run may set off
  other runs from within its handlers, and these may forget records that the run
  has just made. The deeds of a run are all that happens to the history on the
  way: the recordings, each with the report that its run gave in the end, and what
  is forgotten in between.

  `Course` ties the deeds to the history: each changes it as it says, and the report
  of a recording fits the streak that the history answered at that moment. One
  step lemma for each kind of computation, and by induction over scripts, lists of
  actions, depth and errands, `Runner.course_serveAll`: whatever a runner is asked
  to do, its deeds lead from the history before to the history after.
-/

namespace RuleWatch

variable {σ ε ι : Type}

/-- One thing done to the history. -/
inductive Deed (ε : Type) where
  /-- An outcome of a rule has been recorded, at a reading of the clock, by a run
  that gave the report in the end. -/
  | ran (rule : Rule ε) (outcome : Bool) (now : Instant) (report : Report)
  | forgot (rule : RuleId)
  | cleared

/-- What a deed does to the history. -/
def Deed.change : Deed ε → Change
  | ran rule outcome now _ => .record rule.id rule.bound outcome now
  | forgot rule => .forget rule
  | cleared => .clear

/-! ## The deeds of a run -/

/-- The deeds of a script, given those of the runs that it sets off. -/
def Script.deeds (nested : NestedRun σ ε ι) (within : Rule ε → State σ → List (Deed ε)) :
    Script σ ε ι → State σ → List (Deed ε)
  | .done _, _ => []
  | .look next, s => (next s.context).deeds nested within s
  | .write context next, s => next.deeds nested within { s with context }
  | .run rule next, s =>
    within rule s ++ (next (nested rule s).1).deeds nested within (nested rule s).2
  | .recall rule next, s => (next (s.history.of rule)).deeds nested within s
  | .forget rule next, s =>
    .forgot rule :: (next (s.history.remembers rule)).deeds nested within (s.forget rule)
  | .clear next, s => .cleared :: next.deeds nested within s.clear

namespace Runner

def performDeeds (e : Runner σ ε ι) (nested : NestedRun σ ε ι)
    (within : Rule ε → State σ → List (Deed ε)) (rule : Rule ε) (action : Action) (s : State σ) :
    List (Deed ε) :=
  match e.lookup action with
  | .error _ => []
  | .ok handler => (handler rule action).deeds nested within s

def considerDeeds (e : Runner σ ε ι) (nested : NestedRun σ ε ι)
    (within : Rule ε → State σ → List (Deed ε)) (rule : Rule ε) (hits : Nat) (action : Action)
    (s : State σ) : List (Deed ε) :=
  if hits < action.threshold then [] else e.performDeeds nested within rule action s

def considerAllDeeds (e : Runner σ ε ι) (nested : NestedRun σ ε ι)
    (within : Rule ε → State σ → List (Deed ε)) (rule : Rule ε) (hits : Nat) :
    List Action → State σ → List (Deed ε)
  | [], _ => []
  | action :: rest, s =>
    e.considerDeeds nested within rule hits action s ++
      e.considerAllDeeds nested within rule hits rest (e.consider nested rule hits action s).2

/-- The deeds of a run: it records, and then its actions do what they do. -/
def runWithDeeds (e : Runner σ ε ι) (nested : NestedRun σ ε ι)
    (within : Rule ε → State σ → List (Deed ε)) (rule : Rule ε) (s : State σ) : List (Deed ε) :=
  match e.evaluate s.context rule.condition with
  | .error _ => []
  | .ok outcome =>
    let (streak, s') := s.record rule.id rule.bound outcome
    let s' := s'.tell (.evaluated rule.name outcome streak.size)
    let actions := (e.considerAll nested rule streak.size (rule.actionsFor outcome) s').1
    .ran rule outcome s.clock.now ⟨rule.name, streak, actions⟩ ::
      e.considerAllDeeds nested within rule streak.size (rule.actionsFor outcome) s'

/-- How rules are run within a run, up to a depth. -/
def nested (e : Runner σ ε ι) : Nat → NestedRun σ ε ι
  | 0 => fun _ s => (.error .tooDeep, s)
  | depth + 1 => fun rule s =>
    match e.run depth rule s with
    | (.ok report, s) => (.ok report, s)
    | (.error error, s) => (.error (.evaluation error), s)

theorem run_eq (e : Runner σ ε ι) (depth : Nat) : e.run depth = e.runWith (e.nested depth) := by
  cases depth <;> rfl

/-- A run gives no report if and only if its condition cannot be evaluated, and then
it leaves all as it was. -/
theorem run_error_iff {e : Runner σ ε ι} {depth : Nat} {rule : Rule ε} {s s' : State σ} {error : ι} :
    e.run depth rule s = (.error error, s') ↔ e.evaluate s.context rule.condition = .error error ∧ s' = s := by
  rw [run_eq, runWith]
  cases e.evaluate s.context rule.condition with
  | error other => simp [eq_comm]
  | ok outcome => simp

def deeds (e : Runner σ ε ι) : Nat → Rule ε → State σ → List (Deed ε)
  | 0 => e.runWithDeeds (e.nested 0) fun _ _ => []
  | depth + 1 => e.runWithDeeds (e.nested (depth + 1)) (e.deeds depth)

def runAllDeeds (e : Runner σ ε ι) (depth : Nat) : List (Rule ε) → State σ → List (Deed ε)
  | [], _ => []
  | rule :: rest, s =>
    e.deeds depth rule s ++
      match e.run depth rule s with
      | (.error _, _) => []
      | (.ok _, s) => e.runAllDeeds depth rest s

end Runner

/-- What a caller does with a runner between two runs, or asks of it. -/
inductive Errand (σ ε : Type) where
  | run (rule : Rule ε)
  | runAll (rules : List (Rule ε))
  | forget (rule : RuleId)
  | clear
  | setClock (clock : Clock)
  | setContext (context : σ)

namespace Runner

def serve (e : Runner σ ε ι) (depth : Nat) (s : State σ) : Errand σ ε → State σ
  | .run rule => (e.run depth rule s).2
  | .runAll rules => (e.runAll depth rules s).2
  | .forget rule => s.forget rule
  | .clear => s.clear
  | .setClock clock => { s with clock }
  | .setContext context => { s with context }

def serveDeeds (e : Runner σ ε ι) (depth : Nat) (s : State σ) : Errand σ ε → List (Deed ε)
  | .run rule => e.deeds depth rule s
  | .runAll rules => e.runAllDeeds depth rules s
  | .forget rule => [.forgot rule]
  | .clear => [.cleared]
  | .setClock _ => []
  | .setContext _ => []

def serveAll (e : Runner σ ε ι) (depth : Nat) (errands : List (Errand σ ε)) (s : State σ) : State σ :=
  errands.foldl (e.serve depth) s

def serveAllDeeds (e : Runner σ ε ι) (depth : Nat) : List (Errand σ ε) → State σ → List (Deed ε)
  | [], _ => []
  | errand :: rest, s => e.serveDeeds depth s errand ++ e.serveAllDeeds depth rest (e.serve depth s errand)

end Runner

/-! ## Which rules are run -/

/-- The script runs no rules but those of a collection. -/
def Script.RunsOnly (built : Set (Rule ε)) : Script σ ε ι → Prop
  | .done _ => True
  | .look next => ∀ context, (next context).RunsOnly built
  | .write _ next => next.RunsOnly built
  | .run rule next => rule ∈ built ∧ ∀ answer, (next answer).RunsOnly built
  | .recall _ next => ∀ records, (next records).RunsOnly built
  | .forget _ next => ∀ answer, (next answer).RunsOnly built
  | .clear next => next.RunsOnly built

def Runner.RunsOnly (e : Runner σ ε ι) (built : Set (Rule ε)) : Prop :=
  ∀ action handler, e.lookup action = .ok handler →
    ∀ rule ∈ built, ∀ a, (handler rule a).RunsOnly built

def Errand.RunsOnly (built : Set (Rule ε)) : Errand σ ε → Prop
  | .run rule => rule ∈ built
  | .runAll rules => ∀ rule ∈ rules, rule ∈ built
  | _ => True

/-- Whatever is run is among all rules. -/
theorem Script.runsOnly_univ (script : Script σ ε ι) : script.RunsOnly Set.univ := by
  induction script with
  | done ending => trivial
  | look next ih => exact ih
  | write context next ih => exact ih
  | run rule next ih => exact ⟨trivial, ih⟩
  | «recall» rule next ih => exact ih
  | forget rule next ih => exact ih
  | clear next ih => exact ih

theorem Runner.runsOnly_univ (e : Runner σ ε ι) : e.RunsOnly Set.univ :=
  fun _ _ _ _ _ _ => Script.runsOnly_univ _

theorem Errand.runsOnly_univ (errand : Errand σ ε) : errand.RunsOnly Set.univ := by
  cases errand with
  | runAll rules => exact fun _ _ => trivial
  | _ => trivial

/-! ## Deeds lead from one history to the next -/

def Action.heading (a : Action) : String × Nat := (a.name, a.threshold)

/-- The name and the threshold of the action that an entry of a report is about. -/
def ActionReport.heading (a : ActionReport) : String × Nat := (a.name, a.threshold)

/-- What a report says after an outcome that ended a streak: the actions for that
outcome in order, of which those wait whose threshold the streak does not reach. -/
structure Report.Fits (report : Report) (rule : Rule ε) (outcome : Bool) (streak : Streak) : Prop where
  name : report.rule = rule.name
  ending : report.streak = streak
  actions : report.actions.map ActionReport.heading = (rule.actionsFor outcome).map Action.heading
  waiting : ∀ a ∈ report.actions, a.status = .skipped ↔ streak.size < a.threshold

/-- A deed tells the truth about a run that starts at a history. -/
def Deed.Honest (built : Set (Rule ε)) (h : History) : Deed ε → Prop
  | ran rule outcome now report =>
    rule ∈ built ∧ report.Fits rule outcome (h.record rule.id rule.bound outcome now).streak
  | forgot _ => True
  | cleared => True

/-- Honest deeds that lead from one history to another. -/
inductive Course (built : Set (Rule ε)) : History → List (Deed ε) → History → Prop where
  | nil (h : History) : Course built h [] h
  | cons {h h' : History} {d : Deed ε} {ds : List (Deed ε)} (honest : d.Honest built h)
      (rest : Course built (h.apply d.change) ds h') : Course built h (d :: ds) h'

namespace Course

variable {built : Set (Rule ε)}

theorem single {h : History} {d : Deed ε} (honest : d.Honest built h) :
    Course built h [d] (h.apply d.change) := cons honest (nil _)

theorem append {h h' h'' : History} {ds ds' : List (Deed ε)} (p : Course built h ds h')
    (q : Course built h' ds' h'') : Course built h (ds ++ ds') h'' := by
  induction p with
  | nil => exact q
  | cons honest _ ih => exact cons honest (ih q)

theorem eq_foldl {h h' : History} {ds : List (Deed ε)} (p : Course built h ds h') :
    h' = (ds.map Deed.change).foldl History.apply h := by
  induction p with
  | nil => rfl
  | cons _ _ ih => exact ih

/-- A deed is honest about the history that those before it lead to. -/
theorem honest_of_split {h h' : History} {before after : List (Deed ε)} {d : Deed ε}
    (p : Course built h (before ++ d :: after) h') :
    d.Honest built ((before.map Deed.change).foldl History.apply h) := by
  induction before generalizing h with
  | nil => cases p with | cons honest _ => exact honest
  | cons b before ih => cases p with | cons _ rest => exact ih rest

end Course

/-! ## What is run leaves a course of deeds -/

section
variable {built : Set (Rule ε)} {nested : NestedRun σ ε ι} {within : Rule ε → State σ → List (Deed ε)}

/-- A script leaves a course if the runs that it sets off do. -/
theorem Script.course_play
    (inner : ∀ rule ∈ built, ∀ s, Course built s.history (within rule s) (nested rule s).2.history)
    (script : Script σ ε ι) (known : script.RunsOnly built) (s : State σ) :
    Course built s.history (script.deeds nested within s) (script.play nested s).2.history := by
  induction script generalizing s with
  | done ending => exact Course.nil _
  | look next ih => exact ih _ (known _) s
  | write context next ih => exact ih known { s with context }
  | run rule next ih =>
    obtain ⟨member, known⟩ := known
    exact (inner rule member s).append (ih _ (known _) _)
  | «recall» rule next ih => exact ih _ (known _) s
  | forget rule next ih =>
    exact Course.cons (d := .forgot rule) trivial (ih _ (known _) (s.forget rule))
  | clear next ih => exact Course.cons (d := .cleared) trivial (ih known s.clear)

namespace Runner

variable {e : Runner σ ε ι}

theorem course_perform (known : e.RunsOnly built)
    (inner : ∀ rule ∈ built, ∀ s, Course built s.history (within rule s) (nested rule s).2.history)
    {rule : Rule ε} (member : rule ∈ built) (action : Action) (s : State σ) :
    Course built s.history (e.performDeeds nested within rule action s)
      (e.perform nested rule action s).2.history := by
  unfold performDeeds perform
  cases found : e.lookup action with
  | error failure => exact Course.nil _
  | ok handler => exact Script.course_play inner _ (known action handler found rule member action) s

/-- Telling what became of an action does nothing to the history. -/
theorem course_consider (known : e.RunsOnly built)
    (inner : ∀ rule ∈ built, ∀ s, Course built s.history (within rule s) (nested rule s).2.history)
    {rule : Rule ε} (member : rule ∈ built) (hits : Nat) (action : Action) (s : State σ) :
    Course built s.history (e.considerDeeds nested within rule hits action s)
      (e.consider nested rule hits action s).2.history := by
  unfold considerDeeds consider
  split
  · exact Course.nil _
  · have done := course_perform known inner member action s
    cases performed : e.perform nested rule action s with
    | mk ending s' =>
      rw [performed] at done
      cases ending <;> exact done

theorem course_considerAll (known : e.RunsOnly built)
    (inner : ∀ rule ∈ built, ∀ s, Course built s.history (within rule s) (nested rule s).2.history)
    {rule : Rule ε} (member : rule ∈ built) (hits : Nat) (actions : List Action) (s : State σ) :
    Course built s.history (e.considerAllDeeds nested within rule hits actions s)
      (e.considerAll nested rule hits actions s).2.history := by
  induction actions generalizing s with
  | nil => exact Course.nil _
  | cons action rest ih => exact (course_consider known inner member hits action s).append (ih _)

/-- What is reported of an action is its heading, and that it waits if and only if
the streak is too short. -/
theorem consider_status (e : Runner σ ε ι) (nested : NestedRun σ ε ι) (rule : Rule ε) (hits : Nat)
    (action : Action) (s : State σ) :
    (e.consider nested rule hits action s).1 = .skipped ↔ hits < action.threshold := by
  unfold consider
  split
  · next h => simp [h]
  · next h =>
    cases e.perform nested rule action s with
    | mk ending s' => cases ending <;> simp [h]

theorem considerAll_headings (e : Runner σ ε ι) (nested : NestedRun σ ε ι) (rule : Rule ε) (hits : Nat)
    (actions : List Action) (s : State σ) :
    (e.considerAll nested rule hits actions s).1.map ActionReport.heading =
      actions.map Action.heading := by
  induction actions generalizing s with
  | nil => rfl
  | cons action rest ih =>
    simp only [considerAll, List.map_cons, ih]
    rfl

theorem considerAll_waiting (e : Runner σ ε ι) (nested : NestedRun σ ε ι) (rule : Rule ε) (hits : Nat)
    (actions : List Action) (s : State σ) :
    ∀ a ∈ (e.considerAll nested rule hits actions s).1, a.status = .skipped ↔ hits < a.threshold := by
  induction actions generalizing s with
  | nil => intro a ha; simp [considerAll] at ha
  | cons action rest ih =>
    intro a ha
    simp only [considerAll, List.mem_cons] at ha
    rcases ha with rfl | ha
    · exact consider_status e nested rule hits action s
    · exact ih _ a ha

/-- A run leaves a course if the runs within it do: it records, reports what fits
the streak, and goes through its actions. -/
theorem course_runWith (known : e.RunsOnly built)
    (inner : ∀ rule ∈ built, ∀ s, Course built s.history (within rule s) (nested rule s).2.history)
    {rule : Rule ε} (member : rule ∈ built) (s : State σ) :
    Course built s.history (e.runWithDeeds nested within rule s) (e.runWith nested rule s).2.history := by
  unfold runWithDeeds runWith
  cases e.evaluate s.context rule.condition with
  | error error => exact Course.nil _
  | ok outcome =>
    let recorded := s.record rule.id rule.bound outcome
    let told := recorded.2.tell (.evaluated rule.name outcome recorded.1.size)
    have actions := course_considerAll known inner member recorded.1.size (rule.actionsFor outcome) told
    refine Course.cons ⟨member, ?_⟩ actions
    exact ⟨rfl, rfl, considerAll_headings e nested rule _ _ told, considerAll_waiting e nested rule _ _ told⟩

theorem nested_state (e : Runner σ ε ι) (depth : Nat) (rule : Rule ε) (s : State σ) :
    (e.nested (depth + 1) rule s).2 = (e.run depth rule s).2 := by
  simp only [nested]
  cases e.run depth rule s with
  | mk answer s' => cases answer <;> rfl

theorem course_run (known : e.RunsOnly built) (depth : Nat) {rule : Rule ε} (member : rule ∈ built)
    (s : State σ) : Course built s.history (e.deeds depth rule s) (e.run depth rule s).2.history := by
  induction depth generalizing rule s with
  | zero => exact course_runWith known (fun _ _ s => Course.nil s.history) member s
  | succ depth ih =>
    refine course_runWith known ?_ member s
    intro rule member s
    rw [nested_state]
    exact ih member s

theorem course_runAll (known : e.RunsOnly built) (depth : Nat) {rules : List (Rule ε)}
    (members : ∀ rule ∈ rules, rule ∈ built) (s : State σ) :
    Course built s.history (e.runAllDeeds depth rules s) (e.runAll depth rules s).2.history := by
  induction rules generalizing s with
  | nil => exact Course.nil _
  | cons rule rest ih =>
    have first := course_run known depth (members rule (by simp)) s
    simp only [runAllDeeds, runAll]
    cases ran : e.run depth rule s with
    | mk answer s' =>
      rw [ran] at first
      cases answer with
      | error error => simpa using first
      | ok report => exact first.append (ih (fun r hr => members r (by simp [hr])) s')

theorem course_serve (known : e.RunsOnly built) (depth : Nat) {errand : Errand σ ε}
    (asked : errand.RunsOnly built) (s : State σ) :
    Course built s.history (e.serveDeeds depth s errand) (e.serve depth s errand).history := by
  cases errand with
  | run rule => exact course_run known depth asked s
  | runAll rules => exact course_runAll known depth asked s
  | forget rule => exact Course.single (d := .forgot rule) trivial
  | clear => exact Course.single (d := .cleared) trivial
  | setClock clock => exact Course.nil _
  | setContext context => exact Course.nil _

/-- Whatever a runner is asked to do leaves a course of deeds. -/
theorem course_serveAll (known : e.RunsOnly built) (depth : Nat) {errands : List (Errand σ ε)}
    (asked : ∀ errand ∈ errands, errand.RunsOnly built) (s : State σ) :
    Course built s.history (e.serveAllDeeds depth errands s) (e.serveAll depth errands s).history := by
  induction errands generalizing s with
  | nil => exact Course.nil _
  | cons errand rest ih =>
    exact (course_serve known depth (asked errand (by simp)) s).append
      (ih (fun x hx => asked x (by simp [hx])) _)

end Runner

end

end RuleWatch
