import RuleWatch.Proofs.Run.Deeds
/-!
  The moments of a run: every state that a caller, a run or a handler sees, in
  order, and what it is seen at. A handler sees a state at each of its steps, and
  the moments of the runs that it sets off lie between two of them.

  What an invocation comes to is told ahead, where its run has recorded: by its
  fates, one for each action of the outcome. A report is nothing but the streak of
  the run and its fates (`Runner.run_moments`).

  `Passage` ties moments to histories: between two of them nothing happens but that
  a rule is forgotten or all are, and at a recording the record and the streak are
  what the history answers. One lemma for each kind of computation leads to
  `Runner.passage_serveAll`.
-/

namespace RuleWatch

variable {σ ε ι : Type}

/-- What became of an action: it waited, or finding and carrying out its handler
ended somehow. -/
structure Fate where
  action : Action
  ending : Option (Except Failure Unit)

def Status.ofEnding : Option (Except Failure Unit) → Status
  | none => .skipped
  | some (.ok ()) => .fired
  | some (.error failure) => .failed failure.message

def Fate.report (f : Fate) : ActionReport := ⟨f.action.name, f.action.threshold, .ofEnding f.ending⟩

/-- The report of a run of a rule that recorded with a streak and went through its
actions with the given fates. -/
def Report.told (rule : Rule ε) (streak : Streak) (fates : List Fate) : Report :=
  ⟨rule.name, streak, fates.map Fate.report⟩

/-- What a state is seen at. -/
inductive Occasion (ε : Type) where
  /-- A caller may ask for something. -/
  | idle
  /-- A run of the rule begins. -/
  | began (rule : Rule ε)
  /-- A run of the rule has made the record, and its actions will have the fates. -/
  | recorded (rule : Rule ε) (record : Record) (streak : Streak) (fates : List Fate)
  /-- The handler of an action is about to be found. -/
  | invoked (rule : Rule ε) (action : Action)
  /-- A handler is about to take a step, or to end. -/
  | within

structure Moment (σ ε : Type) where
  occasion : Occasion ε
  state : State σ

/-- The report is told by the fates that its run recorded with at one of the moments. -/
def Report.ToldIn (ms : List (Moment σ ε)) (r : Report) : Prop :=
  ∃ rule record fates s, ⟨.recorded rule record r.streak fates, s⟩ ∈ ms ∧ r = .told rule r.streak fates

theorem Report.ToldIn.mono {ms ms' : List (Moment σ ε)} (h : ms ⊆ ms') {r : Report} (told : r.ToldIn ms) :
    r.ToldIn ms' := by
  obtain ⟨rule, record, fates, s, among, eq⟩ := told
  exact ⟨rule, record, fates, s, h among, eq⟩

/-! ## The moments of a computation -/

/-- The moments of a script, given those of the runs that it sets off. -/
def Script.moments (nested : NestedRun σ ε ι) (inner : Rule ε → State σ → List (Moment σ ε)) :
    Script σ ε ι → State σ → List (Moment σ ε)
  | .done _, s => [⟨.within, s⟩]
  | .look next, s => ⟨.within, s⟩ :: (next s.context).moments nested inner s
  | .write context next, s => ⟨.within, s⟩ :: next.moments nested inner { s with context }
  | .run rule next, s =>
    ⟨.within, s⟩ :: (inner rule s ++ (next (nested rule s).1).moments nested inner (nested rule s).2)
  | .recall rule next, s => ⟨.within, s⟩ :: (next (s.history.of rule)).moments nested inner s
  | .forget rule next, s =>
    ⟨.within, s⟩ :: (next (s.history.remembers rule)).moments nested inner (s.forget rule)
  | .clear next, s => ⟨.within, s⟩ :: next.moments nested inner s.clear

namespace Runner

/-- What is carried out for an action: the script of its handler or, if none can be
found, nothing but the failure. -/
def invocation (e : Runner σ ε ι) (rule : Rule ε) (action : Action) : Script σ ε ι :=
  match e.lookup action with
  | .error failure => .done (.error failure)
  | .ok handler => handler rule action

theorem perform_eq (e : Runner σ ε ι) (nested : NestedRun σ ε ι) (rule : Rule ε) (action : Action)
    (s : State σ) : e.perform nested rule action s = (e.invocation rule action).play nested s := by
  unfold perform invocation
  cases e.lookup action <;> rfl

/-- How the invocation of an action ends, if its threshold is reached. -/
def ending (e : Runner σ ε ι) (nested : NestedRun σ ε ι) (rule : Rule ε) (hits : Nat)
    (action : Action) (s : State σ) : Option (Except Failure Unit) :=
  if hits < action.threshold then none else some (e.perform nested rule action s).1

def fates (e : Runner σ ε ι) (nested : NestedRun σ ε ι) (rule : Rule ε) (hits : Nat) :
    List Action → State σ → List Fate
  | [], _ => []
  | action :: rest, s =>
    ⟨action, e.ending nested rule hits action s⟩ ::
      e.fates nested rule hits rest (e.consider nested rule hits action s).2

def considerMoments (e : Runner σ ε ι) (nested : NestedRun σ ε ι)
    (inner : Rule ε → State σ → List (Moment σ ε)) (rule : Rule ε) (hits : Nat) (action : Action)
    (s : State σ) : List (Moment σ ε) :=
  if hits < action.threshold then []
  else ⟨.invoked rule action, s⟩ :: (e.invocation rule action).moments nested inner s

def considerAllMoments (e : Runner σ ε ι) (nested : NestedRun σ ε ι)
    (inner : Rule ε → State σ → List (Moment σ ε)) (rule : Rule ε) (hits : Nat) :
    List Action → State σ → List (Moment σ ε)
  | [], _ => []
  | action :: rest, s =>
    e.considerMoments nested inner rule hits action s ++
      e.considerAllMoments nested inner rule hits rest (e.consider nested rule hits action s).2

/-- The moments of a run: it begins, it has recorded, and then those of its actions. -/
def runWithMoments (e : Runner σ ε ι) (nested : NestedRun σ ε ι)
    (inner : Rule ε → State σ → List (Moment σ ε)) (rule : Rule ε) (s : State σ) :
    List (Moment σ ε) :=
  ⟨.began rule, s⟩ ::
    match e.evaluate s.context rule.condition with
    | .error _ => []
    | .ok outcome =>
      let made := s.history.record rule.id rule.bound outcome s.clock.now
      let (streak, s') := s.record rule.id rule.bound outcome
      let s' := s'.tell (.evaluated rule.name outcome streak.size)
      let actions := rule.actionsFor outcome
      ⟨.recorded rule made.record streak (e.fates nested rule streak.size actions s'), s'⟩ ::
        e.considerAllMoments nested inner rule streak.size actions s'

def moments (e : Runner σ ε ι) : Nat → Rule ε → State σ → List (Moment σ ε)
  | 0 => e.runWithMoments (e.nested 0) fun _ _ => []
  | depth + 1 => e.runWithMoments (e.nested (depth + 1)) (e.moments depth)

def runAllMoments (e : Runner σ ε ι) (depth : Nat) : List (Rule ε) → State σ → List (Moment σ ε)
  | [], _ => []
  | rule :: rest, s =>
    e.moments depth rule s ++
      match e.run depth rule s with
      | (.error _, _) => []
      | (.ok _, s) => e.runAllMoments depth rest s

def serveMoments (e : Runner σ ε ι) (depth : Nat) (s : State σ) : Errand σ ε → List (Moment σ ε)
  | .run rule => e.moments depth rule s
  | .runAll rules => e.runAllMoments depth rules s
  | _ => []

/-- All moments of a list of errands: a caller sees the state before each of them
and in the end. -/
def serveAllMoments (e : Runner σ ε ι) (depth : Nat) :
    List (Errand σ ε) → State σ → List (Moment σ ε)
  | [], s => [⟨.idle, s⟩]
  | errand :: rest, s =>
    ⟨.idle, s⟩ :: (e.serveMoments depth s errand ++
      e.serveAllMoments depth rest (e.serve depth s errand))

/-! ## Reports are told by fates -/

theorem consider_status_eq (e : Runner σ ε ι) (nested : NestedRun σ ε ι) (rule : Rule ε) (hits : Nat)
    (action : Action) (s : State σ) :
    (e.consider nested rule hits action s).1 = .ofEnding (e.ending nested rule hits action s) := by
  unfold consider ending
  split
  · rfl
  · cases e.perform nested rule action s with
    | mk ending s' => cases ending <;> rfl

theorem considerAll_reports (e : Runner σ ε ι) (nested : NestedRun σ ε ι) (rule : Rule ε) (hits : Nat)
    (actions : List Action) (s : State σ) :
    (e.considerAll nested rule hits actions s).1 =
      (e.fates nested rule hits actions s).map Fate.report := by
  induction actions generalizing s with
  | nil => rfl
  | cons action rest ih =>
    simp only [considerAll, fates, List.map_cons, Fate.report, ← consider_status_eq, ih]

theorem moments_eq (e : Runner σ ε ι) (depth : Nat) :
    ∃ inner, e.moments depth = e.runWithMoments (e.nested depth) inner := by
  cases depth with
  | zero => exact ⟨_, rfl⟩
  | succ depth => exact ⟨_, rfl⟩

/-- A run whose condition cannot be evaluated has no moment but its first. Any other
records next what its condition gives, and its answer tells the streak and the fates. -/
theorem run_moments (e : Runner σ ε ι) (depth : Nat) (rule : Rule ε) (s : State σ) :
    match (e.run depth rule s).1 with
    | .error error => e.evaluate s.context rule.condition = .error error ∧
        e.moments depth rule s = [⟨.began rule, s⟩]
    | .ok report => ∃ streak fates s' rest,
        let made := s.history.record rule.id rule.bound streak.outcome s.clock.now
        e.evaluate s.context rule.condition = .ok streak.outcome ∧ report = .told rule streak fates ∧
          e.moments depth rule s =
            ⟨.began rule, s⟩ :: ⟨.recorded rule made.record streak fates, s'⟩ :: rest := by
  obtain ⟨inner, moments⟩ := moments_eq e depth
  rw [run_eq, moments]
  unfold runWith runWithMoments
  cases e.evaluate s.context rule.condition with
  | error error => exact ⟨rfl, rfl⟩
  | ok outcome =>
    refine ⟨(s.record rule.id rule.bound outcome).1, _, _, _, rfl, ?_, rfl⟩
    simp only [Report.told, considerAll_reports]
    rfl

/-- What a caller is answered by reports. -/
def reply (e : Runner σ ε ι) (depth : Nat) (s : State σ) : Errand σ ε → Except ι (List Report)
  | .run rule => (e.run depth rule s).1.map fun report => [report]
  | .runAll rules => (e.runAll depth rules s).1
  | _ => .ok []

def replies (e : Runner σ ε ι) (depth : Nat) :
    List (Errand σ ε) → State σ → List (Except ι (List Report))
  | [], _ => []
  | errand :: rest, s => e.reply depth s errand :: e.replies depth rest (e.serve depth s errand)

/-- Each report that is given was told when its run had recorded. -/
theorem run_told {e : Runner σ ε ι} {depth : Nat} {rule : Rule ε} {s : State σ} {r : Report}
    (h : (e.run depth rule s).1 = .ok r) : r.ToldIn (e.moments depth rule s) := by
  have told := e.run_moments depth rule s
  rw [h] at told
  obtain ⟨streak, fates, s', rest, -, rfl, moments⟩ := told
  rw [moments]
  exact ⟨rule, _, fates, s', List.mem_cons_of_mem _ List.mem_cons_self, rfl⟩

theorem runAll_told {e : Runner σ ε ι} {depth : Nat} {rules : List (Rule ε)} {s : State σ}
    {reports : List Report} (h : (e.runAll depth rules s).1 = .ok reports) :
    ∀ r ∈ reports, r.ToldIn (e.runAllMoments depth rules s) := by
  induction rules generalizing s reports with
  | nil =>
    cases h
    simp
  | cons rule rest ih =>
    simp only [runAll] at h
    simp only [runAllMoments]
    cases ran : e.run depth rule s with
    | mk answer s' =>
      cases answer with
      | error error => simp [ran] at h
      | ok report =>
        cases others : (e.runAll depth rest s').1 with
        | error error => simp [ran, others, Except.map] at h
        | ok reports' =>
          simp only [ran, others, Except.map, Except.ok.injEq] at h
          subst h
          have first : report.ToldIn (e.moments depth rule s) := run_told (by rw [ran])
          refine List.forall_mem_cons.2 ⟨first.mono (List.subset_append_left _ _), ?_⟩
          exact fun r hr => (ih others r hr).mono (List.subset_append_right _ _)

theorem reply_told {e : Runner σ ε ι} {depth : Nat} {errand : Errand σ ε} {s : State σ}
    {reports : List Report} (h : e.reply depth s errand = .ok reports) :
    ∀ r ∈ reports, r.ToldIn (e.serveMoments depth s errand) := by
  cases errand with
  | run rule =>
    simp only [reply] at h
    cases ran : (e.run depth rule s).1 with
    | error error => simp [ran, Except.map] at h
    | ok report =>
      simp only [ran, Except.map, Except.ok.injEq] at h
      subst h
      exact List.forall_mem_singleton.2 (run_told ran)
  | runAll rules => exact runAll_told h
  | forget rule => cases h; simp
  | clear => cases h; simp
  | setClock clock => cases h; simp
  | setContext context => cases h; simp

theorem replies_told (e : Runner σ ε ι) (depth : Nat) (errands : List (Errand σ ε)) (s : State σ) :
    ∀ reports, .ok reports ∈ e.replies depth errands s →
      ∀ r ∈ reports, r.ToldIn (e.serveAllMoments depth errands s) := by
  induction errands generalizing s with
  | nil => simp [replies]
  | cons errand rest ih =>
    intro reports given r hr
    apply Report.ToldIn.mono (List.subset_cons_self _ _)
    rcases List.mem_cons.1 given with first | later
    · exact (reply_told first.symm r hr).mono (List.subset_append_left _ _)
    · exact (ih _ reports later r hr).mono (List.subset_append_right _ _)

end Runner

/-! ## Moments lead from one history to the next -/

/-- The moments of a computation between two histories, over rules of a collection. -/
inductive Passage (built : Set (Rule ε)) : History → List (Moment σ ε) → History → Prop where
  | nil (h : History) : Passage built h [] h
  /-- A state is seen. -/
  | seen {s : State σ} {h : History} {ms : List (Moment σ ε)} {o : Occasion ε}
      (plain : ∀ rule record streak fates, o ≠ .recorded rule record streak fates)
      (rest : Passage built s.history ms h) : Passage built s.history (⟨o, s⟩ :: ms) h
  | recorded {h h' : History} {s : State σ} {ms : List (Moment σ ε)} {rule : Rule ε} {outcome : Bool}
      {now : Instant} {fates : List Fate} (member : rule ∈ built)
      (same : s.history = (h.record rule.id rule.bound outcome now).history)
      (rest : Passage built s.history ms h') :
      Passage built h
        (⟨.recorded rule (h.record rule.id rule.bound outcome now).record
          (h.record rule.id rule.bound outcome now).streak fates, s⟩ :: ms) h'
  | forgot {h h' : History} {ms : List (Moment σ ε)} (rule : RuleId)
      (rest : Passage built (h.forget rule) ms h') : Passage built h ms h'
  | cleared {h h' : History} {ms : List (Moment σ ε)} (rest : Passage built h.clear ms h') :
      Passage built h ms h'

namespace Passage

variable {built : Set (Rule ε)}

theorem append {h h' h'' : History} {ms ms' : List (Moment σ ε)} (p : Passage built h ms h')
    (q : Passage built h' ms' h'') : Passage built h (ms ++ ms') h'' := by
  induction p with
  | nil => exact q
  | seen plain _ ih => exact seen plain (ih q)
  | recorded member same _ ih => exact recorded member same (ih q)
  | forgot rule _ ih => exact forgot rule (ih q)
  | cleared _ ih => exact cleared (ih q)

end Passage

section
variable {built : Set (Rule ε)} {nested : NestedRun σ ε ι} {inner : Rule ε → State σ → List (Moment σ ε)}

/-- A script passes through its moments if the runs that it sets off do. -/
theorem Script.passage_play
    (runs : ∀ rule ∈ built, ∀ s, Passage built s.history (inner rule s) (nested rule s).2.history)
    (script : Script σ ε ι) (known : script.RunsOnly built) (s : State σ) :
    Passage built s.history (script.moments nested inner s) (script.play nested s).2.history := by
  induction script generalizing s with
  | done ending => exact Passage.seen (by simp) (Passage.nil _)
  | look next ih => exact Passage.seen (by simp) (ih _ (known _) s)
  | write context next ih => exact Passage.seen (by simp) (ih known { s with context })
  | run rule next ih =>
    obtain ⟨member, known⟩ := known
    exact Passage.seen (by simp) ((runs rule member s).append (ih _ (known _) _))
  | «recall» rule next ih => exact Passage.seen (by simp) (ih _ (known _) s)
  | forget rule next ih => exact Passage.seen (by simp) (Passage.forgot rule (ih _ (known _) (s.forget rule)))
  | clear next ih => exact Passage.seen (by simp) (Passage.cleared (ih known s.clear))

namespace Runner

variable {e : Runner σ ε ι}

theorem runsOnly_invocation (known : e.RunsOnly built) {rule : Rule ε} (member : rule ∈ built)
    (action : Action) : (e.invocation rule action).RunsOnly built := by
  unfold invocation
  cases found : e.lookup action with
  | error failure => trivial
  | ok handler => exact known action handler found rule member action

/-- Carrying out an action adds an event to what its invocation does. -/
theorem consider_due (e : Runner σ ε ι) (nested : NestedRun σ ε ι) (rule : Rule ε) (hits : Nat)
    (action : Action) (s : State σ) (due : ¬ hits < action.threshold) :
    ∃ event, e.consider nested rule hits action s =
      (.ofEnding (some ((e.invocation rule action).play nested s).1),
        ((e.invocation rule action).play nested s).2.tell event) := by
  rw [consider, if_neg due, ← perform_eq]
  cases e.perform nested rule action s with
  | mk ending s' => cases ending <;> exact ⟨_, rfl⟩

theorem passage_consider (known : e.RunsOnly built)
    (runs : ∀ rule ∈ built, ∀ s, Passage built s.history (inner rule s) (nested rule s).2.history)
    {rule : Rule ε} (member : rule ∈ built) (hits : Nat) (action : Action) (s : State σ) :
    Passage built s.history (e.considerMoments nested inner rule hits action s)
      (e.consider nested rule hits action s).2.history := by
  unfold considerMoments
  split
  · next waits =>
    rw [consider, if_pos waits]
    exact Passage.nil _
  · next due =>
    obtain ⟨event, told⟩ := consider_due e nested rule hits action s due
    rw [told]
    exact Passage.seen (by simp)
      (Script.passage_play runs _ (runsOnly_invocation known member action) s)

theorem passage_considerAll (known : e.RunsOnly built)
    (runs : ∀ rule ∈ built, ∀ s, Passage built s.history (inner rule s) (nested rule s).2.history)
    {rule : Rule ε} (member : rule ∈ built) (hits : Nat) (actions : List Action) (s : State σ) :
    Passage built s.history (e.considerAllMoments nested inner rule hits actions s)
      (e.considerAll nested rule hits actions s).2.history := by
  induction actions generalizing s with
  | nil => exact Passage.nil _
  | cons action rest ih => exact (passage_consider known runs member hits action s).append (ih _)

theorem passage_runWith (known : e.RunsOnly built)
    (runs : ∀ rule ∈ built, ∀ s, Passage built s.history (inner rule s) (nested rule s).2.history)
    {rule : Rule ε} (member : rule ∈ built) (s : State σ) :
    Passage built s.history (e.runWithMoments nested inner rule s) (e.runWith nested rule s).2.history := by
  unfold runWithMoments runWith
  apply Passage.seen (by simp)
  cases e.evaluate s.context rule.condition with
  | error error => exact Passage.nil _
  | ok outcome => exact Passage.recorded member rfl (passage_considerAll known runs member _ _ _)

theorem passage_run (known : e.RunsOnly built) (depth : Nat) {rule : Rule ε} (member : rule ∈ built)
    (s : State σ) : Passage built s.history (e.moments depth rule s) (e.run depth rule s).2.history := by
  induction depth generalizing rule s with
  | zero => exact passage_runWith known (fun _ _ s => Passage.nil s.history) member s
  | succ depth ih =>
    refine passage_runWith known ?_ member s
    intro rule member s
    rw [nested_state]
    exact ih member s

theorem passage_runAll (known : e.RunsOnly built) (depth : Nat) {rules : List (Rule ε)}
    (members : ∀ rule ∈ rules, rule ∈ built) (s : State σ) :
    Passage built s.history (e.runAllMoments depth rules s) (e.runAll depth rules s).2.history := by
  induction rules generalizing s with
  | nil => exact Passage.nil _
  | cons rule rest ih =>
    have first := passage_run known depth (members rule (by simp)) s
    simp only [runAllMoments, runAll]
    cases ran : e.run depth rule s with
    | mk answer s' =>
      rw [ran] at first
      cases answer with
      | error error => simpa using first
      | ok report => exact first.append (ih (fun r hr => members r (by simp [hr])) s')

theorem passage_serve (known : e.RunsOnly built) (depth : Nat) {errand : Errand σ ε}
    (asked : errand.RunsOnly built) (s : State σ) :
    Passage built s.history (e.serveMoments depth s errand) (e.serve depth s errand).history := by
  cases errand with
  | run rule => exact passage_run known depth asked s
  | runAll rules => exact passage_runAll known depth asked s
  | forget rule => exact Passage.forgot rule (Passage.nil _)
  | clear => exact Passage.cleared (Passage.nil _)
  | setClock clock => exact Passage.nil _
  | setContext context => exact Passage.nil _

/-- Whatever a runner is asked to do passes through its moments. -/
theorem passage_serveAll (known : e.RunsOnly built) (depth : Nat) {errands : List (Errand σ ε)}
    (asked : ∀ errand ∈ errands, errand.RunsOnly built) (s : State σ) :
    Passage built s.history (e.serveAllMoments depth errands s) (e.serveAll depth errands s).history := by
  induction errands generalizing s with
  | nil => exact Passage.seen (by simp) (Passage.nil _)
  | cons errand rest ih =>
    exact Passage.seen (by simp) ((passage_serve known depth (asked errand (by simp)) s).append
      (ih (fun x hx => asked x (by simp [hx])) _))

end Runner

end

end RuleWatch
