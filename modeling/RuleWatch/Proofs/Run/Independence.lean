import RuleWatch.Proofs.Condition.Reached
import RuleWatch.Proofs.History.Renumbering
import RuleWatch.Proofs.Run.Orderly
import RuleWatch.Proofs.Run.Succession
/-!
  Independent rules. The handlers of a rule keep to a set of fields if they ask nothing
  of the runner and if no other fields matter to them or are changed by them. Two rules
  are independent if their handlers keep to disjoint sets and neither condition names a
  field that the handlers of the other rule keep to. They can be run in either order
  (`Runner.commute_of_independent`): each evaluates, records and carries out the same,
  and only the numbers of the two new records are exchanged.

  What is carried out for a rule is a computation local to its fields
  (`Local`), and computations local to disjoint sets commute. What is recorded for a rule
  is told by its own records and a number, see `History.record_comm`.
-/

namespace RuleWatch

/-! ## Fields that agree -/

namespace Fields

/-- The same is held under the names of a set. -/
def AgreeOn (keys : Set String) (f g : Fields) : Prop := ∀ key ∈ keys, f[key]? = g[key]?

namespace AgreeOn

variable {keys keys' : Set String} {f g h : Fields}

theorem refl (keys : Set String) (f : Fields) : AgreeOn keys f f := fun _ _ => rfl

theorem symm (p : AgreeOn keys f g) : AgreeOn keys g f := fun key among => (p key among).symm

theorem trans (p : AgreeOn keys f g) (q : AgreeOn keys g h) : AgreeOn keys f h :=
  fun key among => (p key among).trans (q key among)

theorem mono (within : keys ⊆ keys') (p : AgreeOn keys' f g) : AgreeOn keys f g :=
  fun key among => p key (within among)

/-- Fields that agree on a set and on the names outside are equal. -/
theorem eq_of_compl (p : AgreeOn keys f g) (q : AgreeOn keysᶜ f g) : f = g := by
  apply Std.ExtTreeMap.ext_getElem?
  intro key
  by_cases among : key ∈ keys
  · exact p key among
  · exact q key among

end AgreeOn

end Fields

open Fields (AgreeOn)

/-! ## Local computations -/

/-- The answer and the fields of a set are told by the fields of the set. Nothing else is
changed in the context, and nothing in the history and the clock. -/
structure Local {α : Type} (keys : Set String) (run : State Fields → α × State Fields) : Prop where
  reads : ∀ s t, AgreeOn keys s.context t.context →
    (run s).1 = (run t).1 ∧ AgreeOn keys (run s).2.context (run t).2.context
  writes : ∀ s, AgreeOn keysᶜ (run s).2.context s.context
  quiet : ∀ s, (run s).2.history = s.history ∧ (run s).2.clock = s.clock

/-- Two computations local to disjoint sets, the second from where the first has left the
context or the other way round. -/
theorem Local.commute {α β : Type} {keys keys' : Set String} {f : State Fields → α × State Fields}
    {g : State Fields → β × State Fields} (p : Local keys f) (q : Local keys' g)
    (apart : Disjoint keys keys') {s s' t t' : State Fields} (start : t'.context = s.context)
    (then_g : t.context = (f s).2.context) (then_f : s'.context = (g t').2.context) :
    (f s').1 = (f s).1 ∧ (g t').1 = (g t).1 ∧ (f s').2.context = (g t).2.context := by
  have off : keys ⊆ keys'ᶜ := Set.disjoint_left.1 apart
  have off' : keys' ⊆ keysᶜ := Set.disjoint_right.1 apart
  have unchanged : AgreeOn keys'ᶜ s'.context s.context := by
    rw [then_f, ← start]
    exact q.writes t'
  have unchanged' : AgreeOn keysᶜ t.context t'.context := by
    rw [then_g, start]
    exact p.writes s
  obtain ⟨answer, context⟩ := p.reads s' s (unchanged.mono off)
  obtain ⟨answer', context'⟩ := q.reads t' t (unchanged'.mono off').symm
  -- the second computation leaves what the first has written
  have on_keys : AgreeOn keys (f s').2.context (g t).2.context := by
    refine context.trans ?_
    rw [← then_g]
    exact ((q.writes t).mono off).symm
  have elsewhere : AgreeOn keysᶜ (f s').2.context (g t).2.context := by
    intro key outside
    have left : (f s').2.context[key]? = (g t').2.context[key]? := then_f ▸ p.writes s' key outside
    rw [left]
    by_cases among : key ∈ keys'
    · exact context' key among
    · calc (g t').2.context[key]? = t'.context[key]? := q.writes t' key among
        _ = t.context[key]? := (unchanged' key outside).symm
        _ = (g t).2.context[key]? := (q.writes t key among).symm
  exact ⟨answer, answer', on_keys.eq_of_compl elsewhere⟩

/-! ## Handlers that keep to a set of fields -/

variable {σ ε ι : Type}

/-- The script does nothing but look at the context and write it. -/
def Script.Alone : Script σ ε ι → Prop
  | .done _ => True
  | .look next => ∀ context, (next context).Alone
  | .write _ next => next.Alone
  | .run _ _ => False
  | .recall _ _ => False
  | .forget _ _ => False
  | .clear _ => False

/-- The script asks nothing of the runner. How it ends and what it writes is told by the
fields of a set, and it changes no others. -/
structure Script.KeepsTo (keys : Set String) (script : Script Fields ε ι) : Prop where
  alone : script.Alone
  reads : ∀ nested s t, AgreeOn keys s.context t.context →
    (script.play nested s).1 = (script.play nested t).1 ∧
      AgreeOn keys (script.play nested s).2.context (script.play nested t).2.context
  writes : ∀ nested s, AgreeOn keysᶜ (script.play nested s).2.context s.context

theorem Script.Alone.quiet {script : Script σ ε ι} (h : script.Alone) (nested : NestedRun σ ε ι) (s : State σ) :
    (script.play nested s).2.history = s.history ∧ (script.play nested s).2.clock = s.clock := by
  induction script generalizing s with
  | done ending => exact ⟨rfl, rfl⟩
  | look next ih => exact ih _ (h _) s
  | write context next ih => exact ih h { s with context }
  | run rule next => exact absurd h id
  | «recall» rule next => exact absurd h id
  | forget rule next => exact absurd h id
  | clear next => exact absurd h id

theorem Script.KeepsTo.local {keys : Set String} {script : Script Fields ε ι} (h : script.KeepsTo keys)
    (nested : NestedRun Fields ε ι) : Local keys (script.play nested) :=
  ⟨h.reads nested, h.writes nested, h.alone.quiet nested⟩

namespace Runner

/-- The handlers of all actions of a rule keep to a set of fields. -/
def KeepsTo (e : Runner Fields ε ι) (rule : Rule ε) (keys : Set String) : Prop :=
  ∀ action ∈ rule.actions, (e.invocation rule action).KeepsTo keys

variable {e : Runner Fields ε ι} {nested : NestedRun Fields ε ι} {rule : Rule ε} {keys : Set String}

theorem local_consider {action : Action} (keeps : (e.invocation rule action).KeepsTo keys) (hits : Nat) :
    Local keys (e.consider nested rule hits action) := by
  by_cases waits : hits < action.threshold
  · have waiting : e.consider nested rule hits action =
        fun s => (.skipped, s.tell (.waiting action.name rule.name hits action.threshold)) := by
      funext s
      rw [consider, if_pos waits]
    rw [waiting]
    exact ⟨fun s t same => ⟨rfl, same⟩, fun s => .refl _ _, fun s => ⟨rfl, rfl⟩⟩
  · have played := keeps.local nested
    refine ⟨?_, ?_, ?_⟩
    · intro s t same
      obtain ⟨event, done⟩ := consider_due e nested rule hits action s waits
      obtain ⟨event', done'⟩ := consider_due e nested rule hits action t waits
      obtain ⟨ending, context⟩ := played.reads s t same
      rw [done, done', ending]
      exact ⟨rfl, context⟩
    · intro s
      obtain ⟨event, done⟩ := consider_due e nested rule hits action s waits
      rw [done]
      exact played.writes s
    · intro s
      obtain ⟨event, done⟩ := consider_due e nested rule hits action s waits
      rw [done]
      exact played.quiet s

theorem local_considerAll {actions : List Action}
    (keeps : ∀ action ∈ actions, (e.invocation rule action).KeepsTo keys) (hits : Nat) :
    Local keys (e.considerAll nested rule hits actions) := by
  induction actions with
  | nil => exact ⟨fun s t same => ⟨rfl, same⟩, fun s => .refl _ _, fun s => ⟨rfl, rfl⟩⟩
  | cons action rest ih =>
    obtain ⟨first, others⟩ := List.forall_mem_cons.1 keeps
    have head : Local keys (e.consider nested rule hits action) := local_consider first hits
    have tail := ih others
    refine ⟨?_, ?_, ?_⟩
    · intro s t same
      obtain ⟨status, context⟩ := head.reads s t same
      obtain ⟨reports, context'⟩ := tail.reads _ _ context
      simp only [considerAll, status, reports, true_and]
      exact context'
    · intro s
      exact (tail.writes _).trans (head.writes s)
    · intro s
      obtain ⟨history, clock⟩ := head.quiet s
      obtain ⟨history', clock'⟩ := tail.quiet (e.consider nested rule hits action s).2
      exact ⟨history'.trans history, clock'.trans clock⟩

/-! ## Runs whose handlers keep to a set of fields -/

theorem local_actionsFor (keeps : e.KeepsTo rule keys) (nested : NestedRun Fields ε ι) (hits : Nat)
    (outcome : Bool) : Local keys (e.considerAll nested rule hits (rule.actionsFor outcome)) :=
  local_considerAll (fun action among => keeps action (Rule.mem_actions_iff.2 ⟨outcome, among⟩)) hits

/-- If the condition can be evaluated, such a run records, and then it goes through its
actions in the context that it began in. -/
theorem run_of_ok (keeps : e.KeepsTo rule keys) (depth : Nat) {s : State Fields} {outcome : Bool}
    (gives : e.evaluate s.context rule.condition = .ok outcome) {made : History.Recording}
    (records : s.history.record rule.id rule.bound outcome s.clock.now = made) {hits : Nat}
    (long : made.streak.size = hits) :
    let act := e.considerAll (e.nested depth) rule hits (rule.actionsFor outcome)
    ∃ t : State Fields, t.context = s.context ∧
      e.run depth rule s = (.ok ⟨rule.name, made.streak, (act t).1⟩, (act t).2) ∧
      (act t).2.history = made.history ∧ (act t).2.clock = s.clock.tick := by
  subst records long
  intro act
  let recorded := s.record rule.id rule.bound outcome
  let t := recorded.2.tell (.evaluated rule.name outcome recorded.1.size)
  obtain ⟨history, clock⟩ := (local_actionsFor keeps (e.nested depth) recorded.1.size outcome).quiet t
  refine ⟨t, rfl, ?_, history, clock⟩
  rw [run_eq, runWith, gives]
  rfl

/-- Such a run changes no other fields. -/
theorem run_writes (keeps : e.KeepsTo rule keys) (depth : Nat) (s : State Fields) :
    AgreeOn keysᶜ (e.run depth rule s).2.context s.context := by
  cases evaluated : e.evaluate s.context rule.condition with
  | error error =>
    rw [run_error_iff.2 ⟨evaluated, rfl⟩]
    exact .refl _ _
  | ok outcome =>
    obtain ⟨t, context, ran, -, -⟩ := run_of_ok keeps depth evaluated rfl rfl
    rw [ran, ← context]
    exact (local_actionsFor keeps _ _ outcome).writes t

theorem sequence_run_le (keeps : e.KeepsTo rule keys) (depth : Nat) (s : State Fields) :
    (e.run depth rule s).2.history.sequence ≤ s.history.sequence + 1 := by
  cases evaluated : e.evaluate s.context rule.condition with
  | error error =>
    rw [run_error_iff.2 ⟨evaluated, rfl⟩]
    exact Nat.le_succ _
  | ok outcome =>
    obtain ⟨t, -, ran, history, -⟩ := run_of_ok keeps depth evaluated rfl rfl
    rw [ran, history]
    exact Nat.le_refl _

end Runner

/-! ## Two runs in either order -/

/-- The report with other numbers at the records of its streak. -/
def Report.renumber (f : Nat → Nat) (r : Report) : Report := { r with streak := r.streak.renumber f }

theorem Report.map_renumber_id (answer : Except ι Report) : answer.map (Report.renumber id) = answer := by
  cases answer with
  | error error => rfl
  | ok report => simp [Except.map, Report.renumber]

namespace Runner

/-- Running two rules in either order leaves one context, one clock and the same records,
and each rule gives the same error or the same report, but that records are numbered by `f`. -/
structure CommuteUpTo (f : Nat → Nat) (e : Runner σ ε ι) (depth : Nat) (a b : Rule ε) (s : State σ) : Prop where
  context : (e.run depth a (e.run depth b s).2).2.context = (e.run depth b (e.run depth a s).2).2.context
  clock : (e.run depth a (e.run depth b s).2).2.clock = (e.run depth b (e.run depth a s).2).2.clock
  history : (e.run depth a (e.run depth b s).2).2.history =
    (e.run depth b (e.run depth a s).2).2.history.renumber f
  /-- What the first rule gives, run after the other or before it. -/
  first : (e.run depth a (e.run depth b s).2).1 = (e.run depth a s).1.map (Report.renumber f)
  /-- What the second rule gives, run before the other or after it. -/
  second : (e.run depth b s).1 = (e.run depth b (e.run depth a s).2).1.map (Report.renumber f)

theorem CommuteUpTo.sequence_eq {f : Nat → Nat} {e : Runner σ ε ι} {depth : Nat} {a b : Rule ε} {s : State σ}
    (h : CommuteUpTo f e depth a b s) :
    (e.run depth a (e.run depth b s).2).2.history.sequence =
      (e.run depth b (e.run depth a s).2).2.history.sequence := by
  rw [h.history]
  rfl

theorem CommuteUpTo.symm {e : Runner σ ε ι} {depth : Nat} {a b : Rule ε} {s : State σ}
    (h : CommuteUpTo id e depth a b s) : CommuteUpTo id e depth b a s := by
  obtain ⟨context, clock, history, first, second⟩ := h
  simp only [History.renumber_id, Report.map_renumber_id] at history first second
  refine ⟨context.symm, clock.symm, ?_, ?_, ?_⟩
  · rw [History.renumber_id, history]
  · rw [Report.map_renumber_id, second]
  · rw [Report.map_renumber_id, first]

/-- The handlers of two rules keep to disjoint sets of fields, and neither condition looks
at what the handlers of the other rule keep to. -/
structure Independent (e : Runner Fields ε ι) (a b : Rule ε) (keys keys' : Set String) : Prop where
  differ : a.id ≠ b.id
  keeps : e.KeepsTo a keys
  keeps' : e.KeepsTo b keys'
  apart : Disjoint keys keys'
  unread : ∀ f g, AgreeOn keys'ᶜ f g → e.evaluate f a.condition = e.evaluate g a.condition
  unread' : ∀ f g, AgreeOn keysᶜ f g → e.evaluate f b.condition = e.evaluate g b.condition

section
variable {e : Runner Fields ε ι} {a b : Rule ε} {keys keys' : Set String} {s : State Fields}

theorem Independent.symm (h : e.Independent a b keys keys') : e.Independent b a keys' keys :=
  ⟨h.differ.symm, h.keeps', h.keeps, h.apart.symm, h.unread', h.unread⟩

/-- The condition gives the same before and after the other rule has been run. -/
theorem Independent.evaluate_run (h : e.Independent a b keys keys') (depth : Nat) (s : State Fields) :
    e.evaluate (e.run depth b s).2.context a.condition = e.evaluate s.context a.condition :=
  h.unread _ _ (run_writes h.keeps' depth s)

/-- A rule that cannot be evaluated can be run before or after the other. -/
theorem Independent.commute_of_error (h : e.Independent a b keys keys') (depth : Nat) {error : ι}
    (refused : e.evaluate s.context a.condition = .error error) :
    CommuteUpTo id e depth a b s ∧
      (e.run depth b (e.run depth a s).2).2.history.sequence ≤ s.history.sequence + 1 := by
  have ran : e.run depth a s = (.error error, s) := run_error_iff.2 ⟨refused, rfl⟩
  have ran' : e.run depth a (e.run depth b s).2 = (.error error, (e.run depth b s).2) :=
    run_error_iff.2 ⟨(h.evaluate_run depth s).trans refused, rfl⟩
  rw [ran]
  refine ⟨⟨?_, ?_, ?_, ?_, ?_⟩, sequence_run_le h.keeps' depth s⟩
  · rw [ran, ran']
  · rw [ran, ran']
  · rw [ran, ran', History.renumber_id]
  · rw [ran, ran']
    rfl
  · rw [ran, Report.map_renumber_id]

/-- Two rules that can be evaluated record one after the other. -/
theorem Independent.commute_of_ok (h : e.Independent a b keys keys') (depth : Nat)
    (known : ∀ id, ∃ l, s.history.KeepsEnd id l) (still : s.clock.tick.now = s.clock.now)
    {outcome outcome' : Bool} (gives : e.evaluate s.context a.condition = .ok outcome)
    (gives' : e.evaluate s.context b.condition = .ok outcome') :
    CommuteUpTo (Equiv.swap (s.history.sequence + 1) (s.history.sequence + 2)) e depth a b s ∧
      (e.run depth b (e.run depth a s).2).2.history.sequence = s.history.sequence + 2 := by
  have later : e.evaluate (e.run depth a s).2.context b.condition = .ok outcome' :=
    (h.symm.evaluate_run depth s).trans gives'
  have later' : e.evaluate (e.run depth b s).2.context a.condition = .ok outcome :=
    (h.evaluate_run depth s).trans gives
  obtain ⟨histories, streak, streak'⟩ :=
    History.record_comm known h.differ a.bound b.bound outcome outcome' s.clock.now
  -- each rule finds in the second place as many outcomes in a row as in the first
  have size := (congrArg Streak.size streak).trans (Streak.size_renumber _ _)
  have size' := ((congrArg Streak.size streak').trans (Streak.size_renumber _ _)).symm
  obtain ⟨t, context, ran, history, clock⟩ := run_of_ok h.keeps depth gives rfl rfl
  obtain ⟨t', context', ran', history', clock'⟩ := run_of_ok h.keeps' depth gives' rfl rfl
  obtain ⟨u, between, next, final, ticked⟩ :=
    run_of_ok h.keeps' depth later (by rw [ran, history, clock, still]) size'
  obtain ⟨u', between', next', final', ticked'⟩ :=
    run_of_ok h.keeps depth later' (by rw [ran', history', clock', still]) size
  rw [ran] at between ticked
  rw [ran'] at between' ticked'
  obtain ⟨reports, reports', same⟩ :=
    (local_actionsFor h.keeps (e.nested depth) _ outcome).commute (local_actionsFor h.keeps' (e.nested depth) _ outcome')
      h.apart (context'.trans context.symm) between between'
  refine ⟨⟨?_, ?_, ?_, ?_, ?_⟩, ?_⟩
  · rw [next, next', same]
  · rw [next, next', ticked, ticked', clock, clock']
  · rw [next, next', final, final', histories]
  · rw [next', ran, reports, streak]
    rfl
  · rw [ran', next, reports', streak']
    rfl
  · rw [next, final]
    rfl

/-- Two independent rules can be run in either order. -/
theorem Independent.commute (h : e.Independent a b keys keys') (depth : Nat)
    (known : ∀ id, ∃ l, s.history.KeepsEnd id l) (still : s.clock.tick.now = s.clock.now) :
    let count := (e.run depth b (e.run depth a s).2).2.history.sequence
    CommuteUpTo (History.exchange s.history.sequence count) e depth a b s := by
  intro count
  -- where fewer than two numbers are issued, nothing is exchanged
  have issued : count ≤ s.history.sequence + 1 → CommuteUpTo id e depth a b s →
      CommuteUpTo (History.exchange s.history.sequence count) e depth a b s := by
    intro few commute
    rwa [History.exchange, if_neg (by omega)]
  cases gives : e.evaluate s.context a.condition with
  | error error =>
    obtain ⟨commute, few⟩ := h.commute_of_error depth gives
    exact issued few commute
  | ok outcome =>
    cases gives' : e.evaluate s.context b.condition with
    | error error =>
      obtain ⟨commute, few⟩ := h.symm.commute_of_error depth gives'
      exact issued (commute.sequence_eq.trans_le few) commute.symm
    | ok outcome' =>
      obtain ⟨commute, two⟩ := h.commute_of_ok depth known still gives gives'
      rwa [History.exchange, if_pos two]

end

/-- Every history that is seen keeps the end of each log. -/
theorem keepsEnd_of_seen {e : Runner σ ε ι} {depth : Nat} {errands : List (Errand σ ε)} {context : σ}
    {clock : Clock} {m : Moment σ ε} (seen : m ∈ e.serveAllMoments depth errands (.start context clock))
    (id : RuleId) : ∃ l, m.state.history.KeepsEnd id l := by
  have asked : ∀ errand ∈ errands, errand.RunsOnly Set.univ := fun errand _ => errand.runsOnly_univ
  have passage := passage_serveAll e.runsOnly_univ depth asked (.start context clock)
  exact (passage.reached History.reached_empty m seen).keepsEnd id

/-! ## Rules with conditions over fields -/

/-- Evaluates conditions over fields. -/
def ofConditions (mode : Mode) (lookup : Lookup Fields Condition Miss) : Runner Fields Condition Miss :=
  ⟨fun fields c => c.evaluate mode fields, lookup⟩

/-- **Independent rules commute.** Take two rules of different identities, the handlers of
each of which ask nothing of the runner and keep to a set of fields; let the sets be
disjoint, and let neither condition name a field of the other rule's set. At whatever moment
of whatever a runner has been asked to do, in whatever context and by a clock that stands
still, running the one and then the other leaves the same context as running them the other
way round, and for each rule it gives the same error, or the same report with the same
statuses. The records of all rules and the streaks of both reports are the same as well, up
to an exchange of the two numbers that have been issued. -/
theorem run_comm {mode : Mode} {lookup : Lookup Fields Condition Miss} {a b : Rule Condition}
    (differ : a.id ≠ b.id) {keys keys' : Set String} (keeps : (ofConditions mode lookup).KeepsTo a keys)
    (keeps' : (ofConditions mode lookup).KeepsTo b keys') (apart : Disjoint keys keys')
    (unread : ∀ field ∈ a.condition.fields, field ∉ keys') (unread' : ∀ field ∈ b.condition.fields, field ∉ keys)
    {depth : Nat} {errands : List (Errand Fields Condition)} {context₀ : Fields} {clock : Clock}
    {m : Moment Fields Condition}
    (seen : m ∈ (ofConditions mode lookup).serveAllMoments depth errands (.start context₀ clock))
    (still : m.state.clock.tick.now = m.state.clock.now) (context : Fields) (d : Nat) :
    let e := ofConditions mode lookup
    let s := { m.state with context }
    let count := (e.run d b (e.run d a s).2).2.history.sequence
    CommuteUpTo (History.exchange s.history.sequence count) e d a b s := by
  intro e s
  have independent : e.Independent a b keys keys' :=
    { differ, keeps, keeps', apart
      unread := fun _ _ same => a.condition.evaluate_congr mode (same.mono unread)
      unread' := fun _ _ same => b.condition.evaluate_congr mode (same.mono unread') }
  exact independent.commute d (keepsEnd_of_seen seen) still

/-- Each action sets the field of its own name, and all but one then fail. -/
def switches : Lookup Fields Condition Miss := fun action =>
  .ok fun _ _ => .look fun fields => .write (fields.insert action.name (.bool true))
    (.done (if action.name = "lamp" then .ok () else .error (.error "stuck")))

theorem keepsTo_switches (mode : Mode) (rule : Rule Condition) (action : Action) :
    ((ofConditions mode switches).invocation rule action).KeepsTo {action.name} := by
  refine ⟨fun _ => trivial, ?_, ?_⟩
  · intro nested s t same
    refine ⟨rfl, fun key among => ?_⟩
    rw [Set.mem_singleton_iff.1 among]
    exact Std.ExtTreeMap.getElem?_insert_self.trans Std.ExtTreeMap.getElem?_insert_self.symm
  · intro nested s key outside
    have other : action.name ≠ key := fun same => outside same.symm
    refine Std.ExtTreeMap.getElem?_insert.trans (if_neg ?_)
    rwa [Std.LawfulEqCmp.compare_eq_iff_eq]

def overload : Rule Condition :=
  ⟨.ofNat 1, "overload", .compare "load" .greater (.int 5), [⟨"siren", 2, ∅⟩], [], ⟨2, Nat.two_pos⟩⟩

def dusk : Rule Condition := ⟨.ofNat 2, "dusk", .not (.truthy "sun"), [⟨"lamp", 1, ∅⟩], [], ⟨2, Nat.two_pos⟩⟩

def loaded : State Fields :=
  .start (.ofList [("load", Value.int 9), ("sun", Value.bool false)]) (.stopped ⟨0, 0⟩)

/-- One of the rules has been run before, and has given the same. Its action now sets a field
and then fails, and the numbers 2 and 3 are exchanged. -/
theorem run_comm_switches :
    let e := ofConditions .strict switches
    let s := e.serve 0 loaded (.run overload)
    let second := e.run 0 dusk (e.run 0 overload s).2
    let second' := e.run 0 overload (e.run 0 dusk s).2
    CommuteUpTo (Equiv.swap 2 3) e 0 overload dusk s ∧
      (second.2.history.of overload.id).map Record.sequence = [1, 2] ∧
      (second'.2.history.of overload.id).map Record.sequence = [1, 3] ∧
      second.2.context["siren"]? = some (.bool true) ∧ second'.2.context = second.2.context := by
  intro e s second second'
  have single : ∀ (rule : Rule Condition) (action : Action), rule.actions = [action] →
      e.KeepsTo rule {action.name} := by
    intro rule action only action' among
    rw [only, List.mem_singleton] at among
    exact among ▸ keepsTo_switches .strict rule action'
  have seen : ⟨.idle, s⟩ ∈ e.serveAllMoments 0 [.run overload] loaded :=
    List.mem_cons_of_mem _ (List.mem_append_right _ List.mem_cons_self)
  have still : s.clock.tick.now = s.clock.now := by
    subst s
    cbv
  have commute := run_comm (by decide) (single overload _ rfl) (single dusk _ rfl) (by simp)
    (by decide) (by decide) seen still s.context 0
  have numbers : s.history.sequence = 1 ∧ second.2.history.sequence = 3 := by
    subst second s
    cbv
  have exchanged : CommuteUpTo (Equiv.swap 2 3) e 0 overload dusk s := by
    have exchange : History.exchange s.history.sequence second.2.history.sequence = Equiv.swap 2 3 := by
      rw [numbers.1, numbers.2]
      rfl
    rwa [← exchange]
  have records : second.2.history.of overload.id =
      [⟨overload.id, true, ⟨0, 0⟩, 1⟩, ⟨overload.id, true, ⟨0, 0⟩, 2⟩] := by
    subst second s
    cbv
  have records' : second'.2.history.of overload.id =
      [⟨overload.id, true, ⟨0, 0⟩, 1⟩, ⟨overload.id, true, ⟨0, 0⟩, 3⟩] := by
    rw [exchanged.history, History.of_renumber, records]
    decide
  have siren : second.2.context["siren"]? = some (.bool true) := by
    subst second s
    cbv
  exact ⟨exchanged, by rw [records]; rfl, by rw [records']; rfl, siren, exchanged.context⟩

end Runner

end RuleWatch
