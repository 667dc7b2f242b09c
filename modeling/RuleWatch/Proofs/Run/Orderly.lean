import Mathlib
import RuleWatch.Proofs.Run.Moments
/-!
  What holds of the history at every moment, also inside handlers that run rules
  or forget records while a run goes through its actions. `History.Orderly` says
  how the retained records stand to each other and to the bounds; it follows for
  every history that rules make (`History.orderly_of_reached`), and every moment has
  such a history.

  The streak of a run is cut out when the run records. It ends with the record of
  that run, and all records that are made afterwards count higher, whatever
  handlers forget in the meantime (`Runner.orderly_throughout`).
-/

namespace RuleWatch

variable {σ ε ι : Type}

namespace History

/-- A history that rules of a collection have made. -/
def Reached (built : Set (Rule ε)) (h : History) : Prop :=
  ∃ changes, (∀ c ∈ changes, c.Lawful built) ∧ h = after changes

/-- How the retained records stand to each other, to the bounds of the rules and to
the count of all recordings. -/
structure Orderly (built : Set (Rule ε)) (h : History) : Prop where
  bounded : ∀ rule ∈ built, (h.of rule.id).length ≤ rule.bound.size
  owned : ∀ rule, ∀ r ∈ h.of rule, r.rule = rule
  /-- By time and then by sequence. -/
  ascending : ∀ rule, (h.of rule).Pairwise Record.Before
  counting : ∀ rule, (h.of rule).Pairwise (·.sequence < ·.sequence)
  forwards : ∀ rule, (h.of rule).Pairwise (·.time ≤ ·.time)
  counted : ∀ rule, ∀ r ∈ h.of rule, r.sequence ≤ h.sequence
  /-- No sequence is given twice, be it to one rule or to two. -/
  distinct : ∀ rule other, ∀ r ∈ h.of rule, ∀ q ∈ h.of other, r.sequence = q.sequence → r = q
  comparable : ∀ rule other, ∀ r ∈ h.of rule, ∀ q ∈ h.of other, compare r q = .eq ↔ r = q
  /-- Sorting the records of a rule meets no two that compare equal. -/
  untied : ∀ rule, (h.of rule).Pairwise fun r q => compare r q ≠ .eq ∧ compare q r ≠ .eq

/-! ## Histories that are made by rules -/

section
variable {built : Set (Rule ε)}

theorem reached_empty : (empty : History).Reached built := ⟨[], by simp, rfl⟩

theorem Reached.apply {h : History} (p : h.Reached built) {c : Change} (lawful : c.Lawful built) :
    (h.apply c).Reached built := by
  obtain ⟨changes, all, rfl⟩ := p
  refine ⟨changes ++ [c], ?_, (after_snoc changes c).symm⟩
  intro d hd
  rcases List.mem_append.1 hd with hd | hd
  · exact all d hd
  · rw [List.mem_singleton.1 hd]
    exact lawful

theorem Reached.record {h : History} (p : h.Reached built) {rule : Rule ε} (member : rule ∈ built)
    (outcome : Bool) (now : Instant) : (h.record rule.id rule.bound outcome now).history.Reached built :=
  p.apply (c := .record rule.id rule.bound outcome now) ⟨rule, member, rfl, rfl⟩

theorem Reached.keepsEnd {h : History} (p : h.Reached built) (rule : RuleId) :
    ∃ l, h.KeepsEnd rule l := by
  obtain ⟨changes, -, rfl⟩ := p
  exact ⟨_, keepsEnd_after rule changes⟩

theorem Reached.distinct {h : History} (p : h.Reached built) {rule other : RuleId} {r q : Record}
    (hr : r ∈ h.of rule) (hq : q ∈ h.of other) (same : r.sequence = q.sequence) : r = q := by
  obtain ⟨changes, -, rfl⟩ := p
  have k := keepsEnd_after rule changes
  by_cases one : rule = other
  · -- within one rule the sequences ascend
    subst one
    have apart : Std.Symm fun r q : Record => r.sequence ≠ q.sequence := ⟨fun _ _ h => h.symm⟩
    have ascending : ((after changes).of rule).Pairwise fun r q => r.sequence ≠ q.sequence :=
      k.order.imp fun earlier => Nat.ne_of_lt earlier.2
    by_contra differ
    exact ascending.forall hr hq differ same
  · obtain ⟨e, he, -, number⟩ := k.entry_of hr
    obtain ⟨e', he', -, number'⟩ := (keepsEnd_after other changes).entry_of hq
    exact absurd (number.symm.trans (same.trans number')) (Log.number_ne one changes e he e' he')

theorem Reached.bounded (unique : Set.InjOn Rule.id built) {h : History} (p : h.Reached built)
    {rule : Rule ε} (member : rule ∈ built) : (h.of rule.id).length ≤ rule.bound.size := by
  obtain ⟨changes, lawful, rfl⟩ := p
  rw [(keepsEnd_after rule.id changes).length_of,
    Log.kept_of_bound (Log.bound_of_entry unique lawful member)]
  exact Nat.min_le_left _ _

/-- Records that compare equal have one sequence. -/
theorem Reached.comparable {h : History} (p : h.Reached built) {rule other : RuleId} {r q : Record}
    (hr : r ∈ h.of rule) (hq : q ∈ h.of other) : compare r q = .eq ↔ r = q := by
  have parts : compare r q = .eq ↔ r.time = q.time ∧ r.sequence = q.sequence := by
    show (compare r.time q.time).then (compare r.sequence q.sequence) = .eq ↔ _
    rw [Ordering.then_eq_eq, Instant.compare_eq_eq, Nat.compare_eq_eq]
  rw [parts]
  refine ⟨fun same => p.distinct hr hq same.2, ?_⟩
  intro same
  subst same
  exact ⟨rfl, rfl⟩

theorem orderly_of_reached (unique : Set.InjOn Rule.id built) {h : History} (p : h.Reached built) :
    h.Orderly built where
  bounded rule member := p.bounded unique member
  owned rule r hr := by
    obtain ⟨l, k⟩ := p.keepsEnd rule
    obtain ⟨-, -, owner, -⟩ := k.entry_of hr
    exact owner
  ascending rule := by
    obtain ⟨l, k⟩ := p.keepsEnd rule
    exact k.order.imp fun earlier => Record.before_of_le earlier.1 earlier.2
  counting rule := by
    obtain ⟨l, k⟩ := p.keepsEnd rule
    exact k.order.imp And.right
  forwards rule := by
    obtain ⟨l, k⟩ := p.keepsEnd rule
    exact k.order.imp And.left
  counted rule r hr := by
    obtain ⟨l, k⟩ := p.keepsEnd rule
    exact k.sequence_le hr
  distinct _ _ _ hr _ hq := p.distinct hr hq
  comparable _ _ _ hr _ hq := p.comparable hr hq
  untied rule := by
    obtain ⟨l, k⟩ := p.keepsEnd rule
    refine List.Pairwise.imp_of_mem ?_ k.order
    intro r q hr hq earlier
    rw [Ne, Ne, p.comparable hr hq, p.comparable hq hr]
    have differ : r ≠ q := fun same => Nat.lt_irrefl _ (same ▸ earlier.2)
    exact ⟨differ, differ.symm⟩

end

/-! ## The streak ends with the new record -/

theorem KeepsEnd.of_recorded {h : History} {rule : RuleId} {l : Log} (k : h.KeepsEnd rule l)
    (bound : Bound) (result : Bool) (now : Instant) :
    ∃ front, (h.record rule bound result now).history.of rule =
      front ++ [(h.record rule bound result now).record] := by
  have room := bound.size_pos
  rw [of_record, if_pos rfl, k.insert_record]
  refine ⟨(h.of rule).drop ((h.of rule).length + 1 - bound.size), ?_⟩
  show List.drop (List.length (_ ++ [_]) - bound.size) (_ ++ [_]) = _
  rw [List.length_append, List.length_singleton, List.drop_append_of_le_length (by omega)]

theorem KeepsEnd.streak_latest {h : History} {rule : RuleId} {l : Log} (k : h.KeepsEnd rule l)
    (bound : Bound) (result : Bool) (now : Instant) :
    (h.record rule bound result now).streak.latest? = some (h.record rule bound result now).record := by
  obtain ⟨front, ends⟩ := k.of_recorded bound result now
  have same : ((h.record rule bound result now).record.result == result) = true := beq_self_eq_true result
  rw [Streak.latest?, streak_record k, ends,
    List.rtakeWhile_concat_pos (fun r : Record => r.result == result) _ _ same, List.getLast?_concat]

end History

/-! ## What holds along a passage -/

namespace Passage

open History

variable {built : Set (Rule ε)} {h h' : History} {ms : List (Moment σ ε)}

theorem reached (p : Passage built h ms h') (start : h.Reached built) :
    ∀ m ∈ ms, m.state.history.Reached built := by
  induction p with
  | nil => simp
  | seen plain _ ih => exact List.forall_mem_cons.2 ⟨start, ih start⟩
  | recorded member same _ ih =>
    have next := same ▸ start.record member _ _
    exact List.forall_mem_cons.2 ⟨next, ih next⟩
  | forgot rule _ ih => exact ih (start.apply (c := .forget rule) trivial)
  | cleared _ ih => exact ih (start.apply (c := .clear) trivial)

/-- What recordings make counts higher than all that has been recorded before. -/
theorem counts (p : Passage built h ms h') : ∀ m ∈ ms, ∀ rule record streak fates,
    m.occasion = .recorded rule record streak fates → h.sequence < record.sequence := by
  induction p with
  | nil => simp
  | seen plain _ ih =>
    refine List.forall_mem_cons.2 ⟨?_, ih⟩
    intro rule record streak fates same
    exact absurd same (plain rule record streak fates)
  | @recorded h h' s ms rule outcome now fates member same _ ih =>
    have next : s.history.sequence = h.sequence + 1 := congrArg History.sequence same
    refine List.forall_mem_cons.2 ⟨?_, ?_⟩
    · intro _ record _ _ same
      cases same
      exact Nat.lt_succ_self _
    · intro m hm rule record streak fates same
      have := ih m hm rule record streak fates same
      omega
  | forgot rule _ ih => exact ih
  | cleared _ ih => exact ih

/-- At a recording within a passage: the history that it is made in, what it makes,
and the passage behind it. -/
theorem recorded_of_split {before after : List (Moment σ ε)} {rule : Rule ε} {record : Record}
    {streak : Streak} {fates : List Fate} {s : State σ}
    (p : Passage built h (before ++ ⟨.recorded rule record streak fates, s⟩ :: after) h')
    (start : h.Reached built) :
    ∃ (h₀ : History) (outcome : Bool) (now : Instant), h₀.Reached built ∧
      record = (h₀.record rule.id rule.bound outcome now).record ∧
      streak = (h₀.record rule.id rule.bound outcome now).streak ∧
      s.history = (h₀.record rule.id rule.bound outcome now).history ∧ Passage built s.history after h' := by
  generalize whole : before ++ ⟨.recorded rule record streak fates, s⟩ :: after = ms at p
  induction p generalizing before with
  | nil => simp at whole
  | seen plain rest ih =>
    cases before with
    | nil =>
      cases whole
      exact absurd rfl (plain rule record streak fates)
    | cons b before => exact ih start (List.cons.inj whole).2
  | recorded member same rest ih =>
    cases before with
    | nil =>
      cases whole
      exact ⟨_, _, _, start, rfl, rfl, same, rest⟩
    | cons b before => exact ih (same ▸ start.record member _ _) (List.cons.inj whole).2
  | forgot rule _ ih => exact ih (start.apply (c := .forget rule) trivial) whole
  | cleared _ ih => exact ih (start.apply (c := .clear) trivial) whole

end Passage

namespace Runner

variable {built : Set (Rule ε)}

/-- **Order at every moment.** Whatever a runner is asked to do from the start, by
whatever clock, and whatever its handlers run and forget meanwhile, the history is
orderly at every moment, inside handlers as well. A report, to the caller or to a
handler, is told by what its run recorded: the outcome that the condition gave, the
streak, and the fates of the actions. At each recording, outer or nested:

* the streak is not empty, all its records have the outcome that the condition gave,
  and its latest is the record that this very run has made;
* that record counts lower than those of all runs that come later, among them those
  that its own handlers set off. -/
theorem orderly_throughout (e : Runner σ ε ι) (unique : Set.InjOn Rule.id built)
    (known : e.RunsOnly built) (depth : Nat) (errands : List (Errand σ ε))
    (asked : ∀ errand ∈ errands, errand.RunsOnly built) (context : σ) (clock : Clock) :
    let moments := e.serveAllMoments depth errands (.start context clock)
    (∀ m ∈ moments, m.state.history.Orderly built) ∧
    (∀ d rule s report s', e.run d rule s = (.ok report, s') → ∃ fates s'' rest,
      let made := s.history.record rule.id rule.bound report.outcome s.clock.now
      e.evaluate s.context rule.condition = .ok report.outcome ∧
        report = .told rule report.streak fates ∧
        e.moments d rule s =
          ⟨.began rule, s⟩ :: ⟨.recorded rule made.record report.streak fates, s''⟩ :: rest) ∧
    (∀ reports, .ok reports ∈ e.replies depth errands (.start context clock) →
      ∀ report ∈ reports, report.ToldIn moments) ∧
    ∀ before rule record streak fates s after,
      moments = before ++ ⟨.recorded rule record streak fates, s⟩ :: after →
      streak.isEmpty = false ∧ (∀ r ∈ streak.records, r.result = record.result) ∧
      streak.latest? = some record ∧ record.rule = rule.id ∧ record ∈ s.history.of rule.id ∧
      ∀ m ∈ after, ∀ rule' record' streak' fates',
        m.occasion = .recorded rule' record' streak' fates' → record.sequence < record'.sequence := by
  intro moments
  have passage : Passage built .empty moments (e.serveAll depth errands (.start context clock)).history :=
    passage_serveAll known depth asked (.start context clock)
  refine ⟨?_, ?_, e.replies_told depth errands _, ?_⟩
  · intro m hm
    exact History.orderly_of_reached unique (passage.reached History.reached_empty m hm)
  · intro d rule s report s' ran
    have told := e.run_moments d rule s
    rw [ran] at told
    obtain ⟨streak, fates, s'', rest, evaluated, rfl, moments⟩ := told
    exact ⟨fates, s'', rest, evaluated, rfl, moments⟩
  · intro before rule record streak fates s after split
    rw [split] at passage
    obtain ⟨h₀, outcome, now, reached, rfl, rfl, history, later⟩ :=
      passage.recorded_of_split History.reached_empty
    obtain ⟨l, k⟩ := reached.keepsEnd rule.id
    have latest := k.streak_latest rule.bound outcome now
    obtain ⟨front, ends⟩ := k.of_recorded rule.bound outcome now
    have counter : s.history.sequence = (h₀.record rule.id rule.bound outcome now).record.sequence :=
      congrArg History.sequence history
    refine ⟨?_, ?_, latest, rfl, ?_, ?_⟩
    · rw [Streak.isEmpty, List.isEmpty_eq_false_iff]
      intro none
      rw [Streak.latest?, none] at latest
      cases latest
    · exact (h₀.record rule.id rule.bound outcome now).streak.same
    · rw [history, ends]
      simp
    · intro m hm rule' record' streak' fates' same
      rw [← counter]
      exact later.counts m hm rule' record' streak' fates' same

/-- A rule that retains two records and does not wait. -/
def eager : Rule Bool := ⟨.ofNat 1, "eager", true, [⟨"again", 1, ∅⟩], [], ⟨2, Nat.two_pos⟩⟩

/-- Carries out every action by forgetting its rule and then running it once more. -/
def forgetful : Runner Unit Bool Unit :=
  ⟨fun _ holds => .ok holds,
    fun _ => .ok fun rule _ => .forget rule.id fun _ => .run rule fun _ => .done (.ok ())⟩

/-- The rule is run once, and its handler forgets it and sets it off again. What the
handlers see is retained and lost twice, and the streak of the first run still ends
with the record of that run, which counts lower than the other. -/
theorem orderly_throughout_forgetful :
    let moments := forgetful.serveAllMoments 1 [.run eager] (.start () (.stopped ⟨0, 0⟩))
    (∀ m ∈ moments, m.state.history.Orderly {eager}) ∧
    ∃ before first streak fates s after,
      moments = before ++ ⟨.recorded eager first streak fates, s⟩ :: after ∧
      after.map (fun m => (m.state.history.of eager.id).map Record.sequence) =
        [[1], [1], [], [], [2], [2], [2], [], [], [], []] ∧
      first.sequence = 1 ∧ streak.latest? = some first ∧
      ∀ m ∈ after, ∀ rule record streak fates,
        m.occasion = .recorded rule record streak fates → 1 < record.sequence := by
  intro moments
  have unique : Set.InjOn Rule.id {eager} := Set.injOn_singleton _ _
  have known : forgetful.RunsOnly {eager} := by
    rintro action handler ⟨⟩ rule member a answer
    exact ⟨member, fun _ => trivial⟩
  have asked : ∀ errand ∈ [.run eager], Errand.RunsOnly (σ := Unit) {eager} errand := by
    simp [Errand.RunsOnly]
  obtain ⟨orderly, -, -, recorded⟩ :=
    orderly_throughout forgetful unique known 1 [.run eager] asked () (.stopped ⟨0, 0⟩)
  have split : ∃ streak fates s after,
      moments = [_, _] ++ ⟨.recorded eager ⟨eager.id, true, ⟨0, 0⟩, 1⟩ streak fates, s⟩ :: after :=
    ⟨_, _, _, _, rfl⟩
  obtain ⟨streak, fates, s, after, split⟩ := split
  obtain ⟨-, -, latest, -, -, later⟩ := recorded _ _ _ _ _ _ _ split
  refine ⟨orderly, _, _, _, _, _, _, split, ?_, rfl, latest, later⟩
  have seen : moments.map (fun m => (m.state.history.of eager.id).map Record.sequence) =
      [[], [], [1], [1], [1], [], [], [2], [2], [2], [], [], [], []] := by
    cbv
  rw [split] at seen
  exact (List.cons.inj (List.cons.inj (List.cons.inj seen).2).2).2

end Runner

end RuleWatch
