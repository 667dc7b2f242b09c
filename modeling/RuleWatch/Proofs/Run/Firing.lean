import Mathlib
import RuleWatch.Proofs.Run.Deeds
/-!
  When actions fire. The streak that a run reports is told by nothing but the
  outcomes recorded for its rule since the rule was last forgotten: by how many
  equal ones end there, up to the bound of the rule. An action is therefore
  carried out if and only if the bound admits its threshold and that many last
  outcomes were all the same (`Runner.firing_law`), whatever the clock did and
  whatever other runs handlers set off meanwhile.
-/

namespace RuleWatch

/-! ## Runs of equal outcomes -/

/-- How many outcomes at the end of a list are the given one. -/
def runLength (outcome : Bool) (outcomes : List Bool) : Nat :=
  (outcomes.rtakeWhile (· == outcome)).length

theorem runLength_le (outcome : Bool) (outcomes : List Bool) :
    runLength outcome outcomes ≤ outcomes.length :=
  (List.rtakeWhile_suffix _ _).length_le

/-- A run is at least `k` long if the last `k` outcomes are all the same. -/
theorem replicate_suffix_iff (k : Nat) (outcome : Bool) (outcomes : List Bool) :
    List.replicate k outcome <:+ outcomes ↔ k ≤ runLength outcome outcomes := by
  have longest := longestEnd_rtakeWhile (· == outcome) outcomes
  obtain ⟨ends, same, top⟩ := longest
  refine ⟨?_, ?_⟩
  · intro h
    have := (top _ h (by simp)).length_le
    rwa [List.length_replicate] at this
  · intro h
    have run : outcomes.rtakeWhile (· == outcome) = List.replicate (runLength outcome outcomes) outcome :=
      List.eq_replicate_iff.2 ⟨rfl, fun x hx => eq_of_beq (same x hx)⟩
    refine List.IsSuffix.trans ?_ ends
    rw [run]
    exact ⟨List.replicate (runLength outcome outcomes - k) outcome, by
      rw [List.replicate_append_replicate]
      congr 1
      omega⟩

theorem runLength_map {α : Type} (f : α → Bool) (outcome : Bool) (l : List α) :
    runLength outcome (l.map f) = (l.rtakeWhile (f · == outcome)).length := by
  rw [runLength, rtakeWhile_map, List.length_map]
  rfl

/-- A run that is cut off by what is kept is as long as what is kept. -/
theorem length_rtakeWhile_rtake {α : Type} (p : α → Bool) (l : List α) (n : Nat) :
    ((l.rtake n).rtakeWhile p).length = min n (l.rtakeWhile p).length := by
  rw [List.rtake_eq_reverse_take_reverse, List.rtakeWhile, List.rtakeWhile, List.reverse_reverse,
    List.length_reverse, List.length_reverse, ← List.take_takeWhile, List.length_take]

/-! ## The outcomes of a rule -/

namespace Deed

variable {ε : Type}

/-- The outcomes of a rule after a deed. -/
def addOutcome (rule : RuleId) (outcomes : List Bool) : Deed ε → List Bool
  | ran other outcome _ _ => if other.id = rule then outcomes ++ [outcome] else outcomes
  | forgot other => if other = rule then [] else outcomes
  | cleared => []

/-- The outcomes recorded for a rule since it was last forgotten, oldest first. -/
def outcomes (rule : RuleId) (deeds : List (Deed ε)) : List Bool :=
  deeds.foldl (addOutcome rule) []

theorem outcomes_snoc (rule : RuleId) (deeds : List (Deed ε)) (d : Deed ε) :
    outcomes rule (deeds ++ [d]) = addOutcome rule (outcomes rule deeds) d := by
  rw [outcomes, List.foldl_append]
  rfl

theorem outcomes_eq (rule : RuleId) (deeds : List (Deed ε)) :
    outcomes rule deeds = (Log.of rule (deeds.map change)).entries.map Entry.result := by
  induction deeds using List.reverseRecOn with
  | nil => rfl
  | append_singleton deeds d ih =>
    rw [outcomes_snoc, List.map_append, List.map_singleton, Log.of_snoc, ih]
    cases d with
    | ran other outcome now report => simp only [addOutcome, change, Log.add]; split <;> simp
    | forgot other => simp only [addOutcome, change, Log.add]; split <;> simp
    | cleared => rfl

theorem lawful_change {built : Set (Rule ε)} {deeds : List (Deed ε)}
    (members : ∀ rule outcome now report, .ran rule outcome now report ∈ deeds → rule ∈ built) :
    ∀ c ∈ deeds.map change, c.Lawful built := by
  intro c hc
  obtain ⟨d, hd, rfl⟩ := List.mem_map.1 hc
  cases d with
  | ran rule outcome now report => exact ⟨rule, members rule outcome now report hd, rfl, rfl⟩
  | forgot rule => trivial
  | cleared => trivial

end Deed

variable {σ ε ι : Type} {built : Set (Rule ε)}

theorem Course.members {h h' : History} {ds : List (Deed ε)} (p : Course built h ds h') :
    ∀ rule outcome now report, .ran rule outcome now report ∈ ds → rule ∈ built := by
  induction p with
  | nil => intro rule outcome now report hd; simp at hd
  | cons honest _ ih =>
    intro rule outcome now report hd
    rcases List.mem_cons.1 hd with rfl | hd
    · exact honest.1
    · exact ih rule outcome now report hd

/-- The streak that a recording ends, told by the outcomes of its rule. -/
theorem Deed.size_streak (unique : Set.InjOn Rule.id built) {deeds : List (Deed ε)}
    (members : ∀ rule outcome now report, .ran rule outcome now report ∈ deeds → rule ∈ built)
    {rule : Rule ε} (member : rule ∈ built) (outcome : Bool) (now : Instant) :
    ((History.after (deeds.map Deed.change)).record rule.id rule.bound outcome now).streak.size =
      min rule.bound.size (runLength outcome (Deed.outcomes rule.id deeds ++ [outcome])) := by
  let c := Change.record rule.id rule.bound outcome now
  have k := History.keepsEnd_after rule.id (deeds.map Deed.change)
  have records : ((History.after (deeds.map Deed.change)).record rule.id rule.bound outcome now).history.of
      rule.id = _ := (k.apply c).records
  have kept : Log.kept ((Log.of rule.id (deeds.map Deed.change)).add rule.id c).entries =
      min rule.bound.size (Deed.outcomes rule.id deeds ++ [outcome]).length := by
    have same : ∀ e ∈ ((Log.of rule.id (deeds.map Deed.change)).add rule.id c).entries,
        e.bound = rule.bound := by
      intro e he
      simp only [c, Log.add, if_true] at he
      rcases List.mem_append.1 he with he | he
      · exact Log.bound_of_entry unique (Deed.lawful_change members) member e he
      · rw [List.mem_singleton.1 he]
    rw [Log.kept_of_bound same, Deed.outcomes_eq]
    simp [c, Log.add]
  have results : (Log.records rule.id
      ((Log.of rule.id (deeds.map Deed.change)).add rule.id c).entries).map Record.result =
      Deed.outcomes rule.id deeds ++ [outcome] := by
    rw [Log.results_records, Deed.outcomes_eq]
    simp [c, Log.add]
  rw [Streak.size, History.streak_record k, records, length_rtakeWhile_rtake, ← runLength_map,
    results, kept]
  have := runLength_le outcome (Deed.outcomes rule.id deeds ++ [outcome])
  omega

/-! ## What runs report -/

namespace Runner

/-- A run whose condition cannot be evaluated does nothing; any other first records
what the condition gives, and the report of that recording is its answer. -/
theorem runWith_answer (e : Runner σ ε ι) (nested : NestedRun σ ε ι)
    (within : Rule ε → State σ → List (Deed ε)) (rule : Rule ε) (s : State σ) :
    match e.runWith nested rule s with
    | (.error error, s') => e.evaluate s.context rule.condition = .error error ∧ s' = s ∧
        e.runWithDeeds nested within rule s = []
    | (.ok report, _) => ∃ outcome rest, e.evaluate s.context rule.condition = .ok outcome ∧
        e.runWithDeeds nested within rule s = .ran rule outcome s.clock.now report :: rest := by
  unfold runWith runWithDeeds
  cases e.evaluate s.context rule.condition with
  | error error => exact ⟨rfl, rfl, rfl⟩
  | ok outcome => exact ⟨outcome, _, rfl, rfl⟩

theorem deeds_eq (e : Runner σ ε ι) (depth : Nat) :
    ∃ within, e.deeds depth = e.runWithDeeds (e.nested depth) within := by
  cases depth with
  | zero => exact ⟨_, rfl⟩
  | succ depth => exact ⟨_, rfl⟩

theorem run_answer (e : Runner σ ε ι) (depth : Nat) (rule : Rule ε) (s : State σ) :
    match e.run depth rule s with
    | (.error error, s') => e.evaluate s.context rule.condition = .error error ∧ s' = s ∧
        e.deeds depth rule s = []
    | (.ok report, _) => ∃ outcome rest, e.evaluate s.context rule.condition = .ok outcome ∧
        e.deeds depth rule s = .ran rule outcome s.clock.now report :: rest := by
  obtain ⟨within, deeds⟩ := deeds_eq e depth
  rw [run_eq, deeds]
  exact runWith_answer e (e.nested depth) within rule s

/-- **When actions fire.** Whatever a runner is asked to do from the start, and
whatever runs its handlers set off meanwhile, its deeds make the history; a run
whose condition cannot be evaluated does nothing, and of any other the answer is the
report of its recording. At each recording, with the outcomes recorded for its rule
since the rule was last forgotten, this one included:

* the streak is as long as the run of equal outcomes that ends here, up to the bound
  of the rule;
* the report lists exactly the actions for the outcome, those for true or those for false,
  in order;
* an action is carried out if and only if the bound admits its threshold and that
  many last outcomes are the same; otherwise it waits. -/
theorem firing_law (e : Runner σ ε ι) (unique : Set.InjOn Rule.id built) (known : e.RunsOnly built)
    (depth : Nat) (errands : List (Errand σ ε)) (asked : ∀ errand ∈ errands, errand.RunsOnly built)
    (context : σ) (clock : Clock) :
    let deeds := e.serveAllDeeds depth errands (.start context clock)
    (e.serveAll depth errands (.start context clock)).history = History.after (deeds.map Deed.change) ∧
    (∀ rule s, match e.run depth rule s with
      | (.error _, s') => s' = s ∧ e.deeds depth rule s = []
      | (.ok report, _) => ∃ outcome rest,
          e.deeds depth rule s = .ran rule outcome s.clock.now report :: rest) ∧
    ∀ before rule outcome now report after, deeds = before ++ .ran rule outcome now report :: after →
      let outcomes := Deed.outcomes rule.id before ++ [outcome]
      report.rule = rule.name ∧ report.streak.outcome = outcome ∧
      report.streak.size = min rule.bound.size (runLength outcome outcomes) ∧
      report.actions.map ActionReport.heading =
        (if outcome then rule.onTrue else rule.onFalse).map Action.heading ∧
      ∀ a ∈ report.actions,
        let due := a.threshold ≤ rule.bound.size ∧ List.replicate a.threshold outcome <:+ outcomes
        (a.triggered = true ↔ due) ∧ (a.status = .skipped ↔ ¬ due) := by
  intro deeds
  have course : Course built .empty deeds (e.serveAll depth errands (.start context clock)).history :=
    course_serveAll known depth asked (.start context clock)
  refine ⟨course.eq_foldl, ?_, ?_⟩
  · intro rule s
    have answer := run_answer e depth rule s
    cases ran : e.run depth rule s with
    | mk ending s' =>
      rw [ran] at answer
      cases ending with
      | error error => exact answer.2
      | ok report =>
        obtain ⟨outcome, rest, -, deeds⟩ := answer
        exact ⟨outcome, rest, deeds⟩
  · intro before rule outcome now report after split outcomes
    rw [split] at course
    obtain ⟨member, fits⟩ := course.honest_of_split
    have members : ∀ rule outcome now report, .ran rule outcome now report ∈ before → rule ∈ built :=
      fun rule outcome now report h => course.members rule outcome now report (by simp [h])
    have size : report.streak.size = min rule.bound.size (runLength outcome outcomes) := by
      rw [fits.ending]
      exact Deed.size_streak unique members member outcome now
    refine ⟨fits.name, by rw [fits.ending]; rfl, size, fits.actions, ?_⟩
    intro a ha due
    have waiting := fits.waiting a ha
    rw [← fits.ending, size] at waiting
    have skipped : a.status = .skipped ↔ ¬ due := by
      rw [waiting, show due = (_ ∧ _) from rfl, replicate_suffix_iff]
      omega
    refine ⟨?_, skipped⟩
    rw [ActionReport.triggered, bne_iff_ne, Ne, skipped, not_not]

/-- A rule that waits for two outcomes in a row, and retains two. -/
def again : Rule Bool := ⟨.ofNat 1, "again", true, [⟨"again", 2, ∅⟩], [], ⟨2, by decide⟩⟩

/-- Carries out every action by running its rule once more. -/
def rerunning : Runner Unit Bool Unit :=
  ⟨fun _ holds => .ok holds, fun _ => .ok fun rule _ => .run rule fun _ => .done (.ok ())⟩

/-- Asked twice, the rule is recorded three times: its second run sets off the third,
which ends a run of three outcomes and a streak of two. -/
theorem firing_law_rerunning :
    let deeds := rerunning.serveAllDeeds 1 [.run again, .run again] (.start () (.stopped ⟨0, 0⟩))
    ∃ first second report, deeds = [first, second, .ran again true ⟨0, 0⟩ report] ∧
      Deed.outcomes again.id [first, second] = [true, true] ∧
      report.streak.size = min 2 (runLength true [true, true, true]) ∧
      ∀ a ∈ report.actions, a.triggered = true ↔ a.threshold ≤ 2 ∧
        List.replicate a.threshold true <:+ [true, true, true] := by
  intro deeds
  have unique : Set.InjOn Rule.id {again} := Set.injOn_singleton _ _
  have known : rerunning.RunsOnly {again} := by
    rintro action handler ⟨⟩ rule member a
    exact ⟨member, fun _ => trivial⟩
  have asked : ∀ errand ∈ [.run again, .run again], Errand.RunsOnly (σ := Unit) {again} errand := by
    simp [Errand.RunsOnly]
  obtain ⟨-, -, law⟩ := firing_law rerunning unique known 1 _ asked () (.stopped ⟨0, 0⟩)
  have split : rerunning.serveAllDeeds 1 [.run again, .run again] (.start () (.stopped ⟨0, 0⟩)) =
      [.ran again true ⟨0, 0⟩ ⟨"again", ⟨true, [⟨again.id, true, ⟨0, 0⟩, 1⟩], by simp⟩,
          [⟨"again", 2, .skipped⟩]⟩,
        .ran again true ⟨0, 0⟩
          ⟨"again", ⟨true, [⟨again.id, true, ⟨0, 0⟩, 1⟩, ⟨again.id, true, ⟨0, 0⟩, 2⟩], by simp⟩,
            [⟨"again", 2, .fired⟩]⟩] ++
      .ran again true ⟨0, 0⟩
        ⟨"again", ⟨true, [⟨again.id, true, ⟨0, 0⟩, 2⟩, ⟨again.id, true, ⟨0, 0⟩, 3⟩], by simp⟩,
          [⟨"again", 2, .fired⟩]⟩ :: [] := by
    cbv
  obtain ⟨-, -, size, -, actions⟩ := law _ _ _ _ _ _ split
  exact ⟨_, _, _, split, rfl, size, fun a ha => (actions a ha).1⟩

end Runner

end RuleWatch
