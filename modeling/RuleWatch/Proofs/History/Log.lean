import Mathlib.Data.List.DropRight
import Mathlib.Data.Set.Function
import RuleWatch.Proofs.History.Order
import RuleWatch.Run.Runner
/-!
  A history as the end of an unbounded log. A log of a rule keeps all that has
  been recorded for it since it was last forgotten; a history keeps some of it.

  How many entries of the log are kept is a number that each recording raises by
  one and then cuts at its bound, so that bounds may differ from recording to
  recording: a small one drops entries for good, and a large one afterwards does
  not bring them back. `History.refines_log` says that the history of a rule is
  at all times exactly that many last entries of its log, and what recording,
  forgetting and counting answer in terms of it.

  The records of a log that evicts nothing (`Log.records`) stand between the two:
  they are sorted whatever the clock does, because each is stamped with the
  latest reading so far, and the history is a suffix of them.
-/

namespace RuleWatch

/-- One change of a history. -/
inductive Change where
  | record (rule : RuleId) (bound : Bound) (result : Bool) (now : Instant)
  | forget (rule : RuleId)
  | clear

namespace History

def apply (h : History) : Change → History
  | .record rule bound result now => (h.record rule bound result now).history
  | .forget rule => h.forget rule
  | .clear => h.clear

def after (changes : List Change) : History := changes.foldl apply empty

end History

structure Entry where
  bound : Bound
  result : Bool
  /-- The reading of the clock. -/
  now : Instant
  /-- How many outcomes had been recorded, for all rules, this one included. -/
  number : Nat

/-- All that has been recorded for a rule since it was last forgotten. -/
structure Log where
  /-- How many outcomes have been recorded, for all rules. -/
  count : Nat
  /-- The recordings of the rule, oldest first. -/
  entries : List Entry

namespace Log

def add (rule : RuleId) (l : Log) : Change → Log
  | .record other bound result now =>
    ⟨l.count + 1,
      if other = rule then l.entries ++ [⟨bound, result, now, l.count + 1⟩] else l.entries⟩
  | .forget other => ⟨l.count, if other = rule then [] else l.entries⟩
  | .clear => ⟨l.count, []⟩

def of (rule : RuleId) (changes : List Change) : Log := changes.foldl (add rule) ⟨0, []⟩

/-- How many entries of a log are kept: each raises the number by one and then
cuts it at its bound. -/
def kept (entries : List Entry) : Nat := entries.foldl (fun n e => min (n + 1) e.bound.size) 0

theorem of_snoc (rule : RuleId) (changes : List Change) (c : Change) :
    of rule (changes ++ [c]) = (of rule changes).add rule c := by
  rw [of, List.foldl_append]
  rfl

@[simp] theorem kept_snoc (entries : List Entry) (e : Entry) :
    kept (entries ++ [e]) = min (kept entries + 1) e.bound.size := by
  simp [kept]

theorem kept_le_length (entries : List Entry) : kept entries ≤ entries.length := by
  induction entries using List.reverseRecOn with
  | nil => exact Nat.le_refl 0
  | append_singleton entries e ih => simp; omega

/-- Under a bound that never changes, a history keeps as much as the bound allows. -/
theorem kept_of_bound {bound : Bound} {entries : List Entry}
    (same : ∀ e ∈ entries, e.bound = bound) : kept entries = min bound.size entries.length := by
  induction entries using List.reverseRecOn with
  | nil => simp [kept]
  | append_singleton entries e ih =>
    have kept := ih fun x hx => same x (by simp [hx])
    rw [kept_snoc, kept, same e (by simp), List.length_append, List.length_singleton]
    omega

/-- Bounds are not zero, and so the newest entry is always kept. -/
theorem kept_pos {entries : List Entry} (h : entries ≠ []) : 0 < kept entries := by
  induction entries using List.reverseRecOn with
  | nil => exact absurd rfl h
  | append_singleton entries e _ =>
    have := e.bound.size_pos
    simp; omega

/-! ## The records of a log that evicts nothing -/

/-- The stamp of a record that comes behind others: no earlier than the newest. -/
def clamp (records : List Record) (now : Instant) : Instant :=
  match records.getLast? with
  | some newest => now.latest newest.time
  | none => now

def append (rule : RuleId) (records : List Record) (e : Entry) : List Record :=
  records ++ [⟨rule, e.result, clamp records e.now, e.number⟩]

def records (rule : RuleId) (entries : List Entry) : List Record :=
  entries.foldl (append rule) []

theorem records_snoc (rule : RuleId) (entries : List Entry) (e : Entry) :
    records rule (entries ++ [e]) = append rule (records rule entries) e := by
  rw [records, List.foldl_append]
  rfl

@[simp] theorem length_records (rule : RuleId) (entries : List Entry) :
    (records rule entries).length = entries.length := by
  induction entries using List.reverseRecOn with
  | nil => rfl
  | append_singleton entries e ih => simp [records_snoc, append, ih]

theorem results_records (rule : RuleId) (entries : List Entry) :
    (records rule entries).map Record.result = entries.map Entry.result := by
  induction entries using List.reverseRecOn with
  | nil => rfl
  | append_singleton entries e ih => simp [records_snoc, append, ih]

/-- The stamp of a new record is the latest of all readings so far. -/
theorem isLatest_clamp (rule : RuleId) (entries : List Entry) (now : Instant) :
    (clamp (records rule entries) now).IsLatest (entries.map Entry.now ++ [now]) := by
  induction entries using List.reverseRecOn generalizing now with
  | nil => exact ⟨by simp [clamp, records], by simpa [clamp, records] using Instant.le_refl now⟩
  | append_singleton entries e ih =>
    have newest : clamp (records rule (entries ++ [e])) now
        = now.latest (clamp (records rule entries) e.now) := by
      simp [records_snoc, append, clamp]
    obtain ⟨reached, above⟩ := ih e.now
    rw [newest]
    refine ⟨?_, ?_⟩
    · rcases Instant.latest_eq_or now (clamp (records rule entries) e.now) with h | h
      · rw [h]; simp
      · rw [h, List.map_append]
        exact List.mem_append_left _ reached
    · intro u hu
      rcases List.mem_append.1 hu with hu | hu
      · exact Instant.le_trans (above u (by simpa using hu)) (Instant.le_latest_right _ _)
      · rw [List.mem_singleton.1 hu]
        exact Instant.le_latest_left _ _

/-- What the record at a place of the log is. -/
theorem getElem?_records {rule : RuleId} {entries : List Entry} {i : Nat} {r : Record}
    (h : (records rule entries)[i]? = some r) :
    ∃ e, entries[i]? = some e ∧ r.rule = rule ∧ r.result = e.result ∧ r.sequence = e.number ∧
      r.time.IsLatest ((entries.take (i + 1)).map Entry.now) := by
  induction entries using List.reverseRecOn with
  | nil => simp [records] at h
  | append_singleton entries e ih =>
    rw [records_snoc, append] at h
    rcases Nat.lt_trichotomy i entries.length with hi | rfl | hi
    · rw [List.getElem?_append_left (by simpa using hi)] at h
      obtain ⟨e', he', found⟩ := ih h
      refine ⟨e', by rw [List.getElem?_append_left hi, he'], ?_⟩
      rwa [List.take_append_of_le_length (by omega)]
    · rw [List.getElem?_append_right (by simp)] at h
      simp only [length_records, Nat.sub_self, List.getElem?_cons_zero, Option.some.injEq] at h
      subst h
      refine ⟨e, by simp, rfl, rfl, rfl, ?_⟩
      rw [List.take_of_length_le (by simp), List.map_append]
      exact isLatest_clamp rule entries e.now
    · rw [List.getElem?_eq_none (by simp; omega)] at h
      simp at h

/-! ## Their order -/

/-- A record of no later time and of a smaller sequence. -/
def Earlier (a b : Record) : Prop := a.time ≤ b.time ∧ a.sequence < b.sequence

/-- The entries of a log count upwards, and no further than all recordings do. -/
structure Numbered (l : Log) : Prop where
  upwards : l.entries.Pairwise (·.number < ·.number)
  below : ∀ e ∈ l.entries, e.number ≤ l.count

theorem Numbered.empty : Numbered ⟨0, []⟩ := ⟨List.Pairwise.nil, by simp⟩

theorem Numbered.add {l : Log} (h : l.Numbered) (rule : RuleId) (c : Change) :
    (l.add rule c).Numbered := by
  obtain ⟨upwards, below⟩ := h
  cases c with
  | record other bound result now =>
    simp only [Log.add]
    split
    · refine ⟨?_, ?_⟩
      · rw [List.pairwise_append]
        refine ⟨upwards, List.pairwise_singleton _ _, ?_⟩
        intro a ha b hb
        rw [List.mem_singleton.1 hb]
        exact Nat.lt_succ_of_le (below a ha)
      · intro e he
        rcases List.mem_append.1 he with he | he
        · exact Nat.le_succ_of_le (below e he)
        · rw [List.mem_singleton.1 he]
    · exact ⟨upwards, fun e he => Nat.le_succ_of_le (below e he)⟩
  | forget other =>
    simp only [Log.add]
    split
    · exact ⟨List.Pairwise.nil, by simp⟩
    · exact ⟨upwards, below⟩
  | clear => exact ⟨List.Pairwise.nil, by simp [Log.add]⟩

/-- Records that come behind sorted ones are stamped no earlier than any. -/
theorem le_clamp {records : List Record} (order : records.Pairwise Earlier) (now : Instant) :
    ∀ a ∈ records, a.time ≤ clamp records now := by
  intro a ha
  rcases List.eq_nil_or_concat records with rfl | ⟨front, newest, rfl⟩
  · simp at ha
  · have stamped : clamp (front.concat newest) now = now.latest newest.time := by simp [clamp]
    rw [stamped]
    refine Instant.le_trans ?_ (Instant.le_latest_right now newest.time)
    rw [List.concat_eq_append] at ha order
    rcases List.mem_append.1 ha with ha | ha
    · exact ((List.pairwise_append.1 order).2.2 a ha newest (by simp)).1
    · rw [List.mem_singleton.1 ha]
      exact Instant.le_refl _

/-- The records of a log are sorted, whatever the clock did. -/
theorem records_order {rule : RuleId} {entries : List Entry}
    (upwards : entries.Pairwise (·.number < ·.number)) : (records rule entries).Pairwise Earlier := by
  induction entries using List.reverseRecOn with
  | nil => exact List.Pairwise.nil
  | append_singleton entries e ih =>
    rw [List.pairwise_append] at upwards
    obtain ⟨upwards, -, below⟩ := upwards
    rw [records_snoc, append, List.pairwise_append]
    refine ⟨ih upwards, List.pairwise_singleton _ _, ?_⟩
    intro a ha b hb
    rw [List.mem_singleton.1 hb]
    refine ⟨le_clamp (ih upwards) e.now a ha, ?_⟩
    obtain ⟨i, hi⟩ := List.mem_iff_getElem?.1 ha
    obtain ⟨e', he', -, -, sequence, -⟩ := getElem?_records hi
    rw [sequence]
    exact below e' (List.mem_of_getElem? he') e (by simp)

end Log

/-! ## A history keeps the end of each log -/

namespace History

/-- What a history has in common with the log of a rule: it has counted as many
recordings, and its records of the rule are the last ones of the log. -/
structure KeepsEnd (h : History) (rule : RuleId) (l : Log) : Prop where
  numbered : l.Numbered
  sequence : h.sequence = l.count
  records : h.of rule = (Log.records rule l.entries).rtake (Log.kept l.entries)

namespace KeepsEnd

variable {h : History} {rule : RuleId} {l : Log}

theorem length_of (k : h.KeepsEnd rule l) : (h.of rule).length = Log.kept l.entries := by
  have := Log.kept_le_length l.entries
  rw [k.records, List.rtake, List.length_drop, Log.length_records]
  omega

theorem order (k : h.KeepsEnd rule l) : (h.of rule).Pairwise Log.Earlier := by
  rw [k.records]
  exact (Log.records_order k.numbered.upwards).sublist (List.drop_sublist _ _)

/-- Each record comes from an entry of the log. -/
theorem entry_of (k : h.KeepsEnd rule l) {r : Record} (hr : r ∈ h.of rule) :
    ∃ e ∈ l.entries, r.rule = rule ∧ r.sequence = e.number := by
  rw [k.records] at hr
  obtain ⟨i, hi⟩ := List.mem_iff_getElem?.1 ((List.drop_suffix _ _).subset hr)
  obtain ⟨e, he, owner, -, number, -⟩ := Log.getElem?_records hi
  exact ⟨e, List.mem_of_getElem? he, owner, number⟩

/-- The newest record is always kept, so that stamps are those of the log. -/
theorem stamp (k : h.KeepsEnd rule l) (now : Instant) :
    h.stamp rule now = Log.clamp (Log.records rule l.entries) now := by
  have newest : (h.of rule).getLast? = (Log.records rule l.entries).getLast? := by
    rw [k.records, List.rtake, List.getLast?_drop, Log.length_records]
    by_cases empty : l.entries = []
    · simp [empty, Log.records]
    · have := Log.kept_pos empty
      have := List.length_pos_of_ne_nil empty
      rw [if_neg (by omega)]
  cases last : (Log.records rule l.entries).getLast? <;> simp [History.stamp, Log.clamp, newest, last]

theorem made (k : h.KeepsEnd rule l) (bound : Bound) (result : Bool) (now : Instant) :
    (h.record rule bound result now).record.insert (h.of rule) =
      h.of rule ++ [⟨rule, result, Log.clamp (Log.records rule l.entries) now, l.count + 1⟩] := by
  show Record.insert ⟨rule, result, h.stamp rule now, h.sequence + 1⟩ (h.of rule) = _
  rw [k.stamp, k.sequence]
  apply Record.insert_eq_append
  intro a ha
  rw [k.records] at ha
  have logged : a ∈ Log.records rule l.entries := (List.drop_suffix _ _).subset ha
  obtain ⟨i, hi⟩ := List.mem_iff_getElem?.1 logged
  obtain ⟨e, he, -, -, sequence, -⟩ := Log.getElem?_records hi
  apply Record.notAfter_of_before
  apply Record.before_of_le
  · exact Log.le_clamp (Log.records_order k.numbered.upwards) now a logged
  · rw [sequence]
    exact Nat.lt_succ_of_le (k.numbered.below e (List.mem_of_getElem? he))

theorem insert_record (k : h.KeepsEnd rule l) (bound : Bound) (result : Bool) (now : Instant) :
    (h.record rule bound result now).record.insert (h.of rule) =
      h.of rule ++ [(h.record rule bound result now).record] := by
  rw [k.made, ← k.stamp, ← k.sequence]
  rfl

/-- No record counts higher than all recordings do. -/
theorem sequence_le (k : h.KeepsEnd rule l) {r : Record} (hr : r ∈ h.of rule) : r.sequence ≤ h.sequence := by
  obtain ⟨e, he, -, number⟩ := k.entry_of hr
  rw [number, k.sequence]
  exact k.numbered.below e he

theorem evicted (k : h.KeepsEnd rule l) (bound : Bound) (result : Bool) (now : Instant) :
    (h.record rule bound result now).evicted =
      Log.kept l.entries + 1 - min (Log.kept l.entries + 1) bound.size := by
  show ((h.record rule bound result now).record.insert (h.of rule)).length - bound.size = _
  rw [k.made, List.length_append, k.length_of, List.length_singleton]
  omega

/-- Dropping what is beyond the bound leaves the end that the next number of kept
entries asks for. -/
theorem rtake_concat {α : Type} {l : List α} {n : Nat} (hn : n ≤ l.length) (x : α) (bound : Nat) :
    (l.rtake n ++ [x]).drop (n + 1 - bound) = (l ++ [x]).rtake (min (n + 1) bound) := by
  rw [List.rtake, ← List.drop_append_of_le_length (by omega), List.drop_drop, List.rtake,
    List.length_append, List.length_singleton]
  congr 1
  omega

theorem apply (k : h.KeepsEnd rule l) (c : Change) : (h.apply c).KeepsEnd rule (l.add rule c) := by
  refine ⟨k.numbered.add rule c, ?_, ?_⟩
  · cases c with
    | record other bound result now => exact congrArg (· + 1) k.sequence
    | forget other => exact k.sequence
    | clear => exact k.sequence
  · cases c with
    | record other bound result now =>
      rw [History.apply, of_record]
      by_cases same : other = rule
      · subst same
        have short : Log.kept l.entries ≤ (Log.records other l.entries).length := by
          rw [Log.length_records]
          exact Log.kept_le_length l.entries
        simp only [if_true, Log.add]
        rw [k.made, List.length_append, k.length_of, List.length_singleton, k.records,
          rtake_concat short, Log.records_snoc, Log.append, Log.kept_snoc]
      · simp only [if_neg same, Log.add]
        exact k.records
    | forget other =>
      rw [History.apply, of_forget]
      by_cases same : other = rule
      · simp [same, Log.add, Log.records, List.rtake]
      · simp only [if_neg same, Log.add]
        exact k.records
    | clear => simp [History.apply, Log.add, Log.records, List.rtake]

end KeepsEnd

theorem after_snoc (changes : List Change) (c : Change) :
    after (changes ++ [c]) = (after changes).apply c := by
  rw [after, List.foldl_append]
  rfl

/-- After any changes a history keeps the end of each log. -/
theorem keepsEnd_after (rule : RuleId) (changes : List Change) :
    (after changes).KeepsEnd rule (Log.of rule changes) := by
  induction changes using List.reverseRecOn with
  | nil => exact ⟨Log.Numbered.empty, rfl, by simp [after, Log.of, Log.records, List.rtake]⟩
  | append_singleton changes c ih =>
    rw [after_snoc, Log.of_snoc]
    exact ih.apply c

/-! ## Logs of several rules -/

end History

variable {ε : Type}

/-- The change is made for a rule of a collection, under the bound of the rule. -/
def Change.Lawful (built : Set (Rule ε)) : Change → Prop
  | record id bound _ _ => ∃ rule ∈ built, rule.id = id ∧ rule.bound = bound
  | forget _ => True
  | clear => True

namespace Log

/-- If no two rules share an identity, the entries of a rule's log all have the
bound of the rule. -/
theorem bound_of_entry {built : Set (Rule ε)} (unique : Set.InjOn Rule.id built) {changes : List Change}
    (lawful : ∀ c ∈ changes, c.Lawful built) {rule : Rule ε} (member : rule ∈ built) :
    ∀ e ∈ (Log.of rule.id changes).entries, e.bound = rule.bound := by
  induction changes using List.reverseRecOn with
  | nil => intro e he; simp [Log.of] at he
  | append_singleton changes c ih =>
    have earlier := ih fun c hc => lawful c (by simp [hc])
    intro e he
    rw [of_snoc] at he
    cases c with
    | record id bound result now =>
      simp only [add] at he
      split at he
      · next same =>
        rcases List.mem_append.1 he with he | he
        · exact earlier e he
        · obtain ⟨other, known, rfl, bounds⟩ := lawful (.record id bound result now) (by simp)
          rw [List.mem_singleton.1 he, ← bounds, unique known member same]
      · exact earlier e he
    | forget id =>
      simp only [add] at he
      split at he
      · simp at he
      · exact earlier e he
    | clear => simp [add] at he

/-- No two rules have entries of one number. -/
theorem number_ne {rule other : RuleId} (distinct : rule ≠ other) (changes : List Change) :
    ∀ e ∈ (Log.of rule changes).entries, ∀ e' ∈ (Log.of other changes).entries, e.number ≠ e'.number := by
  induction changes using List.reverseRecOn with
  | nil => intro e he; simp [Log.of] at he
  | append_singleton changes c ih =>
    have k := History.keepsEnd_after rule changes
    have k' := History.keepsEnd_after other changes
    have same : (Log.of rule changes).count = (Log.of other changes).count := k.sequence.symm.trans k'.sequence
    intro e he e' he'
    rw [of_snoc] at he he'
    cases c with
    | record id bound result now =>
      -- the new entry counts higher than all before, and it is one rule's alone
      simp only [add] at he he'
      have below := k.numbered.below
      have below' := k'.numbered.below
      split at he <;> split at he'
      · next h h' => exact absurd (h.symm.trans h') distinct
      · rcases List.mem_append.1 he with he | he
        · exact ih e he e' he'
        · have := below' e' he'
          rw [List.mem_singleton.1 he]
          simp only
          omega
      · rcases List.mem_append.1 he' with he' | he'
        · exact ih e he e' he'
        · have := below e he
          rw [List.mem_singleton.1 he']
          simp only
          omega
      · exact ih e he e' he'
    | forget id =>
      simp only [add] at he he'
      split at he
      · simp at he
      · split at he'
        · simp at he'
        · exact ih e he e' he'
    | clear => simp [add] at he

end Log

namespace History

/-! ## What is answered -/

/-- The streak that a recording ends is the longest end of the records that now
are kept, of its outcome. -/
theorem streak_record {h : History} {rule : RuleId} {l : Log} (k : h.KeepsEnd rule l) (bound : Bound)
    (result : Bool) (now : Instant) :
    (h.record rule bound result now).streak.records =
      ((h.record rule bound result now).history.of rule).rtakeWhile (·.result == result) := by
  have order : ((h.record rule bound result now).history.of rule).Pairwise Record.Before :=
    (k.apply (.record rule bound result now)).order.imp fun earlier =>
      Record.before_of_le earlier.1 earlier.2
  have streak : (h.record rule bound result now).streak =
      Streak.ofRecords ((h.record rule bound result now).history.of rule) result := by
    rw [of_record, if_pos rfl]
    rfl
  rw [streak, Streak.records_ofRecords (List.Perm.refl _) order]

/-- Every slot of a history has records. -/
theorem ne_nil_of_slot {changes : List Change} {rule : RuleId} {records : List Record}
    (h : (after changes).slots[rule]? = some records) : records ≠ [] := by
  induction changes using List.reverseRecOn generalizing rule records with
  | nil => simp [after, empty] at h
  | append_singleton changes c ih =>
    rw [after_snoc] at h
    cases c with
    | record other bound result now =>
      have made := ((keepsEnd_after other changes).apply (.record other bound result now)).length_of
      have some_kept : 0 < (((after changes).apply (.record other bound result now)).of other).length := by
        rw [made]
        exact Log.kept_pos (by simp [Log.add])
      by_cases same : other = rule
      · subst same
        rw [of, h] at some_kept
        exact List.ne_nil_of_length_pos some_kept
      · simp only [apply, record] at h
        rw [Std.ExtTreeMap.getElem?_insert] at h
        simp only [Std.LawfulEqCmp.compare_eq_iff_eq, same, if_false] at h
        exact ih h
    | forget other =>
      simp only [apply, forget] at h
      rw [Std.ExtTreeMap.getElem?_erase] at h
      split at h
      · simp at h
      · exact ih h
    | clear => simp [apply, clear] at h

/-- A rule has a slot if it has records. -/
theorem mem_slots {changes : List Change} {rule : RuleId} :
    rule ∈ (after changes).slots.keys ↔ (after changes).of rule ≠ [] := by
  rw [Std.ExtTreeMap.mem_keys, Std.ExtTreeMap.mem_iff_isSome_getElem?, of]
  cases slot : (after changes).slots[rule]? with
  | none => simp
  | some records => simpa using ne_nil_of_slot slot

/-- **A history is the end of an unbounded log.** After any changes, by clocks that
stand still or go either way and under bounds that may differ from one recording
to the next:

* the records of a rule are the last `kept` entries of its log, oldest first, each
  under the rule's identity, with its entry's outcome and number, stamped with the
  latest reading of the clock among the entries of the log up to its own;
* recording evicts what the number of kept entries loses, tells so, and answers the
  longest end of the records that then are kept which has no other outcome;
* forgetting answers whether any entry is kept, and the size of the history is the
  number of rules with a kept entry. -/
theorem refines_log (changes : List Change) (rule : RuleId) :
    let h := after changes
    let l := Log.of rule changes
    let kept := Log.kept l.entries
    let before := l.entries.length - kept
    (kept ≤ l.entries.length ∧ (h.of rule).length = kept ∧
      ∀ i r, (h.of rule)[i]? = some r → ∃ e, l.entries[before + i]? = some e ∧
        r.rule = rule ∧ r.result = e.result ∧ r.sequence = e.number ∧
        r.time.IsLatest ((l.entries.take (before + i + 1)).map Entry.now)) ∧
    (∀ (bound : Bound) (result : Bool) (now : Instant),
      let made := h.record rule bound result now
      made.evicted = kept + 1 - min (kept + 1) bound.size ∧ made.streak.outcome = result ∧
        LongestEnd (fun r => r.result = result) (made.history.of rule) made.streak.records) ∧
    (∀ (σ : Type) (context : σ) (clock : Clock) (journal : List Event) (bound : Bound) (result : Bool),
      let (streak, s) := (State.mk context h clock journal).record rule bound result
      streak = (h.record rule bound result clock.now).streak ∧
        s.history = after (changes ++ [.record rule bound result clock.now]) ∧
        s.journal = journal ++
          [.recorded rule (l.count + 1) result (kept + 1 - min (kept + 1) bound.size)]) ∧
    (h.remembers rule = true ↔ 0 < kept) ∧
    ∃ rules : List RuleId, rules.Nodup ∧ rules.length = h.size ∧
      ∀ id, id ∈ rules ↔ 0 < Log.kept (Log.of id changes).entries := by
  have k := keepsEnd_after rule changes
  refine ⟨⟨Log.kept_le_length _, k.length_of, ?_⟩, ?_, ?_, ?_, ?_⟩
  · intro i r hi
    rw [k.records, List.rtake, List.getElem?_drop, Log.length_records] at hi
    exact Log.getElem?_records hi
  · intro bound result now
    refine ⟨k.evicted bound result now, rfl, ?_⟩
    rw [streak_record k]
    simpa using longestEnd_rtakeWhile (fun r : Record => r.result == result) _
  · intro σ context clock journal bound result
    refine ⟨rfl, ?_, ?_⟩
    · rw [after_snoc]
      rfl
    · show journal ++ [Event.recorded rule ((after changes).sequence + 1) result _] = _
      rw [k.sequence, k.evicted]
  · rw [remembers, ← k.length_of]
    simp [List.length_pos_iff]
  · refine ⟨(after changes).slots.keys, Std.ExtTreeMap.nodup_keys, Std.ExtTreeMap.length_keys, ?_⟩
    intro id
    rw [mem_slots, ← (keepsEnd_after id changes).length_of, List.length_pos_iff]

/-- Four recordings by a clock that goes backwards, the third under a smaller bound. -/
def backwards (rule : RuleId) : List Change :=
  [.record rule ⟨3, by decide⟩ true ⟨5, 0⟩, .record rule ⟨3, by decide⟩ false ⟨9, 0⟩,
    .record rule ⟨1, by decide⟩ true ⟨2, 0⟩, .record rule ⟨3, by decide⟩ true ⟨1, 0⟩]

/-- Two of the four records are left, and the older of them is the third, stamped
with the reading of the second. -/
theorem refines_log_backwards :
    let h := after (backwards (.ofNat 7))
    (h.of (.ofNat 7)).length = 2 ∧ ∃ r, (h.of (.ofNat 7))[0]? = some r ∧ r.result = true ∧
      r.sequence = 3 ∧ r.time.IsLatest [⟨5, 0⟩, ⟨9, 0⟩, ⟨2, 0⟩] := by
  intro h
  obtain ⟨⟨-, length, records⟩, -⟩ := refines_log (backwards (.ofNat 7)) (.ofNat 7)
  have two : (h.of (.ofNat 7)).length = 2 := by rw [length]; decide
  have found : (h.of (.ofNat 7))[0]? = some (h.of (.ofNat 7))[0] := List.getElem?_eq_getElem (by omega)
  refine ⟨two, _, found, ?_⟩
  obtain ⟨e, third, -, result, sequence, latest⟩ := records 0 _ found
  have e_eq : e = ⟨⟨1, by decide⟩, true, ⟨2, 0⟩, 3⟩ := by
    have : (Log.of (.ofNat 7) (backwards (.ofNat 7))).entries[2]? = some e := third
    simpa [Log.of, Log.add, backwards] using this.symm
  rw [result, sequence, e_eq]
  exact ⟨rfl, rfl, latest⟩

end History

end RuleWatch
