import RuleWatch.Proofs.Text.Replies
/-!
  Where parsers stand when they fail. For each way of building a parser from others
  there is a lemma that says at which of them it stops. An alternative, an optional
  part or an item of a list is only stopped at if it fails finally: what fails
  plainly is given up, and reading goes on from where it began.
-/

namespace RuleWatch.Parser

variable {α β : Type}

/-- The parser fails on a text, and stands at `rest` then. -/
def StopsAt (p : Parser α) (s rest : List Char) : Prop := ∃ final wanted, p s = .fail final rest wanted

/-- The parser fails on a text, and finally, and stands at `rest` then. -/
def BreaksAt (p : Parser α) (s rest : List Char) : Prop := ∃ wanted, p s = .fail true rest wanted

theorem BreaksAt.stopsAt {p : Parser α} {s rest : List Char} (h : p.BreaksAt s rest) : p.StopsAt s rest :=
  ⟨true, h⟩

theorem BreaksAt.not_refuses {p : Parser α} {s rest : List Char} (h : p.BreaksAt s rest) : ¬ p.Refuses s := by
  intro given
  obtain ⟨wanted, h⟩ := h
  obtain ⟨rest', wanted', refused⟩ := given
  simp [h] at refused

/-! ## Sequences -/

@[simp] theorem pure_stopsAt {a : α} {s rest : List Char} : ¬ (pure a : Parser α).StopsAt s rest := by
  simp [StopsAt, pure_apply]

@[simp] theorem pure_breaksAt {a : α} {s rest : List Char} : ¬ (pure a : Parser α).BreaksAt s rest := by
  simp [BreaksAt, pure_apply]

@[simp] theorem bind_stopsAt {p : Parser α} {f : α → Parser β} {s rest : List Char} :
    (p >>= f).StopsAt s rest ↔ p.StopsAt s rest ∨ ∃ a t, p s = .ok a t ∧ (f a).StopsAt t rest := by
  unfold StopsAt
  rw [bind_apply]
  cases p s <;> simp [and_assoc]

@[simp] theorem bind_breaksAt {p : Parser α} {f : α → Parser β} {s rest : List Char} :
    (p >>= f).BreaksAt s rest ↔ p.BreaksAt s rest ∨ ∃ a t, p s = .ok a t ∧ (f a).BreaksAt t rest := by
  unfold BreaksAt
  rw [bind_apply]
  cases p s <;> simp [and_assoc]

@[simp] theorem map_stopsAt {f : α → β} {p : Parser α} {s rest : List Char} :
    (f <$> p).StopsAt s rest ↔ p.StopsAt s rest := by
  rw [← bind_pure_comp, bind_stopsAt]
  simp

@[simp] theorem map_breaksAt {f : α → β} {p : Parser α} {s rest : List Char} :
    (f <$> p).BreaksAt s rest ↔ p.BreaksAt s rest := by
  rw [← bind_pure_comp, bind_breaksAt]
  simp

/-! ## Alternatives -/

@[simp] theorem orElse_stopsAt {p q : Parser α} {s rest : List Char} :
    (p <|> q).StopsAt s rest ↔ p.BreaksAt s rest ∨ p.Refuses s ∧ q.StopsAt s rest := by
  unfold StopsAt BreaksAt Refuses
  rw [orElse_apply]
  cases p s with
  | ok a t => simp
  | fail final t wanted => cases final <;> simp

@[simp] theorem orElse_breaksAt {p q : Parser α} {s rest : List Char} :
    (p <|> q).BreaksAt s rest ↔ p.BreaksAt s rest ∨ p.Refuses s ∧ q.BreaksAt s rest := by
  unfold BreaksAt Refuses
  rw [orElse_apply]
  cases p s with
  | ok a t => simp
  | fail final t wanted => cases final <;> simp

@[simp] theorem committed_stopsAt {p : Parser α} {s rest : List Char} :
    p.committed.StopsAt s rest ↔ p.StopsAt s rest := by
  unfold StopsAt committed
  cases p s <;> simp

@[simp] theorem committed_breaksAt {p : Parser α} {s rest : List Char} :
    p.committed.BreaksAt s rest ↔ p.StopsAt s rest := by
  unfold BreaksAt StopsAt committed
  cases p s <;> simp

@[simp] theorem wanting_stopsAt {what : String} {p : Parser α} {s rest : List Char} :
    (p.wanting what).StopsAt s rest ↔ p.StopsAt s rest := by
  unfold StopsAt wanting
  cases p s <;> simp

@[simp] theorem wanting_breaksAt {what : String} {p : Parser α} {s rest : List Char} :
    (p.wanting what).BreaksAt s rest ↔ p.BreaksAt s rest := by
  unfold BreaksAt wanting
  cases p s <;> simp

@[simp] theorem optional_stopsAt {p : Parser α} {s rest : List Char} :
    p.optional?.StopsAt s rest ↔ p.BreaksAt s rest := by
  unfold StopsAt BreaksAt optional?
  cases p s with
  | ok a t => simp
  | fail final t wanted => cases final <;> simp

@[simp] theorem optional_breaksAt {p : Parser α} {s rest : List Char} :
    p.optional?.BreaksAt s rest ↔ p.BreaksAt s rest := by
  unfold BreaksAt optional?
  cases p s with
  | ok a t => simp
  | fail final t wanted => cases final <;> simp

/-- A value without an image is refused where it begins. -/
@[simp] theorem mapPartial_stopsAt {f : α → Option β} {p : Parser α} {s rest : List Char} :
    (mapPartial f p).StopsAt s rest ↔ p.StopsAt s rest ∨ rest = s ∧ ∃ a t, p s = .ok a t ∧ f a = none := by
  unfold StopsAt mapPartial
  cases p s with
  | ok a t => cases h : f a <;> simp [h, eq_comm]
  | fail final t wanted => simp

@[simp] theorem mapPartial_breaksAt {f : α → Option β} {p : Parser α} {s rest : List Char} :
    (mapPartial f p).BreaksAt s rest ↔ p.BreaksAt s rest := by
  unfold BreaksAt mapPartial
  cases p s with
  | ok a t => cases h : f a <;> simp [h]
  | fail final t wanted => simp

/-! ## Characters -/

@[simp] theorem oneOf_stopsAt {accepts : Char → Bool} {s rest : List Char} :
    (oneOf accepts).StopsAt s rest ↔ rest = s ∧ ¬ Begins accepts s := by
  unfold StopsAt
  cases s with
  | nil => simp [oneOf, eq_comm]
  | cons c t => by_cases h : accepts c = true <;> simp [oneOf, h, eq_comm]

@[simp] theorem oneOf_breaksAt {accepts : Char → Bool} {s rest : List Char} :
    ¬ (oneOf accepts).BreaksAt s rest := by
  unfold BreaksAt
  cases s with
  | nil => simp [oneOf]
  | cons c t => by_cases h : accepts c = true <;> simp [oneOf, h]

@[simp] theorem char_stopsAt {c : Char} {s rest : List Char} :
    (char c).StopsAt s rest ↔ rest = s ∧ ∀ t, s ≠ c :: t := by
  rw [char, oneOf_stopsAt, ← oneOf_refuses, ← char, char_refuses]

@[simp] theorem char_breaksAt {c : Char} {s rest : List Char} : ¬ (char c).BreaksAt s rest := oneOf_breaksAt

@[simp] theorem noneOf_stopsAt {refuses : Char → Bool} {s rest : List Char} :
    (noneOf refuses).StopsAt s rest ↔ rest = s ∧ Begins refuses s := by
  unfold StopsAt
  cases s with
  | nil => simp [noneOf]
  | cons c t => by_cases h : refuses c = true <;> simp [noneOf, h, eq_comm]

@[simp] theorem noneOf_breaksAt {refuses : Char → Bool} {s rest : List Char} :
    ¬ (noneOf refuses).BreaksAt s rest := by
  unfold BreaksAt
  cases s with
  | nil => simp [noneOf]
  | cons c t => by_cases h : refuses c = true <;> simp [noneOf, h]

@[simp] theorem word_stopsAt {w s rest : List Char} : (word w).StopsAt s rest ↔ rest = s ∧ ¬ w <+: s := by
  have found : w <+: s ↔ ∃ r, w.isPrefixOf? s = some r := by
    simp only [List.isPrefixOf?_eq_some_iff_append_eq, List.IsPrefix]
  rw [found, StopsAt, word]
  cases w.isPrefixOf? s <;> simp [eq_comm]

@[simp] theorem word_breaksAt {w s rest : List Char} : ¬ (word w).BreaksAt s rest := by
  unfold BreaksAt word
  cases w.isPrefixOf? s <;> simp

@[simp] theorem run_stopsAt {accepts : Char → Bool} {s rest : List Char} : ¬ (run accepts).StopsAt s rest := by
  simp [StopsAt, run]

@[simp] theorem run_breaksAt {accepts : Char → Bool} {s rest : List Char} : ¬ (run accepts).BreaksAt s rest := by
  simp [BreaksAt, run]

@[simp] theorem run1_breaksAt {accepts : Char → Bool} {s rest : List Char} :
    ¬ (run1 accepts).BreaksAt s rest := by
  unfold BreaksAt run1
  cases s.takeWhile accepts <;> simp

/-! ## Repetitions -/

theorem upTo_stopsAt {p : Parser α} {n : Nat} {s rest : List Char} (h : (p.upTo n).StopsAt s rest) :
    ∃ as t, Many p.Reads s as t ∧ p.BreaksAt t rest := by
  obtain ⟨final, wanted, h⟩ := h
  induction n generalizing s with
  | zero => simp [upTo] at h
  | succ n ih =>
    unfold upTo at h
    cases read : p s with
    | ok a t =>
      cases others : p.upTo n t with
      | ok as r => simp [read, others] at h
      | fail final' rest' wanted' =>
        simp only [read, others, Reply.fail.injEq] at h
        obtain ⟨rfl, rfl, rfl⟩ := h
        obtain ⟨as, t', items, broken⟩ := ih others
        exact ⟨a :: as, t', Many.cons read items, broken⟩
    | fail final' rest' wanted' =>
      cases final' with
      | true =>
        simp only [read, Reply.fail.injEq] at h
        obtain ⟨-, rfl, rfl⟩ := h
        exact ⟨[], s, Many.nil s, wanted', read⟩
      | false => simp [read] at h

/-- A list stops where one of its items breaks, behind those that are read. -/
theorem many_stopsAt {p : Parser α} {s rest : List Char} (h : p.many.StopsAt s rest) :
    ∃ as t, Many p.Reads s as t ∧ p.BreaksAt t rest := upTo_stopsAt h

end RuleWatch.Parser
