import RuleWatch.Proofs.Text.Stops
/-!
  Progress of parsers. What a parser leaves is an end of the text that it was given;
  every way of building a parser from others keeps this (`LeavesSuffix`). A repetition
  without a bound on the number of its items stalls at an item that takes no character
  (`Repeats`). Where each item takes one, it stalls nowhere and ends on every text, with
  the answer of `many` (`repeats_iff`).
-/

namespace RuleWatch

/-- An answer with one more value in front. -/
def Reply.prepend {α : Type} (a : α) : Reply (List α) → Reply (List α)
  | .ok as rest => .ok (a :: as) rest
  | .fail final rest wanted => .fail final rest wanted

namespace Parser

variable {α β : Type}

/-! ## What is left -/

/-- Whatever the parser reads, it leaves an end of the text. -/
def LeavesSuffix (p : Parser α) : Prop := ∀ s a r, p s = .ok a r → r <:+ s

namespace LeavesSuffix

variable {p q : Parser α}

theorem pure (a : α) : (Pure.pure a : Parser α).LeavesSuffix := by
  intro s b r h
  obtain ⟨-, rfl⟩ := pure_ok.1 h
  exact List.suffix_refl s

theorem bind {f : α → Parser β} (first : p.LeavesSuffix) (others : ∀ a, (f a).LeavesSuffix) :
    (p >>= f).LeavesSuffix := by
  intro s b r h
  obtain ⟨a, t, read, h⟩ := bind_ok.1 h
  exact (others a t b r h).trans (first s a t read)

theorem map (f : α → β) (h : p.LeavesSuffix) : (f <$> p).LeavesSuffix := by
  intro s b r read
  obtain ⟨a, read, -⟩ := map_ok.1 read
  exact h s a r read

theorem orElse (first : p.LeavesSuffix) (second : q.LeavesSuffix) : (p <|> q).LeavesSuffix := by
  intro s a r h
  rcases orElse_ok.1 h with read | ⟨-, read⟩
  · exact first s a r read
  · exact second s a r read

theorem committed (h : p.LeavesSuffix) : p.committed.LeavesSuffix :=
  fun s a r read => h s a r (committed_ok.1 read)

theorem wanting {what : String} (h : p.LeavesSuffix) : (p.wanting what).LeavesSuffix :=
  fun s a r read => h s a r (wanting_ok.1 read)

theorem optional (h : p.LeavesSuffix) : p.optional?.LeavesSuffix := by
  intro s o r read
  rcases optional_ok.1 read with ⟨a, read, -⟩ | ⟨-, -, rfl⟩
  · exact h s a r read
  · exact List.suffix_refl r

theorem mapPartial {f : α → Option β} (h : p.LeavesSuffix) : (p.mapPartial f).LeavesSuffix := by
  intro s b r read
  obtain ⟨a, read, -⟩ := mapPartial_ok.1 read
  exact h s a r read

theorem oneOf (accepts : Char → Bool) : (Parser.oneOf accepts).LeavesSuffix := by
  intro s c r read
  obtain ⟨rfl, -⟩ := oneOf_ok.1 read
  exact List.suffix_cons c r

theorem char (c : Char) : (Parser.char c).LeavesSuffix := oneOf (· == c)

theorem run (accepts : Char → Bool) : (Parser.run accepts).LeavesSuffix := by
  intro s w r read
  obtain ⟨rfl, -⟩ := run_ok.1 read
  exact List.suffix_append w r

theorem run1 (accepts : Char → Bool) : (Parser.run1 accepts).LeavesSuffix := by
  intro s w r read
  obtain ⟨-, rfl, -⟩ := run1_ok.1 read
  exact List.suffix_append w r

theorem word (w : List Char) : (Parser.word w).LeavesSuffix := by
  intro s u r read
  obtain rfl := word_ok.1 read
  exact List.suffix_append w r

theorem noneOf (refuses : Char → Bool) : (Parser.noneOf refuses).LeavesSuffix := by
  intro s u r read
  obtain ⟨rfl, -⟩ := noneOf_ok.1 read
  exact List.suffix_refl s

theorem many (h : p.LeavesSuffix) : p.many.LeavesSuffix := by
  intro s as r read
  rw [Parser.many, upTo_ok] at read
  obtain ⟨items, -⟩ := read
  induction items with
  | nil s => exact List.suffix_refl s
  | cons first _ ih => exact ih.trans (h _ _ _ first)

theorem separated {separator : Parser Unit} (h : p.LeavesSuffix) (k : separator.LeavesSuffix) :
    (p.separated separator).LeavesSuffix :=
  h.bind fun _ => (k.bind fun _ => h).many.bind fun _ => .pure _

/-- A parser defined by itself leaves an end of the text if its definition does so for
every parser that does. -/
theorem recursive {step : Parser α → Parser α} (h : ∀ p, p.LeavesSuffix → (step p).LeavesSuffix) :
    (Parser.recursive step).LeavesSuffix := by
  suffices within : ∀ n, (Parser.nested step n).LeavesSuffix from fun s => within (s.length + 1) s
  intro n
  induction n with
  | zero => intro s a r read; simp [Parser.nested] at read
  | succ n ih => exact h _ ih

end LeavesSuffix

/-! ## Repetitions without a bound -/

/-- Items are read one after another until one is refused, with no bound on their
number. None stands for a repetition that has stalled: an item has been read, and no
character with it. -/
inductive Repeats (p : Parser α) : List Char → Option (Reply (List α)) → Prop where
  | ends {s : List Char} (refused : p.Refuses s) : Repeats p s (some (.ok [] s))
  | breaks {s rest : List Char} {wanted : List String} (broken : p s = .fail true rest wanted) :
      Repeats p s (some (.fail true rest wanted))
  | stalls {s t : List Char} {a : α} (read : p s = .ok a t) (still : t.length = s.length) : Repeats p s none
  | next {s t : List Char} {a : α} {o : Option (Reply (List α))} (read : p s = .ok a t)
      (moved : t.length ≠ s.length) (others : Repeats p t o) : Repeats p s (o.map (Reply.prepend a))

section
variable {p : Parser α} (consumes : p.Consumes)
include consumes

theorem many_of_ok {s t : List Char} {a : α} (read : p s = .ok a t) : p.many s = (p.many t).prepend a := by
  rw [many_eq consumes, read]
  rfl

theorem repeats_many (s : List Char) : Repeats p s (some (p.many s)) := by
  induction size : s.length using Nat.strong_induction_on generalizing s with
  | _ n ih =>
    cases read : p s with
    | ok a t =>
      have shorter := consumes s a t read
      rw [many_of_ok consumes read]
      exact Repeats.next read (by omega) (ih t.length (by omega) t rfl)
    | fail final rest wanted =>
      rw [many_eq consumes, read]
      cases final with
      | false => exact Repeats.ends ⟨rest, wanted, read⟩
      | true => exact Repeats.breaks read

/-- **Repetitions end.** Items that each take a character are read on every text to one
answer, that of `many`, and the repetition does not stall. -/
theorem repeats_iff {s : List Char} {o : Option (Reply (List α))} : Repeats p s o ↔ o = some (p.many s) := by
  refine ⟨?_, ?_⟩
  · intro h
    induction h with
    | ends refused =>
      obtain ⟨rest, wanted, refused⟩ := refused
      rw [many_eq consumes, refused]
    | breaks broken => rw [many_eq consumes, broken]
    | stalls read still => exact absurd still (Nat.ne_of_lt (consumes _ _ _ read))
    | next read _ _ ih => rw [ih, Option.map_some, many_of_ok consumes read]
  · intro same
    subst same
    exact repeats_many consumes s

end

end Parser

end RuleWatch
