import RuleWatch.Proofs.Text.Stops
/-!
  Parsers within parsers. A parser is entered by another where the other comes to
  it: behind what is read first, inside an optional part or an item of a list, as an
  alternative, or as a later one once the earlier are refused. Where a parser that
  has been entered ends all reading, so does the one that entered it
  (`EnteredBy.breaks`): none of these ways of building a parser takes that back.
-/

namespace RuleWatch.Parser

/-- The parser comes to stand at `t` when another one reads a text. -/
inductive EnteredBy {β : Type} (q : Parser β) (t : List Char) : {α : Type} → Parser α → List Char → Prop where
  | self : EnteredBy q t q t
  | first {α γ : Type} {p : Parser α} {f : α → Parser γ} {s : List Char} (h : EnteredBy q t p s) :
      EnteredBy q t (p >>= f) s
  | then_ {α γ : Type} {p : Parser α} {f : α → Parser γ} {s u : List Char} {a : α} (read : p s = .ok a u)
      (h : EnteredBy q t (f a) u) : EnteredBy q t (p >>= f) s
  | committed {α : Type} {p : Parser α} {s : List Char} (h : EnteredBy q t p s) : EnteredBy q t p.committed s
  | wanting {α : Type} {what : String} {p : Parser α} {s : List Char} (h : EnteredBy q t p s) :
      EnteredBy q t (p.wanting what) s
  | mapPartial {α γ : Type} {f : α → Option γ} {p : Parser α} {s : List Char} (h : EnteredBy q t p s) :
      EnteredBy q t (p.mapPartial f) s
  | optional {α : Type} {p : Parser α} {s : List Char} (h : EnteredBy q t p s) : EnteredBy q t p.optional? s
  | either {α : Type} {p p' : Parser α} {s : List Char} (h : EnteredBy q t p s) : EnteredBy q t (p <|> p') s
  | otherwise {α : Type} {p p' : Parser α} {s : List Char} (refused : p.Refuses s) (h : EnteredBy q t p' s) :
      EnteredBy q t (p <|> p') s
  | item {α : Type} {p : Parser α} {s u : List Char} {as : List α} (consumes : p.Consumes)
      (front : Many p.Reads s as u) (h : EnteredBy q t p u) : EnteredBy q t p.many s

variable {α β γ : Type} {p : Parser α} {q : Parser β} {s t rest : List Char}

/-- A list breaks where one of its items does. -/
theorem many_breaksAt (consumes : p.Consumes) {as : List α} (front : Many p.Reads s as t)
    (broken : p.BreaksAt t rest) : p.many.BreaksAt s rest := by
  -- on the items read in front of the one that breaks
  induction front with
  | nil s =>
    obtain ⟨wanted, broken⟩ := broken
    exact ⟨wanted, by rw [many_eq consumes, broken]⟩
  | cons first _ ih =>
    obtain ⟨wanted, broken⟩ := ih broken
    refine ⟨wanted, ?_⟩
    rw [many_eq consumes, show p _ = .ok _ _ from first]
    simp only [broken]

namespace EnteredBy

/-- **What ends all reading is not taken back.** -/
theorem breaks (h : q.EnteredBy t p s) (broken : q.BreaksAt t rest) : p.BreaksAt s rest := by
  induction h with
  | self => exact broken
  | first _ ih => exact bind_breaksAt.2 (Or.inl ih)
  | then_ read _ ih => exact bind_breaksAt.2 (Or.inr ⟨_, _, read, ih⟩)
  | committed _ ih => exact committed_breaksAt.2 ih.stopsAt
  | wanting _ ih => exact wanting_breaksAt.2 ih
  | mapPartial _ ih => exact mapPartial_breaksAt.2 ih
  | optional _ ih => exact optional_breaksAt.2 ih
  | either _ ih => exact orElse_breaksAt.2 (Or.inl ih)
  | otherwise refused _ ih => exact orElse_breaksAt.2 (Or.inr ⟨refused, ih⟩)
  | item consumes front _ ih => exact many_breaksAt consumes front ih

theorem trans {r : Parser γ} {u : List Char} (inner : r.EnteredBy u q t) (outer : q.EnteredBy t p s) :
    r.EnteredBy u p s := by
  induction outer with
  | self => exact inner
  | first _ ih => exact first ih
  | then_ read _ ih => exact then_ read ih
  | committed _ ih => exact committed ih
  | wanting _ ih => exact wanting ih
  | mapPartial _ ih => exact mapPartial ih
  | optional _ ih => exact optional ih
  | either _ ih => exact either ih
  | otherwise refused _ ih => exact otherwise refused ih
  | item consumes front _ ih => exact item consumes front ih

end EnteredBy

/-! ## Parsers that begin only in one way -/

/-- Where its beginning stands in the text, the parser reads or ends all reading; it is
refused elsewhere only. -/
structure Commits (p : Parser α) (begun : List Char → Prop) : Prop where
  refuses : ∀ s, p.Refuses s ↔ ¬ begun s
  finishes : ∀ s, begun s → (∃ a r, p s = .ok a r) ∨ p.Breaks s

namespace Commits

variable {begun : List Char → Prop}

theorem of_refuses (h : ∀ s, p.Refuses s ↔ ¬ begun s) : p.Commits begun := by
  refine ⟨h, ?_⟩
  intro s start
  have not_refused : ¬ p.Refuses s := fun given => (h s).1 given start
  cases reply : p s with
  | ok a r => exact Or.inl ⟨a, r, rfl⟩
  | fail final rest wanted =>
    cases final with
    | true => exact Or.inr ⟨rest, wanted, reply⟩
    | false => exact absurd ⟨rest, wanted, reply⟩ not_refused

/-- A list of such parts ends only where none begins. -/
theorem many_ends (h : p.Commits begun) (consumes : p.Consumes) {as : List α} {r : List Char}
    (read : p.many s = .ok as r) : ¬ begun r :=
  (h.refuses r).1 ((many_ok consumes).1 read).2

end Commits

end RuleWatch.Parser
