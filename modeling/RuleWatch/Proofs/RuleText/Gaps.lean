import RuleWatch.Proofs.RuleText.Conditions
import RuleWatch.Proofs.Text.Progress
/-!
  Blanks and comments, part by part. Skipping them is a repetition of parts (`trivia_eq`),
  each a run of blanks or a comment. A comment is left in front of the line break that
  ends it, which the next run of blanks takes. In front of a carriage return that stands
  alone no comment ends: the part is refused, and with it the repetition ends before the
  number sign.
-/

namespace RuleWatch.RuleText

open Grammar
open RuleWatch.Parser (Begins LeavesSuffix Many Reads)

/-- Succeeds where a line ends; reads nothing. -/
def lineEnd : Parser Unit
  | [] => .ok () []
  | '\n' :: rest => .ok () ('\n' :: rest)
  | '\r' :: '\n' :: rest => .ok () ('\r' :: '\n' :: rest)
  | s => .fail false s []

/-- Whether a character may stand in a comment. -/
def isCommentChar (c : Char) : Bool := c != '\n' && c != '\r'

/-- A comment, up to the line break that ends it. -/
def comment : Parser Unit := do
  let _ ← Parser.char '#'
  let _ ← Parser.run isCommentChar
  lineEnd

/-- A part of what stands between tokens: a run of blanks, or a comment. -/
def gapPart : Parser Unit :=
  (do let _ ← Parser.run1 isBlank
      return ()) <|>
  comment

theorem lineEnd_ok {s r : List Char} {u : Unit} : lineEnd s = .ok u r ↔ LineEnd s ∧ s = r := by
  unfold lineEnd LineEnd
  split <;> simp_all

theorem lineEnd_refuses {s : List Char} : lineEnd.Refuses s ↔ ¬ LineEnd s := by
  unfold Parser.Refuses lineEnd LineEnd
  split <;> simp_all

@[simp] theorem lineEnd_breaksAt {s rest : List Char} : ¬ lineEnd.BreaksAt s rest := by
  unfold Parser.BreaksAt lineEnd
  split <;> simp

theorem clean_of_isCommentChar {body : List Char} (h : ∀ c ∈ body, isCommentChar c = true) :
    ∀ c ∈ body, c ≠ '\n' ∧ c ≠ '\r' := by
  simpa [isCommentChar] using h

/-! ## What a part takes -/

theorem trivia_blanks {w : List Char} (blank : ∀ c ∈ w, isBlank c = true) (r : List Char) :
    Trivia (w ++ r) r := by
  induction w with
  | nil => exact Trivia.none r
  | cons c w ih => exact Trivia.blank (isBlank_iff.1 (blank c (by simp))) (ih fun d hd => blank d (by simp [hd]))

/-- A part is what may stand between tokens, and takes a character at least. -/
theorem gapPart_sound : gapPart.Sound fun s _ r => Trivia s r ∧ r.length < s.length := by
  intro s u r h
  rcases Parser.orElse_ok.1 h with blanks | ⟨-, read⟩
  · simp only [Parser.bind_ok, Parser.run1_ok, Parser.pure_ok] at blanks
    obtain ⟨w, t, ⟨nonempty, rfl, blank, -⟩, -, rfl⟩ := blanks
    have := List.length_pos_of_ne_nil nonempty
    refine ⟨trivia_blanks blank t, ?_⟩
    rw [List.length_append]
    omega
  · simp only [comment, Parser.bind_ok, Parser.char_ok, Parser.run_ok, lineEnd_ok] at read
    obtain ⟨-, t, ⟨rfl, -⟩, body, t', ⟨rfl, chars, -⟩, ends, rfl⟩ := read
    refine ⟨Trivia.comment (clean_of_isCommentChar chars) ends (Trivia.none t'), ?_⟩
    rw [List.length_cons, List.length_append]
    omega

theorem gapPart_consumes : gapPart.Consumes := fun s u r h => (gapPart_sound s u r h).2

/-- In front of a carriage return that stands alone skipping goes back to the number sign. -/
theorem skipTrivia_of_open {body t : List Char} (clean : ∀ c ∈ body, c ≠ '\n' ∧ c ≠ '\r')
    (stop : ¬ Begins isCommentChar t) (ends : ¬ LineEnd t) :
    skipTrivia none ('#' :: (body ++ t)) = '#' :: (body ++ t) := by
  have inside : skipTrivia none ('#' :: (body ++ t)) = skipTrivia (some ('#' :: (body ++ t))) t :=
    skipTrivia_body clean
  rw [inside]
  cases t with
  | nil => exact absurd (Or.inl rfl) ends
  | cons c t =>
    have not_comment : c = '\n' ∨ c = '\r' := by
      have := mt Parser.begins_cons.2 stop
      simp only [isCommentChar, Bool.and_eq_true, bne_iff_ne, not_and_or, not_not] at this
      exact this
    rcases not_comment with rfl | rfl
    · exact absurd (Or.inr (Or.inl ⟨t, rfl⟩)) ends
    · rw [skipTrivia]
      intro rest same
      exact ends (Or.inr (Or.inr ⟨rest, by rw [same]⟩))

/-- Where no part begins, nothing is skipped. -/
theorem skipTrivia_of_refuses {s : List Char} (h : gapPart.Refuses s) : skipTrivia none s = s := by
  obtain ⟨blanks, comments⟩ := Parser.orElse_refuses.1 h
  simp only [Parser.bind_refuses, Parser.run1_refuses, Parser.pure_refuses, and_false, exists_false,
    or_false] at blanks
  simp only [comment, Parser.bind_refuses, Parser.char_refuses, Parser.char_ok, Parser.run_refuses,
    Parser.run_ok, false_or, lineEnd_refuses] at comments
  rcases comments with other | ⟨-, t, ⟨rfl, -⟩, body, t', ⟨rfl, chars, stop⟩, ends⟩
  · apply skipTrivia_of_solid
    rintro ⟨c, t, rfl, start⟩
    rcases Bool.or_eq_true_iff.1 start with blank | sign
    · exact blanks (Parser.begins_cons.2 blank)
    · exact other t (by rw [beq_iff_eq.1 sign])
  · exact skipTrivia_of_open (clean_of_isCommentChar chars) stop ends

/-! ## Skipping as a repetition -/

theorem gapPart_breaksAt {s rest : List Char} : ¬ gapPart.BreaksAt s rest := by
  simp [gapPart, comment]

theorem trivia_of_parts {s r : List Char} {us : List Unit} (h : Many gapPart.Reads s us r) : Trivia s r := by
  induction h with
  | nil s => exact Trivia.none s
  | cons first _ ih => exact trivia_trans (gapPart_sound _ _ _ first).1 ih

/-- Blanks and comments are skipped part by part, as many as there are. -/
theorem trivia_eq : trivia = (do let _ ← gapPart.many) := by
  funext s
  show trivia s = (gapPart.many >>= fun _ => pure ()) s
  rw [Parser.bind_apply]
  cases read : gapPart.many s with
  | ok us r =>
    obtain ⟨parts, refused⟩ := (Parser.many_ok gapPart_consumes).1 read
    have same : skipTrivia none s = r := by
      rw [skipTrivia_of_trivia (trivia_of_parts parts), skipTrivia_of_refuses refused]
    rw [trivia, same]
    rfl
  | fail final rest wanted =>
    obtain ⟨-, t, -, broken⟩ := Parser.many_stopsAt ⟨final, wanted, read⟩
    exact absurd broken gapPart_breaksAt

theorem lineEnd_leavesSuffix : lineEnd.LeavesSuffix := by
  intro s u r h
  obtain ⟨-, rfl⟩ := lineEnd_ok.1 h
  exact List.suffix_refl s

theorem gapPart_leavesSuffix : gapPart.LeavesSuffix := by
  refine .orElse (.bind (.run1 _) fun _ => .pure _) ?_
  exact .bind (.char _) fun _ => .bind (.run _) fun _ => lineEnd_leavesSuffix

theorem trivia_leavesSuffix : trivia.LeavesSuffix := by
  rw [trivia_eq]
  exact gapPart_leavesSuffix.many.bind fun _ => .pure _

end RuleWatch.RuleText
