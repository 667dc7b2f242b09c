import RuleWatch.Proofs.RuleText.Completions
/-!
  A mistake is never reported too late. Whatever stands in front of the place where
  reading gave up is the beginning of a text that is read: the first thing that is
  wrong with a text stands at that place or behind it (`viable_up_to_mistake`).
-/

namespace RuleWatch.RuleText

open Grammar

/-- The bytes that characters take are those of their text. -/
theorem byteSize_eq (s : List Char) : byteSize s = (String.ofList s).utf8ByteSize := by
  induction s with
  | nil => rfl
  | cons c s ih =>
    rw [← List.singleton_append, String.ofList_append, String.utf8ByteSize_append, ← ih]
    simp [byteSize]

/-- A place in a text, in bytes. It lies within the text and between two characters, and
what stands in front of it begins some text that is accepted. -/
structure ViableAt (accepts : String → Prop) (text : String) (offset : Nat) : Prop where
  within : offset ≤ text.utf8ByteSize
  boundary : (String.Pos.Raw.mk offset).IsValid text
  goes_on : ∃ front back rest, text = front ++ back ∧ front.utf8ByteSize = offset ∧ accepts (front ++ rest)

theorem viableAt_of_front {accepts : String → Prop} {front back rest : List Char}
    (h : accepts (String.ofList (front ++ rest))) :
    ViableAt accepts (String.ofList (front ++ back)) (byteSize front) := by
  rw [String.ofList_append] at h ⊢
  rw [byteSize_eq]
  refine ⟨?_, ?_, _, _, _, rfl, rfl, h⟩
  · rw [String.utf8ByteSize_append]
    exact Nat.le_add_right _ _
  · exact String.Pos.Raw.isValid_iff_exists_append.2 ⟨_, _, rfl, rfl⟩

section
variable {α : Type} {p : Parser α} {text : String} {m : Mistake}

/-- A text is not read because the parser stops, or because text is left over. -/
theorem parse_error (h : parse p text = .error m) :
    m.read = text.toList.take (text.toList.length - m.rest.length) ∧
      (p.StopsAt text.toList m.rest ∨ ∃ a, p text.toList = .ok a m.rest) := by
  unfold parse at h
  dsimp only at h
  split at h
  · cases h
  · next a rest _ read =>
    cases h
    exact ⟨rfl, Or.inr ⟨a, read⟩⟩
  · next final rest wanted failed =>
    cases h
    exact ⟨rfl, Or.inl ⟨final, wanted, failed⟩⟩

/-- If the text can be resumed wherever the parser stops or leaves text over, it is
viable up to the mistake. -/
theorem viable_of_resumed {accepts : String → Prop} (h : parse p text = .error m)
    (stops : ∀ rest, p.StopsAt text.toList rest →
      ∃ u s', Resumed rest u text.toList s' ∧ accepts (String.ofList s'))
    (left : ∀ a rest, p text.toList = .ok a rest →
      ∃ u s', Resumed rest u text.toList s' ∧ accepts (String.ofList s')) :
    text.toList = m.read ++ m.rest ∧ ViableAt accepts text m.offset := by
  obtain ⟨read, place⟩ := parse_error h
  obtain ⟨u, s', ⟨front, whole, rfl⟩, accepted⟩ :
      ∃ u s', Resumed m.rest u text.toList s' ∧ accepts (String.ofList s') := by
    rcases place with stopped | ⟨a, left_over⟩
    · exact stops _ stopped
    · exact left a _ left_over
  have front_eq : m.read = front := by
    rw [read, whole, List.length_append, Nat.add_sub_cancel, List.take_left]
  refine ⟨by rw [front_eq, whole], ?_⟩
  rw [Mistake.offset, front_eq, ← String.ofList_toList (s := text), whole]
  exact viableAt_of_front accepted

end

/-- **Mistakes are not reported too late.** If a text is not read as rules, or not as a
condition, the place that the message is about lies within the text and between two
characters, and the text up to there begins one that is read. -/
theorem viable_up_to_mistake (text : String) :
    (∀ m, parseRules text = .error m → text.toList = m.read ++ m.rest ∧
      ViableAt (fun t => ∃ drafts, parseRules t = .ok drafts) text m.offset) ∧
    ∀ m, parseCondition text = .error m → text.toList = m.read ++ m.rest ∧
      ViableAt (fun t => ∃ c, parseCondition t = .ok c) text m.offset := by
  have file {s : List Char} {ds : List (Draft Condition)} (h : File s ds) :
      ∃ ds, parseRules (String.ofList s) = .ok ds :=
    ⟨ds, parseRules_iff.2 (by rwa [String.toList_ofList])⟩
  have lone {s : List Char} {c : Condition} (h : LoneCondition s c) :
      ∃ c, parseCondition (String.ofList s) = .ok c :=
    ⟨c, loneCondition_iff.2 (by rwa [String.toList_ofList])⟩
  refine ⟨?_, ?_⟩
  · intro m h
    refine viable_of_resumed h ?_ ?_
    · intro rest stopped
      obtain ⟨u, s', ds, t', whole⟩ := file_completes stopped
      exact ⟨u, s', t', file whole⟩
    · intro ds rest read
      obtain ⟨s', t', whole⟩ := file_of_front read
      exact ⟨[], s', t', file whole⟩
  · intro m h
    refine viable_of_resumed h ?_ ?_
    · intro rest stopped
      obtain ⟨u, s', c, t', whole⟩ := loneCondition_completes stopped
      exact ⟨u, s', t', lone whole⟩
    · intro c rest read
      obtain ⟨s', t', whole⟩ := loneCondition_of_front read
      exact ⟨[], s', t', lone whole⟩

/-- Behind `false` a colon could have come. -/
example : (parseRules "rule a: x on falsey: b").mapError Mistake.offset = .error 18 := by cbv

end RuleWatch.RuleText
