/-!
  The first element of a list with a property. What is decided by going through a list in
  order, up to the first failure, is told by it.
-/

namespace RuleWatch

variable {α β : Type}

/-- The element has the property, at a place of the list with none before it. -/
def FirstWith (p : α → Prop) (l : List α) (x : α) : Prop :=
  p x ∧ ∃ before after, l = before ++ x :: after ∧ ∀ y ∈ before, ¬ p y

namespace FirstWith

variable {p : α → Prop} {l l' : List α} {x y : α}

theorem mem (h : FirstWith p l x) : x ∈ l := by
  obtain ⟨-, before, after, rfl, -⟩ := h
  simp

theorem head (h : p x) (l : List α) : FirstWith p (x :: l) x := ⟨h, [], l, rfl, by simp⟩

theorem append_left (h : FirstWith p l x) (l' : List α) : FirstWith p (l ++ l') x := by
  obtain ⟨has, before, after, rfl, none⟩ := h
  exact ⟨has, before, after ++ l', by simp, none⟩

theorem append_right (none : ∀ y ∈ l, ¬ p y) (h : FirstWith p l' x) : FirstWith p (l ++ l') x := by
  obtain ⟨has, before, after, rfl, none'⟩ := h
  exact ⟨has, l ++ before, after, by simp, List.forall_mem_append.2 ⟨none, none'⟩⟩

theorem tail (not : ¬ p y) (h : FirstWith p l x) : FirstWith p (y :: l) x :=
  append_right (l := [y]) (by simpa using not) h

theorem map {q : β → Prop} {f : α → β} (same : ∀ y, q (f y) ↔ p y) (h : FirstWith p l x) :
    FirstWith q (l.map f) (f x) := by
  obtain ⟨has, before, after, rfl, none⟩ := h
  refine ⟨(same x).2 has, before.map f, after.map f, by simp, ?_⟩
  intro z hz
  obtain ⟨y, hy, rfl⟩ := List.mem_map.1 hz
  rw [same]
  exact none y hy

theorem find?_eq_some_iff [DecidablePred p] : l.find? (p ·) = some x ↔ FirstWith p l x := by
  rw [List.find?_eq_some_iff_append]
  simp [FirstWith]

theorem unique (h : FirstWith p l x) (k : FirstWith p l y) : x = y := by
  classical
  rw [← find?_eq_some_iff] at h k
  rw [h] at k
  exact Option.some.inj k

end FirstWith

end RuleWatch
