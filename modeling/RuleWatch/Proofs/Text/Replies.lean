import Mathlib.Algebra.GroupWithZero.Nat
import Mathlib.Data.List.Basic
import Mathlib.Data.List.TakeWhile
import RuleWatch.Text.Parser
/-!
  When parsers succeed, and when they refuse. For each way of building a parser
  from others there are two lemmas: when it reads a value, and when it refuses a
  text without ending all reading. What a parser made with `committed` fails on
  it never refuses.
-/

namespace RuleWatch.Parser

variable {α β : Type}

/-- The parser fails on a text, but not finally: the next alternative is tried. -/
def Refuses (p : Parser α) (s : List Char) : Prop := ∃ rest wanted, p s = .fail false rest wanted

/-- The parser fails on a text, and finally: all reading ends. -/
def Breaks (p : Parser α) (s : List Char) : Prop := ∃ rest wanted, p s = .fail true rest wanted

/-- Whatever the parser reads is as a relation says. -/
def Sound (p : Parser α) (R : List Char → α → List Char → Prop) : Prop := ∀ s a r, p s = .ok a r → R s a r

theorem not_ok_of_refuses {p : Parser α} {s : List Char} (h : p.Refuses s) (a : α) (r : List Char) :
    p s ≠ .ok a r := by
  obtain ⟨rest, wanted, h⟩ := h
  simp [h]

theorem not_ok_of_breaks {p : Parser α} {s : List Char} (h : p.Breaks s) (a : α) (r : List Char) :
    p s ≠ .ok a r := by
  obtain ⟨rest, wanted, h⟩ := h
  simp [h]

/-! ## Sequences -/

@[simp] theorem pure_ok {a b : α} {s r : List Char} :
    (pure a : Parser α) s = .ok b r ↔ a = b ∧ s = r := by
  rw [pure_apply, Reply.ok.injEq]

@[simp] theorem pure_refuses {a : α} {s : List Char} : ¬ (pure a : Parser α).Refuses s := by
  simp [Refuses, pure_apply]

@[simp] theorem bind_ok {p : Parser α} {f : α → Parser β} {s r : List Char} {b : β} :
    (p >>= f) s = .ok b r ↔ ∃ a t, p s = .ok a t ∧ f a t = .ok b r := by
  rw [bind_apply]
  cases p s <;> simp [and_assoc]

@[simp] theorem bind_refuses {p : Parser α} {f : α → Parser β} {s : List Char} :
    (p >>= f).Refuses s ↔ p.Refuses s ∨ ∃ a t, p s = .ok a t ∧ (f a).Refuses t := by
  unfold Refuses
  rw [bind_apply]
  cases p s <;> simp [and_assoc]

@[simp] theorem map_ok {f : α → β} {p : Parser α} {s r : List Char} {b : β} :
    (f <$> p) s = .ok b r ↔ ∃ a, p s = .ok a r ∧ f a = b := by
  rw [← bind_pure_comp, bind_ok]
  simp

@[simp] theorem map_refuses {f : α → β} {p : Parser α} {s : List Char} :
    (f <$> p).Refuses s ↔ p.Refuses s := by
  rw [← bind_pure_comp, bind_refuses]
  simp

theorem map_of_fail {f : α → β} {p : Parser α} {s r : List Char} {final : Bool} {wanted : List String}
    (h : p s = .fail final r wanted) : (f <$> p) s = .fail final r wanted := by
  rw [← bind_pure_comp, bind_apply, h]

/-! ## Alternatives -/

@[simp] theorem orElse_ok {p q : Parser α} {s r : List Char} {a : α} :
    (p <|> q) s = .ok a r ↔ p s = .ok a r ∨ p.Refuses s ∧ q s = .ok a r := by
  unfold Refuses
  rw [orElse_apply]
  cases p s with
  | ok b t => simp
  | fail final t wanted => cases final <;> simp

@[simp] theorem orElse_refuses {p q : Parser α} {s : List Char} :
    (p <|> q).Refuses s ↔ p.Refuses s ∧ q.Refuses s := by
  unfold Refuses
  rw [orElse_apply]
  cases p s with
  | ok b t => simp
  | fail final t wanted => cases final <;> simp

/-- Where the first alternative is refused, the second decides. -/
theorem orElse_of_refuses {p q : Parser α} {s : List Char} (h : p.Refuses s) : (p <|> q) s = q s := by
  obtain ⟨rest, wanted, h⟩ := h
  rw [orElse_apply, h]

@[simp] theorem committed_ok {p : Parser α} {s r : List Char} {a : α} :
    p.committed s = .ok a r ↔ p s = .ok a r := by
  unfold committed
  cases p s <;> simp

@[simp] theorem committed_refuses {p : Parser α} {s : List Char} : ¬ p.committed.Refuses s := by
  unfold Refuses committed
  cases p s <;> simp

@[simp] theorem wanting_ok {what : String} {p : Parser α} {s r : List Char} {a : α} :
    p.wanting what s = .ok a r ↔ p s = .ok a r := by
  unfold wanting
  cases p s <;> simp

@[simp] theorem wanting_refuses {what : String} {p : Parser α} {s : List Char} :
    (p.wanting what).Refuses s ↔ p.Refuses s := by
  unfold Refuses wanting
  cases p s <;> simp

@[simp] theorem optional_ok {p : Parser α} {s r : List Char} {o : Option α} :
    p.optional? s = .ok o r ↔
      (∃ a, p s = .ok a r ∧ o = some a) ∨ p.Refuses s ∧ o = none ∧ r = s := by
  unfold optional? Refuses
  cases p s with
  | ok a t => simp [and_assoc, eq_comm, and_comm]
  | fail final t wanted => cases final <;> simp [eq_comm]

@[simp] theorem optional_refuses {p : Parser α} {s : List Char} : ¬ p.optional?.Refuses s := by
  unfold Refuses optional?
  cases p s with
  | ok a t => simp
  | fail final t wanted => cases final <;> simp

@[simp] theorem mapPartial_ok {f : α → Option β} {p : Parser α} {s r : List Char} {b : β} :
    p.mapPartial f s = .ok b r ↔ ∃ a, p s = .ok a r ∧ f a = some b := by
  unfold mapPartial
  cases p s with
  | ok a t => cases h : f a <;> simp [and_assoc, h, and_comm]
  | fail final t wanted => simp

@[simp] theorem mapPartial_refuses {f : α → Option β} {p : Parser α} {s : List Char} :
    (p.mapPartial f).Refuses s ↔ p.Refuses s ∨ ∃ a t, p s = .ok a t ∧ f a = none := by
  unfold Refuses mapPartial
  cases p s with
  | ok a t => cases h : f a <;> simp [h]
  | fail final t wanted => simp

/-! ## Where reading ends -/

theorem bind_breaks {p : Parser α} {f : α → Parser β} {s : List Char} :
    (p >>= f).Breaks s ↔ p.Breaks s ∨ ∃ a t, p s = .ok a t ∧ (f a).Breaks t := by
  unfold Breaks
  rw [bind_apply]
  cases p s <;> simp [and_assoc]

theorem orElse_breaks {p q : Parser α} {s : List Char} :
    (p <|> q).Breaks s ↔ p.Breaks s ∨ p.Refuses s ∧ q.Breaks s := by
  unfold Breaks Refuses
  rw [orElse_apply]
  cases p s with
  | ok b t => simp
  | fail final t wanted => cases final <;> simp

theorem committed_breaks {p : Parser α} {s : List Char} :
    p.committed.Breaks s ↔ p.Breaks s ∨ p.Refuses s := by
  unfold Breaks Refuses committed
  cases p s with
  | ok b t => simp
  | fail final t wanted => cases final <;> simp

theorem wanting_breaks {what : String} {p : Parser α} {s : List Char} :
    (p.wanting what).Breaks s ↔ p.Breaks s := by
  unfold Breaks wanting
  cases p s <;> simp

theorem many_breaks {p : Parser α} {s : List Char} (h : p.Breaks s) : p.many.Breaks s := by
  obtain ⟨rest, wanted, h⟩ := h
  refine ⟨rest, wanted, ?_⟩
  rw [many, upTo, h]

/-! ## Parsers that agree -/

theorem bind_congr {p q : Parser α} {f g : α → Parser β} {s : List Char} (first : p s = q s)
    (then_ : ∀ a t, p s = .ok a t → f a t = g a t) : (p >>= f) s = (q >>= g) s := by
  rw [bind_apply, bind_apply, ← first]
  cases read : p s with
  | ok a t => exact then_ a t read
  | fail final t wanted => rfl

theorem orElse_congr {p p' q q' : Parser α} {s : List Char} (first : p s = p' s) (second : q s = q' s) :
    (p <|> q) s = (p' <|> q') s := by
  rw [orElse_apply, orElse_apply, first, second]

theorem committed_congr {p q : Parser α} {s : List Char} (h : p s = q s) : p.committed s = q.committed s := by
  rw [committed, committed, h]

theorem wanting_congr {what : String} {p q : Parser α} {s : List Char} (h : p s = q s) :
    p.wanting what s = q.wanting what s := by
  rw [wanting, wanting, h]

/-- Items that agree on all texts up to a length are equally many there. -/
theorem many_congr {p q : Parser α} {k : Nat} (consumes : p.Consumes)
    (h : ∀ t : List Char, t.length ≤ k → p t = q t) {s : List Char} (short : s.length ≤ k) :
    p.many s = q.many s := by
  suffices main : ∀ n (s : List Char), s.length ≤ k → p.upTo n s = q.upTo n s from main _ s short
  intro n
  -- on the number of items allowed: what is behind an item is no longer than the text
  induction n with
  | zero => exact fun _ _ => rfl
  | succ n ih =>
    intro s short
    unfold upTo
    rw [← h s short]
    cases read : p s with
    | ok a t =>
      have := consumes s a t read
      simp only [ih t (by omega)]
    | fail final t wanted => cases final <;> rfl

/-- Items turned into others are as many as before. -/
theorem upTo_map (f : α → β) (p : Parser α) (n : Nat) (s : List Char) :
    (f <$> p).upTo n s = (List.map f <$> p.upTo n) s := by
  induction n generalizing s with
  | zero => rfl
  | succ n ih =>
    cases first : p s with
    | ok a t =>
      have first' : (f <$> p) s = .ok (f a) t := map_ok.2 ⟨a, first, rfl⟩
      cases others : p.upTo n t with
      | ok as r =>
        have all : p.upTo (n + 1) s = .ok (a :: as) r := by simp only [upTo, first, others]
        have others' : (f <$> p).upTo n t = .ok (as.map f) r := (ih t).trans (map_ok.2 ⟨as, others, rfl⟩)
        rw [map_ok.2 ⟨a :: as, all, rfl⟩]
        simp only [upTo, first', others', List.map_cons]
      | fail final r wanted =>
        have all : p.upTo (n + 1) s = .fail final r wanted := by simp only [upTo, first, others]
        have others' : (f <$> p).upTo n t = .fail final r wanted := (ih t).trans (map_of_fail others)
        rw [map_of_fail all]
        simp only [upTo, first', others']
    | fail final t wanted =>
      have first' : (f <$> p) s = .fail final t wanted := map_of_fail first
      cases final with
      | true =>
        have all : p.upTo (n + 1) s = .fail true t wanted := by simp only [upTo, first]
        rw [map_of_fail all]
        simp only [upTo, first']
      | false =>
        have all : p.upTo (n + 1) s = .ok [] s := by simp only [upTo, first]
        rw [map_ok.2 ⟨[], all, rfl⟩]
        simp only [upTo, first', List.map_nil]

theorem many_map (f : α → β) (p : Parser α) : (f <$> p).many = List.map f <$> p.many := by
  funext s
  exact upTo_map f p (s.length + 1) s

/-! ## Characters -/

/-- The text begins with a character of a class. -/
def Begins (accepts : Char → Bool) (s : List Char) : Prop := ∃ c t, s = c :: t ∧ accepts c = true

@[simp] theorem begins_cons {accepts : Char → Bool} {c : Char} {s : List Char} :
    Begins accepts (c :: s) ↔ accepts c = true := by simp [Begins]

@[simp] theorem not_begins_nil {accepts : Char → Bool} : ¬ Begins accepts [] := by simp [Begins]

@[simp] theorem oneOf_ok {accepts : Char → Bool} {s r : List Char} {c : Char} :
    oneOf accepts s = .ok c r ↔ s = c :: r ∧ accepts c = true := by
  cases s with
  | nil => simp [oneOf]
  | cons d t =>
    unfold oneOf
    by_cases h : accepts d = true
    · simp only [h, if_true, Reply.ok.injEq, List.cons.injEq]
      refine ⟨?_, ?_⟩
      · intro given
        obtain ⟨rfl, rfl⟩ := given
        exact ⟨⟨rfl, rfl⟩, h⟩
      · exact And.left
    · simp only [h, List.cons.injEq]
      refine ⟨?_, ?_⟩
      · intro h; cases h
      · intro given
        obtain ⟨⟨rfl, -⟩, h'⟩ := given
        exact absurd h' h

@[simp] theorem oneOf_refuses {accepts : Char → Bool} {s : List Char} :
    (oneOf accepts).Refuses s ↔ ¬ Begins accepts s := by
  cases s with
  | nil => simp [oneOf, Refuses]
  | cons d t => by_cases h : accepts d = true <;> simp [oneOf, Refuses, h]

@[simp] theorem char_ok {c d : Char} {s r : List Char} :
    char c s = .ok d r ↔ s = c :: r ∧ d = c := by
  unfold char
  rw [oneOf_ok, beq_iff_eq]
  refine ⟨?_, ?_⟩
  · intro given
    obtain ⟨rfl, rfl⟩ := given
    exact ⟨rfl, rfl⟩
  · intro given
    obtain ⟨rfl, rfl⟩ := given
    exact ⟨rfl, rfl⟩

@[simp] theorem char_refuses {c : Char} {s : List Char} :
    (char c).Refuses s ↔ ∀ t, s ≠ c :: t := by
  unfold char
  rw [oneOf_refuses]
  simp [Begins]

@[simp] theorem noneOf_ok {refuses : Char → Bool} {s r : List Char} {u : Unit} :
    noneOf refuses s = .ok u r ↔ s = r ∧ ¬ Begins refuses s := by
  cases s with
  | nil => simp [noneOf]
  | cons d t => by_cases h : refuses d = true <;> simp [noneOf, h]

@[simp] theorem noneOf_refuses {refuses : Char → Bool} {s : List Char} :
    (noneOf refuses).Refuses s ↔ Begins refuses s := by
  cases s with
  | nil => simp [noneOf, Refuses]
  | cons d t => by_cases h : refuses d = true <;> simp [noneOf, Refuses, h]

@[simp] theorem word_ok {w s r : List Char} {u : Unit} : word w s = .ok u r ↔ s = w ++ r := by
  rw [eq_comm (a := s), ← List.isPrefixOf?_eq_some_iff_append_eq]
  unfold word
  cases w.isPrefixOf? s <;> simp

@[simp] theorem word_refuses {w s : List Char} : (word w).Refuses s ↔ ¬ w <+: s := by
  have found : w <+: s ↔ ∃ r, w.isPrefixOf? s = some r := by
    simp only [List.isPrefixOf?_eq_some_iff_append_eq, List.IsPrefix]
  rw [found, Refuses, word]
  cases w.isPrefixOf? s <;> simp

@[simp] theorem run_ok {accepts : Char → Bool} {s r w : List Char} :
    run accepts s = .ok w r ↔ s = w ++ r ∧ (∀ c ∈ w, accepts c = true) ∧ ¬ Begins accepts r := by
  unfold run
  rw [Reply.ok.injEq]
  refine ⟨?_, ?_⟩
  · intro given
    obtain ⟨rfl, rfl⟩ := given
    refine ⟨List.takeWhile_append_dropWhile.symm, fun c hc => List.mem_takeWhile_imp hc, ?_⟩
    intro given
    obtain ⟨c, t, h, accepted⟩ := given
    have := List.head?_dropWhile_not accepts s
    rw [h] at this
    simp [accepted] at this
  · intro given
    obtain ⟨rfl, all, stop⟩ := given
    rw [List.takeWhile_append_of_pos all, List.dropWhile_append_of_pos all]
    cases r with
    | nil => simp
    | cons c t => simp [show accepts c = false by simpa using stop]

@[simp] theorem run_refuses {accepts : Char → Bool} {s : List Char} : ¬ (run accepts).Refuses s := by
  simp [run, Refuses]

theorem run1_eq (accepts : Char → Bool) (s : List Char) :
    run1 accepts s = match s.takeWhile accepts with
      | [] => .fail false s []
      | word => .ok word (s.dropWhile accepts) := rfl

@[simp] theorem run1_ok {accepts : Char → Bool} {s r w : List Char} :
    run1 accepts s = .ok w r ↔
      w ≠ [] ∧ s = w ++ r ∧ (∀ c ∈ w, accepts c = true) ∧ ¬ Begins accepts r := by
  rw [← run_ok, run, run1_eq, Reply.ok.injEq]
  cases s.takeWhile accepts with
  | nil => simp +contextual [eq_comm]
  | cons c t =>
    simp only [Reply.ok.injEq]
    refine ⟨?_, ?_⟩
    · intro given
      obtain ⟨rfl, rfl⟩ := given
      simp
    · exact And.right

@[simp] theorem run1_refuses {accepts : Char → Bool} {s : List Char} :
    (run1 accepts).Refuses s ↔ ¬ Begins accepts s := by
  rw [Refuses, run1_eq]
  cases s with
  | nil => simp
  | cons c t => by_cases h : accepts c = true <;> simp [h]

/-! ## Repetitions -/

/-- Values read one after another, each as a relation says. -/
inductive Many (R : List Char → α → List Char → Prop) : List Char → List α → List Char → Prop where
  | nil (s : List Char) : Many R s [] s
  | cons {s t r : List Char} {a : α} {as : List α} (first : R s a t) (others : Many R t as r) :
      Many R s (a :: as) r

namespace Many

variable {R R' : List Char → α → List Char → Prop}

theorem append {s t r : List Char} {as bs : List α} (front : Many R s as t) (back : Many R t bs r) :
    Many R s (as ++ bs) r := by
  induction front with
  | nil s => exact back
  | cons first _ ih => exact cons first (ih back)

theorem snoc {s t r : List Char} {as : List α} {a : α} (front : Many R s as t) (last : R t a r) :
    Many R s (as ++ [a]) r := front.append (cons last (nil r))

theorem imp (h : ∀ s a r, R s a r → R' s a r) {s r : List Char} {as : List α} (m : Many R s as r) :
    Many R' s as r := by
  induction m with
  | nil s => exact nil s
  | cons first _ ih => exact cons (h _ _ _ first) ih

/-- If no value weighs more than the characters that it takes, all of them do not. -/
theorem weight_le {w : α → Nat} (h : ∀ s a r, R s a r → w a + r.length ≤ s.length) {s r : List Char}
    {as : List α} (m : Many R s as r) : (as.map w).sum + r.length ≤ s.length := by
  induction m with
  | nil s => simp
  | cons first _ ih =>
    have := h _ _ _ first
    rw [List.map_cons, List.sum_cons]
    omega

/-- If each value takes a character, there are at most as many values as characters. -/
theorem length_le (h : ∀ s a r, R s a r → r.length < s.length) {s r : List Char} {as : List α}
    (m : Many R s as r) : as.length + r.length ≤ s.length := by
  have heavy (s : List Char) (a : α) (r : List Char) (read : R s a r) : 1 + r.length ≤ s.length := by
    have := h s a r read
    omega
  simpa using m.weight_le heavy

end Many

def Reads (p : Parser α) (s : List Char) (a : α) (r : List Char) : Prop := p s = .ok a r

theorem upTo_ok {p : Parser α} {n : Nat} {s r : List Char} {as : List α} :
    p.upTo n s = .ok as r ↔
      Many p.Reads s as r ∧ (as.length = n ∨ as.length < n ∧ p.Refuses r) := by
  -- on the number of items still allowed; only at zero is the list full
  induction n generalizing s as with
  | zero =>
    simp only [upTo, Reply.ok.injEq, Nat.not_lt_zero, false_and, or_false, List.length_eq_zero_iff]
    refine ⟨?_, ?_⟩
    · intro given
      obtain ⟨rfl, rfl⟩ := given
      exact ⟨Many.nil s, rfl⟩
    · intro given
      obtain ⟨m, rfl⟩ := given
      cases m
      exact ⟨rfl, rfl⟩
  | succ n ih =>
    unfold upTo
    refine ⟨?_, ?_⟩
    · intro h
      -- whether the first item is read decides between the two rules of `Many`
      cases read : p s with
      | ok a t =>
        rw [read] at h
        cases others : p.upTo n t with
        | ok as' r' =>
          simp only [others, Reply.ok.injEq] at h
          obtain ⟨rfl, rfl⟩ := h
          obtain ⟨m, stop⟩ := ih.1 others
          refine ⟨Many.cons read m, ?_⟩
          simpa using stop
        | fail final t wanted => simp [others] at h
      | fail final t wanted =>
        rw [read] at h
        cases final with
        | true => simp at h
        | false =>
          simp only [Reply.ok.injEq] at h
          obtain ⟨rfl, rfl⟩ := h
          exact ⟨Many.nil s, Or.inr ⟨by simp, t, wanted, read⟩⟩
    · intro given
      obtain ⟨m, stop⟩ := given
      cases m with
      | nil =>
        obtain ⟨t, wanted, refused⟩ : p.Refuses r := by simpa using stop
        rw [refused]
      | cons first others =>
        rename_i t a as
        rw [show p s = .ok a t from first]
        have rest : p.upTo n t = .ok as r := ih.2 ⟨others, by simpa using stop⟩
        simp only [rest]

theorem upTo_refuses {p : Parser α} {n : Nat} {s : List Char} : ¬ (p.upTo n).Refuses s := by
  induction n generalizing s with
  | zero => simp [upTo, Refuses]
  | succ n ih =>
    intro given
    obtain ⟨r, wanted, h⟩ := given
    unfold upTo at h
    cases read : p s with
    | ok a t =>
      cases others : p.upTo n t with
      | ok as r' => simp [read, others] at h
      | fail final t' wanted' =>
        simp only [read, others, Reply.fail.injEq] at h
        exact ih ⟨t', wanted', by rw [others, h.1]⟩
    | fail final t wanted' => cases final <;> simp [read] at h

/-- Of items that take characters, as many are read as there are: one after
another, up to where the next is refused. -/
theorem many_ok {p : Parser α} (h : p.Consumes) {s r : List Char} {as : List α} :
    p.many s = .ok as r ↔ Many p.Reads s as r ∧ p.Refuses r := by
  rw [many, upTo_ok]
  refine ⟨?_, ?_⟩
  · intro given
    obtain ⟨m, stop⟩ := given
    have := m.length_le h
    -- a list that is full would take more characters than there are
    rcases stop with full | ⟨-, refused⟩
    · omega
    · exact ⟨m, refused⟩
  · intro given
    obtain ⟨m, refused⟩ := given
    have := m.length_le h
    exact ⟨m, Or.inr ⟨by omega, refused⟩⟩

@[simp] theorem many_refuses {p : Parser α} {s : List Char} : ¬ p.many.Refuses s := upTo_refuses

end RuleWatch.Parser
