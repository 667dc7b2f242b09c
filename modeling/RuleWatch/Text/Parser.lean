/-!
  Parsers with committed choice. A parser looks at the text in front of it and
  answers with a value and the text behind it, or with a failure that tells
  where the parser stood and what it wanted there. A failure is plain or final:
  after a plain one the next alternative is tried from the start, a final one
  ends all reading.

  Lists and nested parts are read by recursion up to a bound taken from the
  length of the text. `many_eq` and `recursive_eq` say that the bounds are never
  reached.
-/

namespace RuleWatch

/-- The answer of a parser. -/
inductive Reply (α : Type) where
  /-- A value, and the text behind what was read for it. -/
  | ok (value : α) (rest : List Char)
  /-- No value: whether the failure is final, the text at which the parser
  stood, and what it wanted, the innermost wish first. -/
  | fail (final : Bool) (rest : List Char) (wanted : List String)
deriving DecidableEq

/-- A parser of `α`. -/
def Parser (α : Type) : Type := List Char → Reply α

namespace Parser

variable {α β : Type}

instance : Monad Parser where
  pure a := fun s => .ok a s
  bind p f := fun s =>
    match p s with
    | .ok a rest => f a rest
    | .fail final rest wanted => .fail final rest wanted

/-- The second parser is tried where the first fails, unless finally. -/
instance : OrElse (Parser α) where
  orElse p q := fun s =>
    match p s with
    | .fail false _ _ => q () s
    | reply => reply

theorem pure_apply (a : α) (s : List Char) : (pure a : Parser α) s = .ok a s := rfl

theorem bind_apply (p : Parser α) (f : α → Parser β) (s : List Char) :
    (p >>= f) s = match p s with
      | .ok a rest => f a rest
      | .fail final rest wanted => .fail final rest wanted := rfl

theorem orElse_apply (p q : Parser α) (s : List Char) :
    (p <|> q) s = match p s with
      | .fail false _ _ => q s
      | reply => reply := rfl

/-- Parsers may be regrouped freely: only what is read counts, and in which
order. -/
instance : LawfulMonad Parser := .mk' _
  (fun p => by
    funext s
    show (match p s with
      | .ok a rest => Reply.ok a rest
      | .fail final rest wanted => .fail final rest wanted) = p s
    cases p s <;> rfl)
  (fun _ _ => rfl)
  (fun p f g => by
    funext s
    simp only [bind]
    cases p s <;> rfl)

/-- Makes every failure of a parser final. -/
def committed (p : Parser α) : Parser α := fun s =>
  match p s with
  | .fail _ rest wanted => .fail true rest wanted
  | reply => reply

/-- Adds a wish to every failure of a parser. -/
def wanting (what : String) (p : Parser α) : Parser α := fun s =>
  match p s with
  | .fail final rest wanted => .fail final rest (wanted ++ [what])
  | reply => reply

/-- Reads nothing where the parser fails, unless finally. -/
def optional? (p : Parser α) : Parser (Option α) := fun s =>
  match p s with
  | .ok a rest => .ok (some a) rest
  | .fail false _ _ => .ok none s
  | .fail true rest wanted => .fail true rest wanted

/-- Refuses, from the start, a value that has no image. -/
def mapPartial (f : α → Option β) (p : Parser α) : Parser β := fun s =>
  match p s with
  | .ok a rest => match f a with
    | some b => .ok b rest
    | none => .fail false s []
  | .fail final rest wanted => .fail final rest wanted

/-- One character of a class. -/
def oneOf (accepts : Char → Bool) : Parser Char
  | c :: rest => if accepts c then .ok c rest else .fail false (c :: rest) []
  | [] => .fail false [] []

def char (c : Char) : Parser Char := oneOf (· == c)

/-- The longest run of characters of a class. -/
def run (accepts : Char → Bool) : Parser (List Char) := fun s =>
  .ok (s.takeWhile accepts) (s.dropWhile accepts)

/-- The longest run of characters of a class, which must not be empty. -/
def run1 (accepts : Char → Bool) : Parser (List Char) := fun s =>
  match s.takeWhile accepts with
  | [] => .fail false s []
  | word => .ok word (s.dropWhile accepts)

def word (w : List Char) : Parser Unit := fun s =>
  match w.isPrefixOf? s with
  | some rest => .ok () rest
  | none => .fail false s []

/-- Succeeds unless the next character is of a class; reads nothing. -/
def noneOf (refuses : Char → Bool) : Parser Unit
  | c :: rest => if refuses c then .fail false (c :: rest) [] else .ok () (c :: rest)
  | [] => .ok () []

/-- Up to `n` items, as many as there are. -/
def upTo (p : Parser α) : Nat → Parser (List α)
  | 0, s => .ok [] s
  | n + 1, s =>
    match p s with
    | .ok a rest =>
      match upTo p n rest with
      | .ok as rest => .ok (a :: as) rest
      | .fail final rest wanted => .fail final rest wanted
    | .fail false _ _ => .ok [] s
    | .fail true rest wanted => .fail true rest wanted

/-- As many items as there are. An item reads at least one character, so that
the length of the text bounds their number. -/
def many (p : Parser α) : Parser (List α) := fun s => upTo p (s.length + 1) s

/-- Whether a parser leaves less text than it found, whenever it succeeds. -/
def Consumes (p : Parser α) : Prop :=
  ∀ (s : List Char) (a : α) (rest : List Char), p s = .ok a rest → rest.length < s.length

theorem upTo_eq_upTo {p : Parser α} (h : p.Consumes) {m n : Nat} {s : List Char}
    (hm : s.length < m) (hn : s.length < n) : p.upTo m s = p.upTo n s := by
  induction m generalizing n s with
  | zero => omega
  | succ m ih =>
    obtain ⟨n, rfl⟩ : ∃ k, n = k + 1 := ⟨n - 1, by omega⟩
    unfold upTo
    split
    · next a rest read =>
      have shorter := h s a rest read
      rw [ih (n := n) (by omega) (by omega)]
    · rfl
    · rfl

/-- The bound on the number of items is never reached. -/
theorem many_eq {p : Parser α} (h : p.Consumes) (s : List Char) :
    p.many s = match p s with
      | .ok a rest =>
        match p.many rest with
        | .ok as rest => .ok (a :: as) rest
        | .fail final rest wanted => .fail final rest wanted
      | .fail false _ _ => .ok [] s
      | .fail true rest wanted => .fail true rest wanted := by
  unfold many
  rw [upTo]
  cases read : p s with
  | ok a rest =>
    have shorter := h s a rest read
    simp only [upTo_eq_upTo h shorter (Nat.lt_add_one _)]
  | fail final rest wanted => cases final <;> rfl

/-- One or more items with separators between them. -/
def separated (p : Parser α) (separator : Parser Unit) : Parser (List α) := do
  let first ← p
  let others ← many (do separator; p)
  return first :: others

/-- A parser defined by itself, entered at most `n` times within itself. -/
def nested (step : Parser α → Parser α) : Nat → Parser α
  | 0 => fun s => .fail true s []
  | n + 1 => step (nested step n)

/-- A parser defined by itself. It enters itself only on shorter texts, so that
the length of the text bounds the depth. -/
def recursive (step : Parser α → Parser α) : Parser α := fun s =>
  nested step (s.length + 1) s

/-- Whether a parser, given another for the parts within, uses that one on
shorter texts only, provided that it consumes. -/
def Descends (step : Parser α → Parser α) : Prop :=
  ∀ (p q : Parser α) (s : List Char), p.Consumes → q.Consumes →
    (∀ t : List Char, t.length < s.length → p t = q t) → step p s = step q s

theorem nested_eq_nested {step : Parser α → Parser α} (h : Descends step)
    (consumes : ∀ n, (nested step n).Consumes) {m n : Nat} {s : List Char}
    (hm : s.length < m) (hn : s.length < n) : nested step m s = nested step n s := by
  induction m generalizing n s with
  | zero => omega
  | succ m ih =>
    obtain ⟨n, rfl⟩ : ∃ k, n = k + 1 := ⟨n - 1, by omega⟩
    exact h _ _ s (consumes m) (consumes n) fun t shorter => ih (by omega) (by omega)

theorem recursive_consumes {step : Parser α → Parser α} (consumes : ∀ n, (nested step n).Consumes) :
    (recursive step).Consumes := fun s => consumes (s.length + 1) s

/-- The bound on the depth is never reached. -/
theorem recursive_eq {step : Parser α → Parser α} (h : Descends step)
    (consumes : ∀ n, (nested step n).Consumes) : recursive step = step (recursive step) := by
  funext s
  exact h _ _ s (consumes _) (recursive_consumes consumes) fun t shorter =>
    nested_eq_nested h consumes shorter (Nat.lt_succ_self _)

end Parser

end RuleWatch
