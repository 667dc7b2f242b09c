import Mathlib
import RuleWatch.Proofs.RuleText.Tokens
/-!
  Strings in rule texts. A string runs up to the first quote with no odd number of
  backslashes in front of it, and what stands for quotes, backslashes, line feeds and tabs is
  replaced from left to right. Every text can be written as a string by a backslash in front
  of its quotes and backslashes (`string_decodes`).

  The backslashes in front of a place are counted in the text, not by the reader. Both agree
  since a backslash and the character behind it are passed together: taking such a pair off
  the front of a text changes the number at its end by none or by two.
-/

namespace RuleWatch.RuleText

open Grammar
open RuleWatch.Parser (Refuses)

/-- Puts a backslash in front of every quote and every backslash. -/
def escaped (s : List Char) : List Char := s.flatMap fun c => if c = '"' ∨ c = '\\' then ['\\', c] else [c]

/-- The content of a string: what stands for quotes, backslashes, line feeds and tabs is
replaced, and every other character stays behind its backslash. -/
def decoded : List Char → List Char
  | [] => []
  | '\\' :: '"' :: rest => '"' :: decoded rest
  | '\\' :: '\\' :: rest => '\\' :: decoded rest
  | '\\' :: 'n' :: rest => '\n' :: decoded rest
  | '\\' :: 't' :: rest => '\t' :: decoded rest
  | '\\' :: c :: rest => '\\' :: c :: decoded rest
  | c :: rest => c :: decoded rest

/-- An odd number of backslashes stands at the end, so that what comes next is escaped. -/
def Escapes (s : List Char) : Prop := Odd (s.rtakeWhile (· == '\\')).length

/-- A quote behind this text is the first that is not escaped. -/
structure Unclosed (body : List Char) : Prop where
  ends : ¬ Escapes body
  earlier : ∀ a b, body = a ++ '"' :: b → Escapes a

/-! ## Backslashes at the end -/

theorem not_escapes_nil : ¬ Escapes [] := by simp [Escapes]

theorem escapes_backslash : Escapes ['\\'] := ⟨0, rfl⟩

theorem rtakeWhile_append_of_ne (s : List Char) {c : Char} (h : c ≠ '\\') (t : List Char) :
    (s ++ c :: t).rtakeWhile (· == '\\') = t.rtakeWhile (· == '\\') := by
  induction t using List.reverseRecOn with
  | nil => simp [h]
  | append_singleton t d ih =>
    have snoc : s ++ c :: (t ++ [d]) = (s ++ c :: t) ++ [d] := by simp
    rw [snoc, List.rtakeWhile_concat, List.rtakeWhile_concat, ih]

/-- What is no backslash keeps those in front of it from the end. -/
theorem escapes_cons {c : Char} (h : c ≠ '\\') (s : List Char) : Escapes (c :: s) ↔ Escapes s := by
  rw [Escapes, ← List.nil_append (c :: s), rtakeWhile_append_of_ne [] h, Escapes]

/-- A backslash and the character behind it leave the rest as it is. -/
theorem escapes_pair (c : Char) (s : List Char) : Escapes ('\\' :: c :: s) ↔ Escapes s := by
  by_cases all : ∀ d ∈ s, (d == '\\') = true
  · by_cases backslash : c = '\\'
    · subst backslash
      -- all are backslashes, and there are two more of them
      have rest : s.rtakeWhile (· == '\\') = s := List.rtakeWhile_eq_self_iff.2 all
      have whole : ('\\' :: '\\' :: s).rtakeWhile (· == '\\') = '\\' :: '\\' :: s :=
        List.rtakeWhile_eq_self_iff.2 (by simpa using all)
      rw [Escapes, Escapes, rest, whole]
      simp [Nat.odd_add_one]
    · rw [Escapes, show '\\' :: c :: s = ['\\'] ++ c :: s from rfl, rtakeWhile_append_of_ne _ backslash, Escapes]
  · -- some other character stands between the pair and the end
    push Not at all
    obtain ⟨d, among, other⟩ := all
    obtain ⟨a, b, rfl⟩ := List.append_of_mem among
    have ne : d ≠ '\\' := by simpa using other
    rw [Escapes, ← List.cons_append, ← List.cons_append, rtakeWhile_append_of_ne _ ne, Escapes,
      rtakeWhile_append_of_ne _ ne]

/-! ## What a string holds -/

theorem decoded_pair {c : Char} {w : List Char} (stands : Escape c w) (s : List Char) :
    decoded ('\\' :: c :: s) = w ++ decoded s := by
  cases stands with
  | other plain =>
    simp only [List.mem_cons, List.not_mem_nil, or_false, not_or] at plain
    simp [decoded, plain]
  | quote => rfl
  | backslash => rfl
  | feed => rfl
  | tab => rfl

theorem decoded_cons {c : Char} (h : c ≠ '\\') (s : List Char) : decoded (c :: s) = c :: decoded s := by
  simp [decoded, h]

theorem escaped_cons (c : Char) (s : List Char) :
    escaped (c :: s) = (if c = '"' ∨ c = '\\' then ['\\', c] else [c]) ++ escaped s := rfl

theorem decoded_escaped (s : List Char) : decoded (escaped s) = s := by
  induction s with
  | nil => rfl
  | cons c s ih =>
    rw [escaped_cons]
    by_cases special : c = '"' ∨ c = '\\'
    · have stands : Escape c [c] := by
        rcases special with rfl | rfl
        · exact .quote
        · exact .backslash
      rw [if_pos special, List.cons_append, List.singleton_append, decoded_pair stands, ih, List.singleton_append]
    · obtain ⟨-, plain⟩ := not_or.1 special
      rw [if_neg special, List.singleton_append, decoded_cons plain, ih]

/-! ## Where a string ends -/

theorem unclosed_nil : Unclosed [] := ⟨not_escapes_nil, by simp⟩

theorem unclosed_pair {c : Char} {body : List Char} (h : Unclosed body) : Unclosed ('\\' :: c :: body) := by
  refine ⟨fun e => h.ends ((escapes_pair c body).1 e), ?_⟩
  rintro (_ | ⟨x, _ | ⟨y, a⟩⟩) b same
  · simp at same
  · obtain ⟨rfl, -⟩ := List.cons.inj same
    exact escapes_backslash
  · simp only [List.cons_append, List.cons.injEq] at same
    obtain ⟨rfl, rfl, rest⟩ := same
    exact (escapes_pair _ a).2 (h.earlier a b rest)

theorem unclosed_cons {c : Char} (quote : c ≠ '"') (backslash : c ≠ '\\') {body : List Char} (h : Unclosed body) :
    Unclosed (c :: body) := by
  refine ⟨fun e => h.ends ((escapes_cons backslash body).1 e), ?_⟩
  rintro (_ | ⟨x, a⟩) b same
  · exact absurd (List.cons.inj same).1 quote
  · simp only [List.cons_append, List.cons.injEq] at same
    obtain ⟨rfl, rest⟩ := same
    exact (escapes_cons backslash a).2 (h.earlier a b rest)

theorem Unclosed.of_pair {c : Char} {body : List Char} (h : Unclosed ('\\' :: c :: body)) : Unclosed body := by
  refine ⟨fun e => h.ends ((escapes_pair c body).2 e), ?_⟩
  intro a b same
  exact (escapes_pair c a).1 (h.earlier ('\\' :: c :: a) b (by simp [same]))

theorem Unclosed.of_cons {c : Char} {body : List Char} (h : Unclosed (c :: body)) (backslash : c ≠ '\\') :
    c ≠ '"' ∧ Unclosed body := by
  refine ⟨?_, fun e => h.ends ((escapes_cons backslash body).2 e), ?_⟩
  · intro same
    subst same
    exact not_escapes_nil (h.earlier [] body rfl)
  · intro a b same
    exact (escapes_cons backslash a).1 (h.earlier (c :: a) b (by simp [same]))

/-- The content that the grammar derives is the text in front of the first quote that is not
escaped, decoded. -/
theorem stringBody_iff {s b r : List Char} :
    StringBody s b r ↔ ∃ body, s = body ++ '"' :: r ∧ Unclosed body ∧ b = decoded body := by
  refine ⟨?_, ?_⟩
  · intro h
    induction h with
    | close r => exact ⟨[], rfl, unclosed_nil, rfl⟩
    | @escape c w _ _ _ stands _ ih =>
      obtain ⟨body, rfl, unclosed, rfl⟩ := ih
      exact ⟨'\\' :: c :: body, rfl, unclosed_pair unclosed, (decoded_pair stands body).symm⟩
    | @plain c _ _ _ quote backslash _ ih =>
      obtain ⟨body, rfl, unclosed, rfl⟩ := ih
      exact ⟨c :: body, rfl, unclosed_cons quote backslash unclosed, (decoded_cons backslash body).symm⟩
  · rintro ⟨body, rfl, unclosed, rfl⟩
    -- pairs are taken off the front together, as `decoded` takes them
    induction body using List.twoStepInduction with
    | nil => exact .close r
    | singleton c =>
      by_cases backslash : c = '\\'
      · subst backslash
        exact absurd escapes_backslash unclosed.ends
      · rw [decoded_cons backslash]
        exact .plain (unclosed.of_cons backslash).1 backslash (.close r)
    | cons_cons c d body ih ih' =>
      by_cases backslash : c = '\\'
      · subst backslash
        have stands := escape_unescape d
        rw [decoded_pair stands]
        exact .escape stands (ih unclosed.of_pair)
      · obtain ⟨quote, unclosed'⟩ := unclosed.of_cons backslash
        rw [decoded_cons backslash]
        exact .plain quote backslash (ih' d unclosed')

theorem unclosed_escaped (s : List Char) : Unclosed (escaped s) := by
  induction s with
  | nil => exact unclosed_nil
  | cons c s ih =>
    rw [escaped_cons]
    by_cases special : c = '"' ∨ c = '\\'
    · rw [if_pos special]
      exact unclosed_pair ih
    · obtain ⟨quote, backslash⟩ := not_or.1 special
      rw [if_neg special]
      exact unclosed_cons quote backslash ih

/-- The text ends within a string if and only if all its quotes are escaped. -/
theorem stringBody?_eq_none {s : List Char} :
    stringBody? s = none ↔ ∀ body r, s = body ++ '"' :: r → Escapes body := by
  refine ⟨?_, ?_⟩
  · intro h
    fun_induction stringBody? s with
    | case1 => simp
    | case2 => simp at h
    | case3 =>
      rintro (_ | ⟨x, a⟩) r same <;> simp at same
    | case4 c rest ih =>
      rw [Option.map_eq_none_iff] at h
      rintro (_ | ⟨x, _ | ⟨y, a⟩⟩) r same
      · simp at same
      · obtain ⟨rfl, -⟩ := List.cons.inj same
        exact escapes_backslash
      · simp only [List.cons_append, List.cons.injEq] at same
        obtain ⟨rfl, rfl, same⟩ := same
        exact (escapes_pair _ a).2 (ih h a r same)
    | case5 c rest quote single pair ih =>
      rw [Option.map_eq_none_iff] at h
      have backslash : c ≠ '\\' := by
        rintro rfl
        cases rest with
        | nil => exact single rfl rfl
        | cons d rest => exact pair d rest rfl rfl
      rintro (_ | ⟨x, a⟩) r same
      · exact absurd (List.cons.inj same).1 quote
      · simp only [List.cons_append, List.cons.injEq] at same
        obtain ⟨rfl, same⟩ := same
        exact (escapes_cons backslash a).2 (ih h a r same)
  · intro h
    cases read : stringBody? s with
    | none => rfl
    | some found =>
      obtain ⟨body, same, unclosed, -⟩ := stringBody_iff.1 (stringBody?_eq_some.1 read)
      exact absurd (h body _ same) unclosed.ends

/-! ## Strings -/

theorem string_eq_ok {s r : List Char} {v : String} : string s = .ok v r ↔
    ∃ body, s = '"' :: (body ++ '"' :: r) ∧ Unclosed body ∧ v = String.ofList (decoded body) := by
  rw [string_ok]
  refine ⟨?_, ?_⟩
  · rintro ⟨t, b, rfl, content, rfl⟩
    obtain ⟨body, rfl, unclosed, rfl⟩ := stringBody_iff.1 content
    exact ⟨body, rfl, unclosed, rfl⟩
  · rintro ⟨body, rfl, unclosed, rfl⟩
    exact ⟨_, _, rfl, stringBody_iff.2 ⟨body, rfl, unclosed, rfl⟩, rfl⟩

/-- Once a quote has been read, a string is read or all reading ends. -/
theorem string_quote_not_refuses (s : List Char) : ¬ string.Refuses ('"' :: s) := by
  rintro ⟨rest, wanted, refused⟩
  rw [string_quote] at refused
  cases read : stringBody? s <;> simp [read] at refused

theorem string_quote_eq_fail {s : List Char} :
    string ('"' :: s) = .fail true [] [] ↔ ∀ body r, s = body ++ '"' :: r → Escapes body := by
  rw [← stringBody?_eq_none, string_quote]
  cases stringBody? s <;> simp

/-- **Strings decode exactly.**

* A text is read back from what it is written as, in front of whatever follows.
* A string that is read is a quote, the text in front of the first further quote that is not
  escaped, and that quote; its content is that text, decoded.
* A string is refused only where no quote stands. Behind a quote it is read or ends all
  reading, the latter at the end of the text and if and only if every further quote is
  escaped. -/
theorem string_decodes :
    (∀ (v : String) r, string ('"' :: (escaped v.toList ++ '"' :: r)) = .ok v r) ∧
    (∀ s v r, string s = .ok v r ↔
      ∃ body, s = '"' :: (body ++ '"' :: r) ∧ Unclosed body ∧ v = String.ofList (decoded body)) ∧
    (∀ s, string.Refuses s ↔ ∀ t, s ≠ '"' :: t) ∧
    ∀ s, ((∃ v r, string ('"' :: s) = .ok v r) ∨ string ('"' :: s) = .fail true [] []) ∧
      (string ('"' :: s) = .fail true [] [] ↔ ∀ body r, s = body ++ '"' :: r → Escapes body) := by
  refine ⟨?_, fun _ _ _ => string_eq_ok, ?_, ?_⟩
  · intro v r
    rw [string_eq_ok]
    refine ⟨escaped v.toList, rfl, unclosed_escaped v.toList, ?_⟩
    rw [decoded_escaped, String.ofList_toList]
  · intro s
    refine ⟨?_, string_other⟩
    rintro refused t rfl
    exact string_quote_not_refuses t refused
  · intro s
    refine ⟨?_, string_quote_eq_fail⟩
    rw [string_quote]
    cases stringBody? s with
    | none => exact Or.inr rfl
    | some read => exact Or.inl ⟨_, _, rfl⟩

/-- Three backslashes in front of a quote escape it, two do not. -/
example : string "\"a\\\\\\\"b\\x\\\\\" c".toList = .ok "a\\\"b\\x\\" " c".toList := by decide +kernel

end RuleWatch.RuleText
