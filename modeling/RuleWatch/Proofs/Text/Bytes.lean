import Mathlib.Data.Char
import Mathlib.Data.List.Lex
/-!
  The order of texts. A text comes before another if its characters do, from the first on, and
  the order is the same if the characters are taken for their numbers or for their bytes in
  UTF-8 (`Text.lt_iff_codePoints`, `Text.lt_iff_bytes`). Bytes do because the code of a smaller
  character is smaller whatever follows it: a longer code has a larger first byte, and codes of
  one length hold the digits of a number, the highest first.
-/

namespace RuleWatch.Text

/-- The bytes of a text in UTF-8. -/
def bytes (s : String) : List UInt8 := s.toUTF8.data.toList

/-- The numbers of the characters of a text. -/
def codePoints (s : String) : List Nat := s.toList.map Char.toNat

theorem bytes_eq (s : String) : bytes s = s.toList.flatMap String.utf8EncodeChar := by
  conv => lhs; rw [← String.ofList_toList (s := s)]
  rw [bytes, String.toUTF8_eq_toByteArray, String.toByteArray_ofList]
  exact List.toList_data_toByteArray

/-! ## Codes that keep the order -/

section
variable {β : Type} [LT β] {code : Char → List β}

/-- The code of a smaller character is smaller, whatever follows. -/
def KeepsOrder (code : Char → List β) : Prop :=
  ∀ ⦃c d : Char⦄, c < d → ∀ xs ys, code c ++ xs < code d ++ ys

theorem KeepsOrder.flatMap_lt (keeps : KeepsOrder code) (nonempty : ∀ c, code c ≠ []) {s t : List Char}
    (h : s < t) : s.flatMap code < t.flatMap code := by
  induction s generalizing t with
  | nil =>
    cases t with
    | nil => exact absurd h (List.lt_irrefl _)
    | cons d t =>
      obtain ⟨b, rest, first⟩ := List.exists_cons_of_ne_nil (nonempty d)
      rw [List.flatMap_cons, first]
      exact List.nil_lt_cons _ _
  | cons c s ih =>
    cases t with
    | nil => exact absurd h (List.not_lt_nil _)
    | cons d t =>
      rw [List.flatMap_cons, List.flatMap_cons]
      rcases List.cons_lt_cons_iff.1 h with less | ⟨rfl, less⟩
      · exact keeps less _ _
      · exact List.append_left_lt (ih less)

theorem KeepsOrder.flatMap_lt_iff [Std.Asymm ((· < ·) : β → β → Prop)] (keeps : KeepsOrder code)
    (nonempty : ∀ c, code c ≠ []) (s t : List Char) : s.flatMap code < t.flatMap code ↔ s < t := by
  refine ⟨?_, keeps.flatMap_lt nonempty⟩
  intro h
  rcases lt_trichotomy s t with less | rfl | more
  · exact less
  · exact absurd h (List.lt_irrefl _)
  · exact absurd h (List.lt_asymm (keeps.flatMap_lt nonempty more))

end

/-! ## Numbers and bytes -/

theorem keepsOrder_toNat : KeepsOrder fun c => [c.toNat] :=
  fun _ _ h _ _ => List.cons_lt_cons_iff.2 (.inl h)

/-- The lowest digits of a number to the base 64, the highest of them first, as the bytes
that stand behind the first of a code. -/
def lowDigits : Nat → Nat → List UInt8
  | 0, _ => []
  | n + 1, v => UInt8.ofNat (v / 64 ^ n % 64 + 128) :: lowDigits n v

theorem cons_byte_lt {m n : Nat} (hm : m < 256) (hn : n < 256) (xs ys : List UInt8) :
    UInt8.ofNat m :: xs < UInt8.ofNat n :: ys ↔ m < n ∨ m = n ∧ xs < ys := by
  rw [List.cons_lt_cons_iff, UInt8.lt_iff_toNat_lt, ← UInt8.toNat_inj, UInt8.toNat_ofNat', UInt8.toNat_ofNat',
    Nat.mod_eq_of_lt hm, Nat.mod_eq_of_lt hn]

/-- Of two numbers that agree in all higher digits, the smaller has the smaller low digits. -/
theorem lowDigits_lt {n v w : Nat} (same : v / 64 ^ n = w / 64 ^ n) (less : v < w) (xs ys : List UInt8) :
    lowDigits n v ++ xs < lowDigits n w ++ ys := by
  induction n with
  | zero =>
    rw [Nat.pow_zero, Nat.div_one, Nat.div_one] at same
    omega
  | succ n ih =>
    rw [Nat.pow_succ, ← Nat.div_div_eq_div_mul, ← Nat.div_div_eq_div_mul] at same
    rw [lowDigits, lowDigits, List.cons_append, List.cons_append, cons_byte_lt (by omega) (by omega)]
    have ordered : v / 64 ^ n ≤ w / 64 ^ n := Nat.div_le_div_right less.le
    rcases ordered.lt_or_eq with lower | equal
    · exact Or.inl (by omega)
    · exact Or.inr ⟨by omega, ih equal⟩

/-- Of two codes of one length, that of the smaller number is smaller. -/
theorem code_lt {n mark v w : Nat} (less : v < w) (byte : w / 64 ^ n + mark < 256) (xs ys : List UInt8) :
    UInt8.ofNat (v / 64 ^ n + mark) :: (lowDigits n v ++ xs) <
      UInt8.ofNat (w / 64 ^ n + mark) :: (lowDigits n w ++ ys) := by
  have ordered : v / 64 ^ n ≤ w / 64 ^ n := Nat.div_le_div_right less.le
  rw [cons_byte_lt (by omega) byte]
  rcases ordered.lt_or_eq with lower | equal
  · exact Or.inl (by omega)
  · exact Or.inr ⟨by omega, lowDigits_lt equal less xs ys⟩

/-- The four lengths of a code, each with the numbers that it is for and the mark of its first
byte. -/
inductive Encodes : Nat → List UInt8 → Prop where
  | one {v : Nat} (high : v < 128) : Encodes v (UInt8.ofNat (v / 64 ^ 0 + 0) :: lowDigits 0 v)
  | two {v : Nat} (low : 128 ≤ v) (high : v < 2048) : Encodes v (UInt8.ofNat (v / 64 ^ 1 + 192) :: lowDigits 1 v)
  | three {v : Nat} (low : 2048 ≤ v) (high : v < 65536) :
      Encodes v (UInt8.ofNat (v / 64 ^ 2 + 224) :: lowDigits 2 v)
  | four {v : Nat} (low : 65536 ≤ v) (high : v < 1114112) :
      Encodes v (UInt8.ofNat (v / 64 ^ 3 + 240) :: lowDigits 3 v)

theorem encodes_utf8 (c : Char) : Encodes c.val.toNat (String.utf8EncodeChar c) := by
  have small : c.val.toNat < 1114112 := by
    have := c.valid
    omega
  unfold String.utf8EncodeChar
  generalize c.val.toNat = v at small ⊢
  simp only
  split
  · next high => simpa [lowDigits] using Encodes.one (Nat.lt_succ_of_le high)
  split
  · next low high =>
    have lead : v / 64 % 32 = v / 64 := by omega
    simpa [lowDigits, lead] using Encodes.two (v := v) (by omega) (by omega)
  split
  · next low high =>
    have lead : v / 4096 % 16 = v / 4096 := by omega
    simpa [lowDigits, lead] using Encodes.three (v := v) (by omega) (by omega)
  · next low =>
    have lead : v / 262144 % 8 = v / 262144 := by omega
    simpa [lowDigits, lead] using Encodes.four (v := v) (by omega) small

theorem keepsOrder_utf8 : KeepsOrder String.utf8EncodeChar := by
  intro c d h xs ys
  have less : c.val.toNat < d.val.toNat := h
  have first := encodes_utf8 c
  have second := encodes_utf8 d
  generalize c.val.toNat = v, String.utf8EncodeChar c = code at less first
  generalize d.val.toNat = w, String.utf8EncodeChar d = code' at less second
  -- a longer code has a larger first byte, and codes of one length compare as their digits do
  cases first <;> cases second <;> rw [List.cons_append, List.cons_append]
  all_goals first
    | omega
    | exact code_lt less (by omega) xs ys
    | exact (cons_byte_lt (by omega) (by omega) _ _).2 (.inl (by omega))

theorem lt_iff_codePoints (s t : String) : s < t ↔ codePoints s < codePoints t := by
  rw [String.lt_iff, ← keepsOrder_toNat.flatMap_lt_iff (by simp), codePoints, codePoints, List.map_eq_flatMap,
    List.map_eq_flatMap]

theorem lt_iff_bytes (s t : String) : s < t ↔ bytes s < bytes t := by
  rw [String.lt_iff, bytes_eq, bytes_eq]
  exact (keepsOrder_utf8.flatMap_lt_iff (fun _ => String.utf8EncodeChar_ne_nil) _ _).symm

end RuleWatch.Text
