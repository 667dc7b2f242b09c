import RuleWatch.Number.Digits
/-!
  Identities of rules: 128-bit numbers, written in hexadecimal.
-/

namespace RuleWatch

/-- The identity of a rule. -/
structure RuleId where
  number : BitVec 128
deriving DecidableEq

namespace RuleId

instance : Ord RuleId := ⟨fun a b => compare a.number b.number⟩

instance : Std.TransOrd RuleId where
  eq_swap {a b} := by
    show compare a.number b.number = (compare b.number a.number).swap
    exact Std.OrientedCmp.eq_swap
  isLE_trans {a b c} h k := by
    change (compare a.number b.number).isLE = true at h
    change (compare b.number c.number).isLE = true at k
    show (compare a.number c.number).isLE = true
    exact Std.TransCmp.isLE_trans h k

instance : Std.LawfulEqOrd RuleId where
  eq_of_compare {a b} h := by
    change compare a.number b.number = .eq at h
    cases a; cases b
    exact congrArg RuleId.mk (Std.LawfulEqCmp.eq_of_compare h)

/-- The identity with a given number. -/
def ofNat (n : Nat) : RuleId := ⟨BitVec.ofNat 128 n⟩

/-- The `32` hexadecimal digits of an identity. -/
def digits (i : RuleId) : List Char := paddedDigits 16 32 i.number.toNat

/-- The digits without separators. -/
def text (i : RuleId) : String := String.ofList i.digits

/-- The digits in groups of 8, 4, 4, 4 and 12. -/
def grouped (i : RuleId) : String :=
  let d := i.digits
  String.ofList (d.take 8 ++ '-' :: (d.drop 8).take 4 ++ '-' :: (d.drop 12).take 4 ++
    '-' :: (d.drop 16).take 4 ++ '-' :: d.drop 20)

/-- The identity with the given hexadecimal digits. -/
def ofDigits? (digits : List Char) : Option RuleId :=
  if digits.length = 32 then (hexDigitsValue? digits).map ofNat else none

/-- The identity written in groups. -/
def ofGroups? (s : List Char) : Option RuleId :=
  match s.splitOn '-' with
  | [a, b, c, d, e] =>
    if a.length = 8 ∧ b.length = 4 ∧ c.length = 4 ∧ d.length = 4 then
      ofDigits? (a ++ b ++ c ++ d ++ e)
    else none
  | _ => none

/-- The identity that a text names: plain digits, or groups, which may stand in
braces or behind `urn:uuid:` in letters of either case. -/
def ofText? (s : String) : Option RuleId :=
  let s := s.toList
  if s.length = 32 then ofDigits? s
  else if s.length = 36 then ofGroups? s
  else if s.length = 38 ∧ s.head? = some '\x7b' ∧ s.getLast? = some '\x7d' then
    ofGroups? (s.drop 1).dropLast
  else if s.length = 45 ∧ (s.take 9).map Char.toLower = "urn:uuid:".toList then
    ofGroups? (s.drop 9)
  else none

end RuleId

end RuleWatch
