import RuleWatch.Number.Decimal
import RuleWatch.Number.Digits
/-!
  Numerals: decimal numbers as they are written, with a sign, digits before and
  behind a point, and possibly an exponent. A layout says which numeral is
  written for a double: which exponents are written out in place, and whether a
  whole number keeps a point.
-/

namespace RuleWatch

/-- A written number. Without digits behind the point there is no point. -/
structure Numeral where
  negative : Bool
  /-- The digits before the point. -/
  whole : List Char
  /-- The digits behind the point. -/
  places : List Char
  exponent : Option Int
deriving DecidableEq

namespace Numeral

/-- The size of the number. -/
def decimal (n : Numeral) : Decimal :=
  ⟨digitsValue (n.whole ++ n.places), n.exponent.getD 0 - n.places.length⟩

/-- The double nearest to the number. -/
def nearest (n : Numeral) : Binary64 := Binary64.ofMagnitude n.negative n.decimal.nearest

/-- The characters of the exponent, its sign always written. -/
def exponentChars : Option Int → List Char
  | none => []
  | some e => 'e' :: (if e < 0 then '-' else '+') :: Nat.toDigits 10 e.natAbs

/-- The characters of the numeral. -/
def chars (n : Numeral) : List Char :=
  (if n.negative then ['-'] else []) ++ n.whole ++
    (if n.places.isEmpty then [] else '.' :: n.places) ++ exponentChars n.exponent

/-- The numeral of an integer. -/
def ofInt (i : Int) : Numeral := ⟨i < 0, Nat.toDigits 10 i.natAbs, [], none⟩

end Numeral

/-- How doubles are written. -/
structure Layout where
  /-- Which of two equally near shortest decimals is written. -/
  tie : Tie
  /-- Whether a whole number is written with a zero behind a point. -/
  pointed : Bool
  /-- Whether a number is written without an exponent, by the exponent of its
  first digit. -/
  inPlace : Int → Bool

namespace Decimal

/-- The exponent of the first digit. -/
def leadingExponent (d : Decimal) : Int :=
  (Nat.toDigits 10 d.digits).length + d.exponent - 1

/-- The number without an exponent: the digits with zeros behind them, or with
a point among or before them. -/
def inPlace (pointed negative : Bool) (d : Decimal) : Numeral :=
  if 0 ≤ d.exponent then
    ⟨negative, Nat.toDigits 10 d.digits ++ List.replicate d.exponent.toNat '0', if pointed then ['0'] else [], none⟩
  else
    let places := d.exponent.natAbs
    let padded := paddedDigits 10 (places + 1) d.digits
    ⟨negative, padded.take (padded.length - places), padded.drop (padded.length - places), none⟩

/-- The number with an exponent and one digit before the point. -/
def scientific (negative : Bool) (d : Decimal) : Numeral :=
  let digits := Nat.toDigits 10 d.digits
  ⟨negative, digits.take 1, digits.drop 1, some d.leadingExponent⟩

end Decimal

/-- The numeral of a finite double. -/
def Layout.numeral (l : Layout) (x : Binary64) : Numeral :=
  let d := Decimal.shortest l.tie x.magnitude
  if l.inPlace d.leadingExponent then d.inPlace l.pointed x.isNegative
  else d.scientific x.isNegative

end RuleWatch
