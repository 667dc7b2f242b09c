import RuleWatch.Number.Power
/-!
  Double-precision numbers as the 64 bits of their interchange form, without
  machine arithmetic: sign, magnitude, position on the number line, and the
  double nearest to a ratio, to an integer, or to a product or quotient of
  doubles.

  A magnitude is the lower 63 bits. Magnitudes count upwards in the order of
  the numbers they stand for, `infinity` is the one after the largest finite
  number, and all above it are no numbers. A magnitude below `infinity` is a
  whole number of smallest steps (`units`), the step being `2 ^ -1074`.
-/

namespace RuleWatch

/-- A double-precision number, given by its bits. -/
structure Binary64 where
  bits : UInt64
deriving DecidableEq

/-- `num / den` rounded to a whole number, a half going to the even neighbour. -/
def roundHalfEven (num den : Nat) : Nat :=
  let below := num / den
  let twice := 2 * (num % den)
  if twice < den then below
  else if den < twice then below + 1
  else below + below % 2

namespace Binary64

/-- The magnitude that stands for infinity. -/
def infinity : Nat := 2047 * 2 ^ 52

/-- Exponent and fraction read as one number. -/
def magnitude (x : Binary64) : Nat := x.bits.toNat % 2 ^ 63

/-- Whether the sign bit is set. -/
def isNegative (x : Binary64) : Bool := 2 ^ 63 ≤ x.bits.toNat

def ofMagnitude (negative : Bool) (magnitude : Nat) : Binary64 :=
  ⟨UInt64.ofNat ((if negative then 2 ^ 63 else 0) + magnitude)⟩

/-- Whether the bits stand for no number. -/
def isNaN (x : Binary64) : Bool := infinity < x.magnitude

/-- Whether the bits stand for a finite number. -/
def isFinite (x : Binary64) : Bool := x.magnitude < infinity

/-- The place of a number among all others. Both zeros stand at `0`. -/
def rank (x : Binary64) : Int :=
  if x.isNegative then -(x.magnitude : Int) else x.magnitude

/-- The order of two numbers; none if one of them is no number. -/
def compare? (x y : Binary64) : Option Ordering :=
  if x.isNaN || y.isNaN then none else some (compare x.rank y.rank)

/-- Numerical equality: no number equals nothing, and both zeros are equal. -/
def equals (x y : Binary64) : Bool := x.compare? y == some .eq

/-- A finite magnitude as a whole number of smallest steps. The formula gives
`infinity` the number of steps that the next larger number would have. -/
def units (magnitude : Nat) : Nat :=
  if magnitude < 2 ^ 52 then magnitude
  else (2 ^ 52 + magnitude % 2 ^ 52) * 2 ^ (magnitude / 2 ^ 52 - 1)

/-- Whether a finite number has no fraction. -/
def isWhole (x : Binary64) : Bool := units x.magnitude % 2 ^ 1074 = 0

/-- The magnitude nearest to `num / den`, a half going to the even neighbour,
and `infinity` from half a step above the largest finite number. The number of
smallest steps, written with 53 significant bits, is a scale and a significand;
a significand of `2 ^ 53` carries into the scale by itself. -/
def nearestRatio (num den : Nat) : Nat :=
  let steps := num * 2 ^ 1074
  let scale := (steps / den).log2 - 52
  min infinity (scale * 2 ^ 52 + roundHalfEven steps (den * 2 ^ scale))

/-- The magnitude nearest to the product of two finite ones. -/
def product (a b : Nat) : Nat := nearestRatio (units a * units b) (2 ^ 2148)

/-- The magnitude nearest to the quotient of two finite ones, the second not
zero. -/
def quotient (a b : Nat) : Nat := nearestRatio (units a) (units b)

/-- The number nearest to an integer, a half going to the even neighbour. -/
def ofInt (i : Int) : Binary64 :=
  ofMagnitude (i < 0) (nearestRatio i.natAbs 1)

end Binary64

end RuleWatch
