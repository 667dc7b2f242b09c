import RuleWatch.Number.Numeral
/-!
  Doubles from JSON numbers, in rounded steps. The leading digits of a number
  make a count below `2 ^ 64`. The double nearest to that count is multiplied or
  divided by a power of ten, which is a double itself, and the result is rounded
  again. It may therefore lie a little off the double nearest to the number.
-/

namespace RuleWatch

/-- A count with digits written behind it, as long as it stays below `2 ^ 64`,
and how many digits are left. -/
def extendCount (n : Nat) : List Char → Nat × Nat
  | [] => (n, 0)
  | c :: rest =>
    let longer := 10 * n + digitsValue [c]
    if longer < 2 ^ 64 then extendCount longer rest else (n, rest.length + 1)

/-- The leading digits of a number. Digits left out before the point raise the
exponent, and those taken behind it lower it. -/
def Numeral.leading (n : Numeral) : Decimal :=
  let (whole, out) := extendCount 0 n.whole
  let (count, unread) := extendCount whole n.places
  ⟨count, n.exponent.getD 0 + out - (n.places.length - unread : Nat)⟩

namespace Decimal

/-- The magnitude of a power of ten. The powers up to `10 ^ 308` are finite. -/
def powerOfTen (n : Nat) : Nat := Binary64.nearestRatio (10 ^ n) 1

/-- The magnitude of a decimal with a count for its digits, in rounded steps;
none if it is too large. A division by more than `10 ^ 308` is made in two, and
one by more than `10 ^ 616` leaves nothing of any count. -/
def stepwise? (d : Decimal) : Option Nat :=
  let count := Binary64.nearestRatio d.digits 1
  let places := d.exponent.natAbs
  if count = 0 then some 0
  else if 0 ≤ d.exponent then
    if 308 < places then none
    else
      let product := Binary64.product count (powerOfTen places)
      if product < Binary64.infinity then some product else none
  else if places ≤ 308 then some (Binary64.quotient count (powerOfTen places))
  else if places ≤ 616 then
    some (Binary64.quotient (Binary64.quotient count (powerOfTen 308)) (powerOfTen (places - 308)))
  else some 0

end Decimal

/-- The double that a JSON number is read as, if it is not too large. -/
def Numeral.stepwise? (n : Numeral) : Option Binary64 :=
  n.leading.stepwise?.map (Binary64.ofMagnitude n.negative)

end RuleWatch
